import Mathlib.Data.List.TakeWhile
import DoRunner.Text.Basic

/-!
# Cutting texts into lines and trimming them

A line feed cuts a text in two, and each half has the lines it would have alone: this is what makes
everything that is said line by line compose. Lines that hold no line feed survive being put
together and taken apart again.

Trimming takes blanks off both ends and nothing else. What is trimmed begins and ends with no
blank, so trimming it again changes nothing.
-/

namespace DoRunner.Text

/-! ## Lines -/

theorem splitAt_of_notMem {mark : Char} {t : Text} (h : mark ∉ t) : splitAt mark t = [t] := by
  induction t with
  | nil => rfl
  | cons c t ih =>
    have hc : c ≠ mark := fun e => h (e ▸ List.mem_cons_self)
    have ht : mark ∉ t := fun m => h (List.mem_cons_of_mem _ m)
    rw [splitAt, if_neg hc, ih ht]

/-- **A mark cuts a text in two, and each half is split as if it stood alone.** -/
theorem splitAt_append_mark (mark : Char) (s t : Text) :
    splitAt mark (s ++ mark :: t) = splitAt mark s ++ splitAt mark t := by
  induction s with
  | nil => simp [splitAt]
  | cons c s ih =>
    rw [List.cons_append, splitAt, splitAt, ih]
    split
    · rfl
    · cases hs : splitAt mark s with
      | nil => exact absurd hs (splitAt_ne_nil mark s)
      | cons part parts => rfl

/-- A text ends with its last part, and what is put at its end goes on with that. -/
theorem splitAt_append {mark : Char} {s last : Text} {front : List Text}
    (parts : splitAt mark s = front ++ [last]) :
    (∃ before, s = before ++ last ∧ (front = [] → before = [])) ∧
      ∀ {t first : Text} {back : List Text}, splitAt mark t = first :: back →
        splitAt mark (s ++ t) = front ++ (last ++ first) :: back := by
  induction s generalizing front last with
  | nil =>
    obtain ⟨rfl, rfl⟩ : front = [] ∧ last = [] := by
      cases front with
      | nil => exact ⟨rfl, (List.cons.inj parts).1.symm⟩
      | cons part front => exact absurd (List.cons.inj parts).2 (by simp)
    exact ⟨⟨[], rfl, fun _ => rfl⟩, fun behind => behind⟩
  | cons c s ih =>
    rw [splitAt] at parts
    split at parts
    · rename_i same
      cases front with
      | nil => exact absurd (List.cons.inj parts).2 (splitAt_ne_nil mark s)
      | cons part front =>
        obtain ⟨rfl, others⟩ := List.cons.inj parts
        obtain ⟨⟨before, split, -⟩, joined⟩ := ih others
        refine ⟨⟨c :: before, by rw [split]; rfl, fun none => absurd none (by simp)⟩, fun behind => ?_⟩
        rw [List.cons_append, splitAt, if_pos same, joined behind]
        rfl
    · rename_i other
      cases hs : splitAt mark s with
      | nil => exact absurd hs (splitAt_ne_nil mark s)
      | cons part others =>
        rw [hs] at parts ih
        dsimp only at parts
        cases front with
        | nil =>
          obtain ⟨rfl, rfl⟩ := List.cons.inj parts
          obtain ⟨⟨before, split, first⟩, joined⟩ := @ih part [] rfl
          rw [first rfl] at split
          refine ⟨⟨[], congrArg (c :: ·) split, fun _ => rfl⟩, fun behind => ?_⟩
          rw [List.cons_append, splitAt, if_neg other, joined behind]
          rfl
        | cons first front =>
          obtain ⟨rfl, rfl⟩ := List.cons.inj parts
          obtain ⟨⟨before, split, -⟩, joined⟩ := @ih last (part :: front) rfl
          refine ⟨⟨c :: before, by rw [split]; rfl, fun none => absurd none (by simp)⟩,
            fun behind => ?_⟩
          rw [List.cons_append, splitAt, if_neg other, joined behind]
          rfl

/-- What stands behind the last `mark`. -/
def lastPart (mark : Char) (t : Text) : Text := (splitAt mark t).getLast (splitAt_ne_nil mark t)

theorem splitAt_lastPart (mark : Char) (t : Text) :
    splitAt mark t = (splitAt mark t).dropLast ++ [lastPart mark t] :=
  (List.dropLast_concat_getLast _).symm

theorem notMem_of_mem_splitAt {mark : Char} {t part : Text} (h : part ∈ splitAt mark t) :
    mark ∉ part := by
  induction t generalizing part with
  | nil =>
    rw [splitAt, List.mem_singleton] at h
    subst h
    exact List.not_mem_nil
  | cons c t ih =>
    rw [splitAt] at h
    split at h
    · rcases List.mem_cons.mp h with rfl | h
      · exact List.not_mem_nil
      · exact ih h
    · rename_i hc
      cases hs : splitAt mark t with
      | nil => exact absurd hs (splitAt_ne_nil mark t)
      | cons first others =>
        rw [hs] at h ih
        rcases List.mem_cons.mp h with rfl | h
        · intro m
          rcases List.mem_cons.mp m with rfl | m
          · exact hc rfl
          · exact ih List.mem_cons_self m
        · exact ih (List.mem_cons_of_mem _ h)

/-- The lines of a text and of what follows a line feed are the lines of the whole. -/
theorem lines_append_lf (s t : Text) : lines (s ++ '\n' :: t) = lines s ++ lines t :=
  splitAt_append_mark '\n' s t

theorem lines_of_notMem {t : Text} (h : '\n' ∉ t) : lines t = [t] := splitAt_of_notMem h

theorem lines_line_append {line : Text} (h : '\n' ∉ line) (t : Text) :
    lines (line ++ '\n' :: t) = line :: lines t := by
  rw [lines_append_lf, lines_of_notMem h, List.singleton_append]

theorem notMem_of_mem_lines {t line : Text} (h : line ∈ lines t) : '\n' ∉ line :=
  notMem_of_mem_splitAt h

theorem lines_ne_nil (t : Text) : lines t ≠ [] := splitAt_ne_nil '\n' t

theorem unlines_cons (line : Text) (ls : List Text) :
    unlines (line :: ls) = line ++ ls.flatMap ('\n' :: ·) := by
  induction ls generalizing line with
  | nil => exact (List.append_nil _).symm
  | cons next ls ih => rw [unlines, ih, List.flatMap_cons, List.cons_append]

/-- Lines that hold no line feed survive being put together. -/
theorem lines_unlines {ls : List Text} (hne : ls ≠ []) (h : ∀ line ∈ ls, '\n' ∉ line) :
    lines (unlines ls) = ls := by
  induction ls with
  | nil => exact absurd rfl hne
  | cons line more ih =>
    have hline := h line List.mem_cons_self
    cases more with
    | nil => rw [unlines, lines_of_notMem hline]
    | cons next more =>
      rw [unlines, lines_line_append hline,
        ih (List.cons_ne_nil _ _) (fun l m => h l (List.mem_cons_of_mem _ m))]

/-- Putting lines together loses none of them, even where others are more than single lines. -/
theorem sublist_lines_unlines {ls ms : List Text} (h : ∀ line ∈ ls, '\n' ∉ line)
    (within : ls.Sublist ms) : ls.Sublist (lines (unlines ms)) := by
  induction within with
  | slnil => exact List.nil_sublist _
  | @cons ls ms line within ih =>
    cases ms with
    | nil =>
      rw [List.sublist_nil.mp within]
      exact List.nil_sublist _
    | cons next ms =>
      rw [unlines, lines_append_lf]
      exact (ih h).trans (List.sublist_append_right _ _)
  | @cons_cons ls ms line within ih =>
    have oneLine := h line List.mem_cons_self
    cases ms with
    | nil =>
      have alone : lines (unlines [line]) = [line] := lines_of_notMem oneLine
      rw [List.sublist_nil.mp within]
      exact alone.symm ▸ List.Sublist.refl [line]
    | cons next ms =>
      rw [unlines, lines_line_append oneLine]
      exact (ih fun l m => h l (List.mem_cons_of_mem _ m)).cons_cons line

/-- Lines put one after another, each with a line feed. -/
def ended (ls : List Text) : Text := ls.flatMap fun line => line ++ ['\n']

theorem ended_cons (line : Text) (ls : List Text) :
    ended (line :: ls) = line ++ '\n' :: ended ls := by
  rw [ended, List.flatMap_cons, List.append_assoc]
  rfl

theorem ended_append (ls ms : List Text) : ended (ls ++ ms) = ended ls ++ ended ms :=
  List.flatMap_append

/-- Lines that hold no line feed are found again, and so is what comes after them. -/
theorem lines_ended_append {ls : List Text} (h : ∀ line ∈ ls, '\n' ∉ line) (t : Text) :
    lines (ended ls ++ t) = ls ++ lines t := by
  induction ls with
  | nil => rfl
  | cons line ls ih =>
    rw [ended_cons, List.append_assoc, List.cons_append,
      lines_line_append (h line List.mem_cons_self),
      ih (fun l m => h l (List.mem_cons_of_mem _ m)), List.cons_append]

theorem mem_ended {ls : List Text} {c : Char} (h : c ∈ ended ls) :
    c = '\n' ∨ ∃ line ∈ ls, c ∈ line := by
  obtain ⟨line, hl, m⟩ := List.mem_flatMap.mp h
  rcases List.mem_append.mp m with m | m
  · exact Or.inr ⟨line, hl, m⟩
  · exact Or.inl (List.mem_singleton.mp m)

/-! ## Beginnings and ends -/

theorem startsWith_eq_false {beginning t : Text} (h : ∀ rest, t ≠ beginning ++ rest) :
    startsWith beginning t = false := by
  rw [Bool.eq_false_iff, ne_eq, startsWith_iff]
  rintro ⟨rest, he⟩
  exact h rest he

/-- A beginning without a line feed is found on the first line, or not at all. -/
theorem startsWith_append_of_mem {beginning t : Text} (hb : '\n' ∉ beginning) (ht : '\n' ∈ t)
    (s : Text) : startsWith beginning (t ++ s) = startsWith beginning t := by
  unfold startsWith
  induction beginning generalizing t with
  | nil => rfl
  | cons b beginning ih =>
    cases t with
    | nil => exact absurd ht List.not_mem_nil
    | cons c t =>
      rw [List.cons_append, after?, after?]
      split
      · rename_i hbc
        rcases List.mem_cons.mp ht with hc | ht
        · exact absurd (List.mem_cons.mpr (Or.inl (hc.trans hbc.symm))) hb
        · exact ih (fun m => hb (List.mem_cons_of_mem _ m)) ht
      · rfl

/-- What comes after a beginning goes on as far as the text does, behind a character that is not in
it. -/
theorem after?_append_cons {beginning : Text} {d : Char} (h : d ∉ beginning) (t s : Text) :
    after? beginning (t ++ d :: s) = (after? beginning t).map (· ++ d :: s) := by
  induction beginning generalizing t with
  | nil => simp
  | cons b beginning ih =>
    have hd : b ≠ d := fun e => h (e ▸ List.mem_cons_self)
    cases t with
    | nil => simp [after?, hd]
    | cons c t =>
      rw [List.cons_append, after?, after?]
      split
      · exact ih (fun m => h (List.mem_cons_of_mem _ m)) t
      · rfl

/-- A beginning does not reach over a character that is not in it. -/
theorem startsWith_append_cons {beginning : Text} {d : Char} (h : d ∉ beginning) (t s : Text) :
    startsWith beginning (t ++ d :: s) = startsWith beginning t := by
  rw [startsWith, after?_append_cons h, Option.isSome_map]
  rfl

/-- Nor does it reach over the end of a text that is as long. -/
theorem startsWith_append_of_length {beginning t : Text} (h : beginning.length ≤ t.length)
    (s : Text) : startsWith beginning (t ++ s) = startsWith beginning t := by
  unfold startsWith
  induction beginning generalizing t with
  | nil => simp
  | cons b beginning ih =>
    cases t with
    | nil => exact absurd h (Nat.not_succ_le_zero _)
    | cons c t =>
      rw [List.cons_append, after?, after?]
      split
      · exact ih (Nat.le_of_succ_le_succ h)
      · rfl

theorem startsWith_cons_of_ne {b c : Char} (h : c ≠ b) (beginning t : Text) :
    startsWith (b :: beginning) (c :: t) = false := by
  rw [startsWith, after?, if_neg (Ne.symm h)]
  rfl

theorem head?_of_startsWith {b : Char} {beginning t : Text}
    (h : startsWith (b :: beginning) t = true) : t.head? = some b := by
  obtain ⟨rest, rfl⟩ := startsWith_iff.mp h
  rfl

/-- What comes after a beginning goes on as far as the text does. -/
theorem after?_append {beginning w : Text} (h : ∀ c ∈ w, c ∉ beginning) (t : Text) :
    after? beginning (t ++ w) = (after? beginning t).map (· ++ w) := by
  cases w with
  | nil => simp
  | cons c w => exact after?_append_cons (h c List.mem_cons_self) t w

/-- Where `p` fails on what is put at the end, it holds as long as before. -/
theorem takeWhile_append_of_neg {p : Char → Bool} {w : Text} (h : ∀ c ∈ w, p c = false) (t : Text) :
    (t ++ w).takeWhile p = t.takeWhile p := by
  induction t with
  | nil =>
    cases w with
    | nil => rfl
    | cons c w => rw [List.nil_append, List.takeWhile_cons, h c List.mem_cons_self]; rfl
  | cons d t ih => rw [List.cons_append, List.takeWhile_cons, List.takeWhile_cons, ih]

theorem dropWhile_append_of_neg {p : Char → Bool} {w : Text} (h : ∀ c ∈ w, p c = false) (t : Text) :
    (t ++ w).dropWhile p = t.dropWhile p ++ w := by
  induction t with
  | nil =>
    cases w with
    | nil => rfl
    | cons c w => rw [List.nil_append, List.dropWhile_cons, h c List.mem_cons_self]; rfl
  | cons d t ih =>
    rw [List.cons_append, List.dropWhile_cons, List.dropWhile_cons, ih]
    split <;> rfl

theorem endsWith_iff {ending t : Text} : endsWith ending t = true ↔ ∃ front, t = front ++ ending := by
  rw [endsWith, before?, Option.isSome_map, Option.isSome_iff_exists]
  constructor
  · rintro ⟨rest, found⟩
    refine ⟨rest.reverse, ?_⟩
    rw [← List.reverse_reverse t, after?_eq_some_iff.mp found, List.reverse_append,
      List.reverse_reverse]
  · rintro ⟨front, rfl⟩
    exact ⟨front.reverse, after?_eq_some_iff.mpr List.reverse_append⟩

/-- A text ends with what is put at its end. -/
theorem endsWith_append (ending t : Text) : endsWith ending (t ++ ending) = true :=
  endsWith_iff.mpr ⟨t, rfl⟩

/-! ## The first line -/

theorem firstLine_cons_of_ne {c : Char} (h : c ≠ '\n') (t : Text) :
    firstLine (c :: t) = c :: firstLine t := by
  rw [firstLine, List.takeWhile_cons_of_pos (by simpa using h)]
  rfl

theorem firstLine_lf (t : Text) : firstLine ('\n' :: t) = [] := rfl

theorem notMem_firstLine (t : Text) : '\n' ∉ firstLine t := by
  intro m
  have := List.mem_takeWhile_imp m
  simp at this

theorem firstLine_of_notMem {t : Text} (h : '\n' ∉ t) : firstLine t = t := by
  apply List.takeWhile_eq_self_iff.mpr
  intro c m
  have hc : c ≠ '\n' := fun e => h (e ▸ m)
  simpa using hc

theorem firstLine_append_lf {line : Text} (h : '\n' ∉ line) (t : Text) :
    firstLine (line ++ '\n' :: t) = line := by
  induction line with
  | nil => rfl
  | cons c line ih =>
    have hc : c ≠ '\n' := fun e => h (e ▸ List.mem_cons_self)
    rw [List.cons_append, firstLine_cons_of_ne hc, ih fun m => h (List.mem_cons_of_mem _ m)]

/-- A text with a line feed is its first line, the line feed, and the rest. -/
theorem exists_firstLine {t : Text} (h : '\n' ∈ t) : ∃ rest, t = firstLine t ++ '\n' :: rest := by
  obtain ⟨line, rest, rfl, hline⟩ := List.eq_append_cons_of_mem h
  exact ⟨rest, by rw [firstLine_append_lf hline]⟩

/-- What follows a line feed has no part in the first line. -/
theorem firstLine_append {t : Text} (h : '\n' ∈ t) (s : Text) :
    firstLine (t ++ s) = firstLine t := by
  obtain ⟨rest, ht⟩ := exists_firstLine h
  rw [ht, List.append_assoc, List.cons_append, firstLine_append_lf (notMem_firstLine t),
    firstLine_append_lf (notMem_firstLine t)]

/-- Nor has it where the line is looked at from its second character on. -/
theorem firstLine_tail_append {t : Text} (h : '\n' ∈ t) (first : t.head? ≠ some '\n') (s : Text) :
    firstLine (t ++ s).tail = firstLine t.tail := by
  cases t with
  | nil => exact absurd h List.not_mem_nil
  | cons c t =>
    rcases List.mem_cons.mp h with hc | h
    · exact absurd (by rw [hc]; rfl) first
    · exact firstLine_append h s

theorem firstLine_append_of_notMem {s : Text} (h : '\n' ∉ s) (t : Text) :
    firstLine (s ++ t) = s ++ firstLine t := by
  induction s with
  | nil => rfl
  | cons c s ih =>
    have hc : c ≠ '\n' := fun e => h (e ▸ List.mem_cons_self)
    rw [List.cons_append, firstLine_cons_of_ne hc, ih fun m => h (List.mem_cons_of_mem _ m),
      List.cons_append]

/-- A beginning without a line feed stands on the first line. -/
theorem length_le_firstLine {b c : Char} {beginning t : Text} (hb : '\n' ∉ beginning)
    (h : startsWith (b :: beginning) (c :: t) = true) :
    beginning.length ≤ (firstLine t).length := by
  obtain ⟨rest, ht⟩ := startsWith_iff.mp h
  have tail : t = beginning ++ rest := (List.cons.inj ht).2
  rw [tail, firstLine_append_of_notMem hb, List.length_append]
  exact Nat.le_add_right _ _

theorem length_firstLine_le (t : Text) : (firstLine t).length ≤ t.length :=
  (List.takeWhile_sublist _).length_le

theorem length_firstLine_lt {t : Text} (h : '\n' ∈ t) : (firstLine t).length < t.length := by
  obtain ⟨rest, ht⟩ := exists_firstLine h
  have := congrArg List.length ht
  rw [List.length_append, List.length_cons] at this
  omega

theorem take_firstLine (t : Text) : t.take (firstLine t).length = firstLine t := by
  calc t.take (firstLine t).length
      = (firstLine t ++ fromLineEnd t).take (firstLine t).length := by
        rw [firstLine_append_fromLineEnd]
    _ = firstLine t := List.take_left

/-- A text of whole lines: where it is not empty, a line feed is its last character. -/
def Whole (t : Text) : Prop := ∀ c, t.getLast? = some c → c = '\n'

theorem whole_of_getLast? {t : Text} (h : t.getLast? = some '\n') : Whole t :=
  fun _ hc => Option.some.inj (hc.symm.trans h)

theorem Whole.of_suffix {s t : Text} (h : Whole t) (suffix : s <:+ t) : Whole s := by
  obtain ⟨front, rfl⟩ := suffix
  intro c hc
  apply h
  rw [List.getLast?_append, hc, Option.some_or]

theorem Whole.mem {t : Text} (h : Whole t) (hne : t ≠ []) : '\n' ∈ t := by
  cases hl : t.getLast? with
  | none => exact absurd (List.getLast?_eq_none_iff.mp hl) hne
  | some c =>
    rw [← h c hl]
    exact List.mem_of_getLast? hl

theorem byteLength_append (s t : Text) : byteLength (s ++ t) = byteLength s + byteLength t := by
  induction s with
  | nil => rw [List.nil_append, byteLength, Nat.zero_add]
  | cons c s ih => rw [List.cons_append, byteLength, byteLength, ih, Nat.add_assoc]

/-! ## Trimming -/

theorem trimStart_of_head {t : Text} (h : ∀ c, t.head? = some c → isBlank c = false) :
    trimStart t = t := by
  cases t with
  | nil => rfl
  | cons c t => rw [trimStart, List.dropWhile_cons_of_neg]; simp [h c rfl]

theorem trimEnd_of_getLast {t : Text} (h : ∀ c, t.getLast? = some c → isBlank c = false) :
    trimEnd t = t := by
  have hr : t.reverse.dropWhile isBlank = t.reverse :=
    trimStart_of_head (fun c hc => h c (by rwa [List.head?_reverse] at hc))
  rw [trimEnd, trimEndWhile, hr, List.reverse_reverse]

/-- A text that begins and ends with no blank is trimmed already. -/
theorem trim_eq_self {t : Text} (first : ∀ c, t.head? = some c → isBlank c = false)
    (last : ∀ c, t.getLast? = some c → isBlank c = false) : trim t = t := by
  rw [trim, trimStart_of_head first, trimEnd_of_getLast last]

/-- A text between two characters that are no blanks is trimmed already. -/
theorem trim_enclosed {a b : Char} (ha : isBlank a = false) (hb : isBlank b = false) (t : Text) :
    trim (a :: t ++ [b]) = a :: t ++ [b] := by
  apply trim_eq_self
  · intro c h
    rwa [← Option.some.inj h]
  · intro c h
    rw [List.getLast?_append] at h
    rwa [← Option.some.inj h]

theorem head?_trimStart {t : Text} {c : Char} (h : (trimStart t).head? = some c) :
    isBlank c = false := by
  have := List.head?_dropWhile_not isBlank t
  rw [trimStart] at h
  rw [h] at this
  simpa using this

theorem trimEnd_isPrefix (t : Text) : trimEnd t <+: t := by
  rw [trimEnd, trimEndWhile, ← List.reverse_suffix, List.reverse_reverse]
  exact List.dropWhile_suffix _

theorem getLast?_trimEnd {t : Text} {c : Char} (h : (trimEnd t).getLast? = some c) :
    isBlank c = false := by
  rw [trimEnd, trimEndWhile, List.getLast?_reverse] at h
  exact head?_trimStart h

/-- What is trimmed begins with no blank. -/
theorem head?_trim {t : Text} {c : Char} (h : (trim t).head? = some c) : isBlank c = false := by
  refine head?_trimStart (t := t) ?_
  obtain ⟨rest, hrest⟩ := trimEnd_isPrefix (trimStart t)
  rw [trim] at h
  rw [← hrest, List.head?_append, h]
  rfl

/-- What is trimmed ends with no blank. -/
theorem getLast?_trim {t : Text} {c : Char} (h : (trim t).getLast? = some c) :
    isBlank c = false := getLast?_trimEnd h

theorem trim_trim (t : Text) : trim (trim t) = trim t :=
  trim_eq_self (fun _ => head?_trim) (fun _ => getLast?_trim)

theorem trimStart_append_blank {w : Text} (h : blank w = true) (t : Text) :
    trimStart (w ++ t) = trimStart t :=
  List.dropWhile_append_of_pos (List.all_eq_true.mp h)

theorem trim_cons_of_isBlank {c : Char} (h : isBlank c = true) (t : Text) :
    trim (c :: t) = trim t := by
  rw [trim, trimStart, List.dropWhile_cons_of_pos h]
  rfl

/-- What is dropped from both ends of a list is dropped as well when there is more of it at the
end. -/
theorem dropWhile_reverse_dropWhile_append {α : Type} {p : α → Bool} {w : List α}
    (h : ∀ x ∈ w, p x = true) (l : List α) :
    ((l ++ w).dropWhile p).reverse.dropWhile p = (l.dropWhile p).reverse.dropWhile p := by
  have hr : ∀ x ∈ w.reverse, p x = true := fun x m => h x (List.mem_reverse.mp m)
  rw [List.dropWhile_append]
  split
  · rename_i he
    have hw : w.dropWhile p = [] := List.dropWhile_eq_nil_iff.mpr h
    rw [List.isEmpty_iff.mp he, hw]
  · rw [List.reverse_append, List.dropWhile_append_of_pos hr]

/-- Blanks at the end of a text do not count. -/
theorem trim_append_blank {w : Text} (h : blank w = true) (t : Text) :
    trim (t ++ w) = trim t := by
  unfold trim trimEnd trimEndWhile trimStart
  rw [dropWhile_reverse_dropWhile_append (List.all_eq_true.mp h)]

theorem trim_sublist (t : Text) : (trim t).Sublist t :=
  (trimEnd_isPrefix _).sublist.trans (List.dropWhile_sublist _)

theorem mem_of_mem_trim {t : Text} {c : Char} (h : c ∈ trim t) : c ∈ t := (trim_sublist t).subset h

/-! ## Trimmed lines -/

/-- The lines of a text, trimmed, without the empty ones. -/
def trimmedLines (t : Text) : List Text := ((lines t).map trim).filter (· ≠ [])

theorem trimmedLines_append_lf (s t : Text) :
    trimmedLines (s ++ '\n' :: t) = trimmedLines s ++ trimmedLines t := by
  unfold trimmedLines
  rw [lines_append_lf, List.map_append, List.filter_append]

/-- **More text behind whole lines** brings its own lines. -/
theorem trimmedLines_append {a : Text} (whole : Whole a) (b : Text) :
    trimmedLines (a ++ b) = trimmedLines a ++ trimmedLines b := by
  rcases List.eq_nil_or_concat a with rfl | ⟨front, last, ha⟩
  · rfl
  · rw [List.concat_eq_append] at ha
    have hlast : last = '\n' := whole last (by rw [ha, List.getLast?_append]; rfl)
    rw [ha, hlast, List.append_assoc, List.singleton_append, trimmedLines_append_lf,
      trimmedLines_append_lf]
    show _ = trimmedLines front ++ [] ++ _
    rw [List.append_nil]

/-- A text with a line feed ends in the line behind the last one. -/
theorem exists_lastLine {t : Text} (h : '\n' ∈ t) :
    ∃ front line, t = front ++ '\n' :: line ∧ '\n' ∉ line := by
  obtain ⟨line, front, ht, hline⟩ := List.eq_append_cons_of_mem (List.mem_reverse.mpr h)
  refine ⟨front.reverse, line.reverse, ?_, fun m => hline (List.mem_reverse.mp m)⟩
  rw [← List.reverse_reverse t, ht, List.reverse_append, List.reverse_cons, List.append_assoc,
    List.singleton_append]

/-- Blanks at the end of the last line do not count. -/
theorem map_trim_lines_append {w : Text} (blank : blank w = true) (hw : '\n' ∉ w) (t : Text) :
    (lines (t ++ w)).map trim = (lines t).map trim := by
  by_cases h : '\n' ∈ t
  · obtain ⟨front, line, rfl, hline⟩ := exists_lastLine h
    have both : '\n' ∉ line ++ w := by
      rw [List.mem_append]
      exact fun m => m.elim hline hw
    rw [List.append_assoc, List.cons_append, lines_append_lf, lines_append_lf, lines_of_notMem both,
      lines_of_notMem hline, List.map_append, List.map_append, List.map_singleton,
      List.map_singleton, trim_append_blank blank]
  · have both : '\n' ∉ t ++ w := by
      rw [List.mem_append]
      exact fun m => m.elim h hw
    rw [lines_of_notMem both, lines_of_notMem h, List.map_singleton, List.map_singleton,
      trim_append_blank blank]

/-- Nor do blanks at the end of any line. -/
theorem trimmedLines_respaced {w : Text} (blank : blank w = true) (hw : '\n' ∉ w)
    (front back : Text) :
    trimmedLines (front ++ (w ++ '\n' :: back)) = trimmedLines (front ++ '\n' :: back) := by
  rw [← List.append_assoc, trimmedLines_append_lf, trimmedLines_append_lf, trimmedLines,
    map_trim_lines_append blank hw]
  rfl

end DoRunner.Text
