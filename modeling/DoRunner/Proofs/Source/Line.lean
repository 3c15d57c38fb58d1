import DoRunner.Proofs.Text.Lines
import DoRunner.Source.Line

/-!
# Blanks at the end of a line

What a physical line says does not depend on the blanks that end it: its words are found from its
start, and where something must follow a word, a blank at the end is as good as the end. A line of
nothing but blanks says nothing.
-/

namespace DoRunner

/-! ## Blanks -/

/-- The code points of blanks. -/
def blankCodes : List Nat :=
  [0x09, 0x0A, 0x0B, 0x0C, 0x0D, 0x20, 0x85, 0xA0, 0x1680, 0x2000, 0x2001, 0x2002, 0x2003, 0x2004,
   0x2005, 0x2006, 0x2007, 0x2008, 0x2009, 0x200A, 0x2028, 0x2029, 0x202F, 0x205F, 0x3000]

theorem toNat_mem_blankCodes {c : Char} (h : isBlank c = true) : c.toNat ∈ blankCodes := by
  unfold isBlank at h
  simp only [Bool.or_eq_true, Bool.and_eq_true, beq_iff_eq, decide_eq_true_eq] at h
  simp only [blankCodes, List.mem_cons, List.not_mem_nil, or_false]
  omega

/-- No blank goes on with a word. -/
theorem isWord_of_isBlank {c : Char} (h : isBlank c = true) : isWord c = false := by
  have none : ∀ n ∈ blankCodes, isWord (Char.ofNat n) = false := by decide +kernel
  rw [← Char.ofNat_toNat c]
  exact none _ (toNat_mem_blankCodes h)

namespace Text

theorem blank_append (s t : Text) : blank (s ++ t) = (blank s && blank t) := List.all_append

theorem isBlank_of_blank {w : Text} (h : blank w = true) : ∀ c ∈ w, isBlank c = true :=
  List.all_eq_true.mp h

theorem blank_of_suffix {v w : Text} (suffix : v <:+ w) (h : blank w = true) : blank v = true :=
  List.all_eq_true.mpr fun c m => isBlank_of_blank h c (suffix.subset m)

theorem blank_firstLine {w : Text} (h : blank w = true) : blank (firstLine w) = true :=
  List.all_eq_true.mpr fun c m => isBlank_of_blank h c ((List.takeWhile_sublist _).subset m)

/-- Whether no character of the text is blank. -/
def solid (t : Text) : Bool := t.all fun c => !isBlank c

/-- Blanks and a word have nothing in common. -/
theorem notMem_of_isBlank {c : Char} {word : Text} (hc : isBlank c = true)
    (h : solid word = true) : c ∉ word := by
  intro m
  have ink := List.all_eq_true.mp h c m
  rw [hc] at ink
  exact absurd ink (by decide)

theorem notMem_of_blank {w word : Text} (hw : blank w = true) (h : solid word = true) :
    ∀ c ∈ w, c ∉ word :=
  fun c m => notMem_of_isBlank (isBlank_of_blank hw c m) h

/-- A text that begins with a blank begins with no word. -/
theorem startsWith_of_isBlank {b c : Char} (hb : isBlank b = false) (hc : isBlank c = true)
    (beginning t : Text) : startsWith (b :: beginning) (c :: t) = false := by
  apply startsWith_cons_of_ne
  rintro rfl
  exact absurd (hc.symm.trans hb) (by decide)

theorem head?_of_isBlank {b c : Char} (hb : isBlank b = false) (hc : isBlank c = true) (t : Text) :
    (c :: t).head? ≠ some b := by
  rintro ⟨⟩
  exact absurd (hc.symm.trans hb) (by decide)

theorem trimStart_of_blank {t : Text} (h : blank t = true) : trimStart t = [] :=
  List.dropWhile_eq_nil_iff.mpr (isBlank_of_blank h)

theorem trimStart_append_of_not_blank {t : Text} (h : blank t = false) (s : Text) :
    trimStart (t ++ s) = trimStart t ++ s := by
  induction t with
  | nil => exact absurd h (by decide)
  | cons c t ih =>
    rw [trimStart, trimStart, List.cons_append, List.dropWhile_cons, List.dropWhile_cons]
    by_cases hc : isBlank c = true
    · rw [if_pos hc, if_pos hc]
      apply ih
      rw [blank, List.all_cons, hc, Bool.true_and] at h
      exact h
    · rw [if_neg hc, if_neg hc]
      rfl

end Text

namespace Line

theorem skipLetters_append_cons {word : Text} {d : Char} (h : d ∉ word) (t s : Text) :
    skipLetters word (t ++ d :: s) = skipLetters word t ++ d :: s := by
  induction word generalizing t with
  | nil => rfl
  | cons b word ih =>
    have hd : b ≠ d := fun e => h (e ▸ List.mem_cons_self)
    cases t with
    | nil => simp [skipLetters, hd]
    | cons c t =>
      rw [List.cons_append, skipLetters, skipLetters]
      split
      · exact ih (fun m => h (List.mem_cons_of_mem _ m)) t
      · rfl

theorem skipLetters_append {word w : Text} (h : ∀ c ∈ w, c ∉ word) (t : Text) :
    skipLetters word (t ++ w) = skipLetters word t ++ w := by
  cases w with
  | nil => rw [List.append_nil, List.append_nil]
  | cons c w => exact skipLetters_append_cons (h c List.mem_cons_self) t w

/-- The word after spaces is the same whatever is put at the end that belongs to no word. -/
theorem takeWhile_dropWhile_append {p q : Char → Bool} {w : Text} (h : ∀ c ∈ w, p c = false) (t : Text) :
    ((t ++ w).dropWhile q).takeWhile p = (t.dropWhile q).takeWhile p := by
  induction t with
  | nil =>
    have first : ∀ c ∈ w.dropWhile q, p c = false := fun c m =>
      h c ((List.dropWhile_sublist q).subset m)
    cases hd : w.dropWhile q with
    | nil => rw [List.nil_append, hd]; rfl
    | cons c rest =>
      rw [hd] at first
      rw [List.nil_append, hd, List.takeWhile_cons, first c List.mem_cons_self]
      rfl
  | cons c t ih =>
    rw [List.cons_append, List.dropWhile_cons, List.dropWhile_cons]
    split
    · exact ih
    · rw [← List.cons_append, Text.takeWhile_append_of_neg h]

/-! ## Blanks that end a line -/

section Blanks

variable {w : Text} (hw : Text.blank w = true)

include hw

/-- A word is found at the start of a line whatever blanks end the line. -/
theorem after?_trimStart_append (word : Text) (hne : word ≠ []) (h : Text.solid word = true)
    (t : Text) :
    Text.after? word (Text.trimStart (t ++ w))
      = (Text.after? word (Text.trimStart t)).map (· ++ w) := by
  by_cases ht : Text.blank t = true
  · have both : Text.blank (t ++ w) = true := by rw [Text.blank_append, ht, hw]; rfl
    rw [Text.trimStart_of_blank both, Text.trimStart_of_blank ht]
    cases word with
    | nil => exact absurd rfl hne
    | cons b word => rfl
  · rw [Text.trimStart_append_of_not_blank (Bool.eq_false_iff.mpr ht)]
    exact Text.after?_append (Text.notMem_of_blank hw h) _

theorem wordEnds_append (t : Text) : wordEnds (t ++ w) = wordEnds t := by
  cases t with
  | cons c t => rfl
  | nil =>
    cases w with
    | nil => rfl
    | cons c w =>
      have hc := isWord_of_isBlank (Text.isBlank_of_blank hw c List.mem_cons_self)
      show (!isWord c) = true
      rw [hc]
      rfl

theorem closesBlock_append (line : Text) : closesBlock (line ++ w) = closesBlock line := by
  have found := after?_trimStart_append hw "end".toList (by decide) (by decide) line
  unfold closesBlock
  rw [found]
  cases Text.after? "end".toList (Text.trimStart line) with
  | none => rfl
  | some rest =>
    have point : (rest ++ w).head? != some '.' ↔ rest.head? != some '.' := by
      cases rest with
      | cons c rest => rfl
      | nil =>
        cases w with
        | nil => rfl
        | cons c w =>
          have hc := Text.isBlank_of_blank hw c List.mem_cons_self
          have hne : c ≠ '.' := by
            rintro rfl
            exact absurd hc (by decide)
          simp [hne]
    dsimp only [Option.map_some]
    rw [wordEnds_append hw, Bool.eq_iff_iff, Bool.and_eq_true, Bool.and_eq_true, point]

theorem opensMata_append (line : Text) : opensMata (line ++ w) = opensMata line := by
  have found := after?_trimStart_append hw "mata".toList (by decide) (by decide) line
  unfold opensMata
  rw [found]
  cases Text.after? "mata".toList (Text.trimStart line) with
  | none => rfl
  | some rest =>
    dsimp only [Option.map_some]
    by_cases hr : Text.blank rest = true
    · have both : Text.blank (rest ++ w) = true := by rw [Text.blank_append, hr, hw]; rfl
      rw [Text.trimStart_of_blank both, Text.trimStart_of_blank hr]
    · rw [Text.trimStart_append_of_not_blank (Bool.eq_false_iff.mpr hr)]
      cases ht : Text.trimStart rest with
      | nil =>
        have gone := List.dropWhile_eq_nil_iff.mp ht
        exact absurd (List.all_eq_true.mpr gone) hr
      | cons c more =>
        by_cases hc : c = ':'
        · subst hc
          show Text.blank (more ++ w) = Text.blank more
          rw [Text.blank_append, hw, Bool.and_true]
        · have plain : Text.blank (c :: more ++ w) = Text.blank (c :: more) := by
            rw [Text.blank_append, hw, Bool.and_true]
          simpa [hc] using plain

theorem opensInput_append (line : Text) : opensInput (line ++ w) = opensInput line := by
  have found := after?_trimStart_append hw "inp".toList (by decide) (by decide) line
  unfold opensInput
  rw [found]
  cases Text.after? "inp".toList (Text.trimStart line) with
  | none => rfl
  | some rest =>
    dsimp only [Option.map_some]
    rw [skipLetters_append (Text.notMem_of_blank hw (by decide)), wordEnds_append hw]

theorem programWord?_append (line : Text) : programWord? (line ++ w) = programWord? line := by
  have found := after?_trimStart_append hw "pr".toList (by decide) (by decide) line
  unfold programWord?
  rw [found]
  cases Text.after? "pr".toList (Text.trimStart line) with
  | none => rfl
  | some rest =>
    dsimp only [Option.map_some]
    rw [skipLetters_append (Text.notMem_of_blank hw (by decide))]
    generalize skipLetters "ogram".toList rest = after
    have ends : ∀ c ∈ w, (!isBlank c) = false := by
      intro c m
      rw [Text.isBlank_of_blank hw c m]
      rfl
    rw [takeWhile_dropWhile_append ends]
    cases after with
    | cons c after => rfl
    | nil => simp

/-- **Blanks at its end do not change which block a line opens.** -/
theorem opensEndBlock_append (line : Text) : opensEndBlock (line ++ w) = opensEndBlock line := by
  unfold opensEndBlock
  rw [programWord?_append hw, opensInput_append hw, opensMata_append hw]

/-- **Blanks at its end do not change which directive a line is.** -/
theorem directive?_append (line : Text) : directive? (line ++ w) = directive? line := by
  have word : afterDelimit? (line ++ w) = (afterDelimit? line).map (· ++ w) := by
    rw [afterDelimit?, after?_trimStart_append hw "#d".toList (by decide) (by decide), afterDelimit?]
    cases Text.after? "#d".toList (Text.trimStart line) with
    | none => rfl
    | some rest =>
      exact congrArg some (skipLetters_append (Text.notMem_of_blank hw (by decide)) rest)
  unfold directive?
  rw [word]
  cases afterDelimit? line with
  | none => rfl
  | some rest =>
    dsimp only [Option.map_some]
    rw [after?_trimStart_append hw [';'] (by decide) (by decide),
      after?_trimStart_append hw "cr".toList (by decide) (by decide)]
    cases Text.after? [';'] (Text.trimStart rest) with
    | some more =>
      dsimp only [Option.map_some]
      rw [Text.blank_append, hw, Bool.and_true]
    | none =>
      dsimp only [Option.map_none]
      cases rest with
      | nil => rfl
      | cons c rest =>
        cases Text.after? "cr".toList (Text.trimStart (c :: rest)) with
        | none => rfl
        | some more =>
          dsimp only [Option.map_some]
          rw [Text.blank_append, hw, Bool.and_true]
          rfl

/-! ## Lines of blanks -/

theorem closesBlock_of_blank : closesBlock w = false := closesBlock_append hw []

theorem opensEndBlock_of_blank : opensEndBlock w = false := opensEndBlock_append hw []

theorem directive?_of_blank : directive? w = none := by
  rw [directive?, afterDelimit?, Text.trimStart_of_blank hw]
  rfl

end Blanks

end Line

end DoRunner
