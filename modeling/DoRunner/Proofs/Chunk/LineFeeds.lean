import DoRunner.Proofs.Source.Segments

/-!
# Line feeds within statements

Under an explicit terminator line feeds are blanks, so a statement may be broken over lines anywhere
between two words, and what is sent is the same (`Analysis.body_lineFeed`). That holds up to one
place: in front of a star. Lines keep their starts under an explicit terminator, and a star at the
start of a line opens a comment that runs up to the terminator. So a star that multiplies on the line
of its statement opens a comment when the line is broken before it, and the rest of the statement is
no longer sent.
-/

namespace DoRunner

namespace Comments

/-! ## What is left of a segment -/

theorem starOpener?_indent {w : Text} (indent : w.all isIndent = true) (t : Text) :
    starOpener? (w ++ t) = (starOpener? t).map (w.length + ·) := by
  have all : ∀ c ∈ w, isIndent c = true := List.all_eq_true.mp indent
  rw [starOpener?_eq, starOpener?_eq, List.dropWhile_append_of_pos all,
    List.takeWhile_append_of_pos all, List.length_append]
  split
  · rfl
  · rfl

theorem notMem_lf_keptOf (start : Bool) (t : Text) : '\n' ∉ keptOf start t := by
  fun_induction keptOf start t with
  | case1 => exact List.not_mem_nil
  | case2 => exact List.not_mem_nil
  | case3 start c t noStar ih =>
    intro m
    rcases List.mem_cons.mp m with same | m
    · split at same
      · exact absurd same (by decide)
      · rename_i ne
        exact ne same.symm
    · exact ih m

/-- Whether a line starts behind the text, if one starts before it or not. -/
def startsBehind (start : Bool) (t : Text) : Bool := t.getLast?.elim start (· == '\n')

theorem startsBehind_cons (start : Bool) (c : Char) (t : Text) :
    startsBehind start (c :: t) = startsBehind (c == '\n') t := by
  cases t with
  | nil => rfl
  | cons d t => rw [startsBehind, startsBehind, List.getLast?_cons_cons]; rfl

/-- **More text behind a segment of which all is left** is kept as if it stood alone, where it makes
no star open a comment before it. -/
theorem keptOf_append {start : Bool} {s t : Text} (whole : (keptOf start s).length = s.length)
    (apart : ∀ x, x ≠ [] → x <:+ s → starOpener? x = none → starOpener? (x ++ t) = none) :
    keptOf start (s ++ t) = keptOf start s ++ keptOf (startsBehind start s) t := by
  induction s generalizing start with
  | nil => rfl
  | cons c s ih =>
    have noStar : ¬ (start && (starOpener? (c :: s)).isSome) = true := by
      intro star
      rw [keptOf, if_pos star] at whole
      exact absurd whole (by simp)
    rw [keptOf, if_neg noStar, List.length_cons, List.length_cons] at whole
    have noStar' : ¬ (start && (starOpener? (c :: s ++ t)).isSome) = true := by
      cases start with
      | false => exact Bool.false_ne_true
      | true =>
        rw [Bool.true_and, Option.isSome_iff_ne_none, ne_eq, not_not] at noStar ⊢
        exact apart _ (List.cons_ne_nil c s) List.suffix_rfl noStar
    have later := @ih (c == '\n') (Nat.succ.inj whole) fun x nonempty within =>
      apart x nonempty (within.trans (List.suffix_cons c s))
    rw [List.cons_append] at noStar' ⊢
    rw [keptOf, if_neg noStar', later, keptOf, if_neg noStar, startsBehind_cons]
    rfl

theorem solid_of_star {t : Text} (star : '*' ∈ t) : t.all isIndent = false :=
  Bool.eq_false_iff.mpr fun indent =>
    absurd (List.all_eq_true.mp indent '*' star) (by decide)

/-- A star in a segment hides what follows, whatever it is. -/
theorem keptOf_append_of_lt {start : Bool} {s : Text}
    (shorter : (keptOf start s).length < s.length) (t : Text) :
    keptOf start (s ++ t) = keptOf start s ∧ '*' ∈ s := by
  induction s generalizing start with
  | nil => exact absurd shorter (Nat.not_lt_zero _)
  | cons c s ih =>
    by_cases star : (start && (starOpener? (c :: s)).isSome) = true
    · obtain ⟨-, opens⟩ := Bool.and_eq_true_iff.mp star
      obtain ⟨more, opener⟩ := Option.isSome_iff_exists.mp opens
      have mem := star_mem_of_starOpener? opener
      have same := starOpener?_append_of_solid (solid_of_star mem) t
      rw [List.cons_append] at same ⊢
      rw [keptOf, keptOf, same, if_pos star, if_pos star]
      exact ⟨rfl, mem⟩
    · rw [keptOf, if_neg star, List.length_cons, List.length_cons] at shorter
      obtain ⟨later, mem⟩ := ih (Nat.lt_of_succ_lt_succ shorter)
      have mem' := List.mem_cons_of_mem c mem
      have same := starOpener?_append_of_solid (solid_of_star mem') t
      rw [List.cons_append] at same ⊢
      rw [keptOf, keptOf, same, if_neg star, if_neg star, later]
      exact ⟨rfl, mem'⟩

/-! ## A line feed in a segment -/

theorem keptOf_lf (start : Bool) (t : Text) : keptOf start ('\n' :: t) = ' ' :: keptOf true t := by
  have none : starOpener? ('\n' :: t) = none := starOpener?_line [] t
  rw [keptOf, none, Option.isSome_none, Bool.and_false, if_neg Bool.false_ne_true]
  rfl

theorem keptOf_of_noStar (start : Bool) {t : Text} (none : starOpener? t = none) :
    keptOf start t = keptOf false t := by
  cases t with
  | nil => rfl
  | cons c t => rw [keptOf, keptOf, none, Option.isSome_none, Bool.and_false, Bool.and_false]

theorem keptOf_space (start : Bool) {t : Text} (none : start = true → starOpener? t = none) :
    keptOf start (' ' :: t) = ' ' :: keptOf false t := by
  have noStar : ¬ (start && (starOpener? (' ' :: t)).isSome) = true := by
    intro star
    obtain ⟨begins, opens⟩ := Bool.and_eq_true_iff.mp star
    have indent := starOpener?_indent (w := [' ']) (by decide) t
    rw [List.singleton_append, none begins, Option.map_none] at indent
    rw [indent] at opens
    exact Bool.noConfusion opens
  rw [keptOf, if_neg noStar]
  rfl

/-- Away from the start of a line, a line is kept as it is. -/
theorem keptOf_line {line : Text} (oneLine : '\n' ∉ line) (t : Text) :
    keptOf false (line ++ t) = line ++ keptOf false t := by
  induction line with
  | nil => rfl
  | cons c line ih =>
    have hc : c ≠ '\n' := fun same => oneLine (same ▸ List.mem_cons_self)
    rw [List.cons_append, keptOf, Bool.false_and, if_neg Bool.false_ne_true, if_neg hc,
      beq_false_of_ne hc, ih fun m => oneLine (List.mem_cons_of_mem c m)]
    rfl

theorem length_keptOf_le (start : Bool) (s : Text) : (keptOf start s).length ≤ s.length := by
  fun_induction keptOf start s with
  | case1 => exact Nat.le_refl _
  | case2 => exact Nat.zero_le _
  | case3 start c t noStar ih => exact Nat.succ_le_succ ih

theorem whole_of_append {start : Bool} {s t : Text}
    (whole : (keptOf start (s ++ t)).length = (s ++ t).length) :
    (keptOf start s).length = s.length := by
  by_contra partial'
  have shorter := Nat.lt_of_le_of_ne (length_keptOf_le start s) partial'
  rw [(keptOf_append_of_lt shorter t).1, List.length_append] at whole
  omega

/-- Whether nothing but spaces and tabs stands on the last line of the text. -/
def onlyIndented (t : Text) : Bool := (t.reverse.dropWhile isIndent).head?.all (· == '\n')

/-- What is solid in a text is followed by spaces and tabs up to its end. -/
theorem exists_solid {s : Text} (ink : Text.blank s = false) :
    ∃ front c w, s = front ++ c :: w ∧ isIndent c = false ∧ w.all isIndent = true ∧
      ∀ before, onlyIndented (before ++ s) = (c == '\n') := by
  have split := List.takeWhile_append_dropWhile (p := isIndent) (l := s.reverse)
  cases left : s.reverse.dropWhile isIndent with
  | nil =>
    have indent := List.dropWhile_eq_nil_iff.mp left
    refine absurd (List.all_eq_true.mpr fun c m => ?_) (Bool.eq_false_iff.mp ink)
    exact isBlank_of_isIndent (indent c (List.mem_reverse.mpr m))
  | cons c front =>
    have nonempty : s.reverse.dropWhile isIndent ≠ [] := by
      rw [left]
      exact List.cons_ne_nil c front
    have solid : isIndent c = false := by
      have head := List.head_dropWhile_not isIndent nonempty
      simpa only [left, List.head_cons, Bool.not_eq_true] using head
    refine ⟨front.reverse, c, (s.reverse.takeWhile isIndent).reverse, ?_, solid, ?_, ?_⟩
    · rw [left] at split
      have reversed := congrArg List.reverse split
      rw [List.reverse_reverse, List.reverse_append, List.reverse_cons, List.append_assoc] at reversed
      exact reversed.symm
    · rw [List.all_reverse]
      exact List.all_eq_true.mpr fun c m => List.mem_takeWhile_imp m
    · intro before
      rw [onlyIndented, List.reverse_append, ← split, left, List.append_assoc,
        List.dropWhile_append_of_pos fun c m => List.mem_takeWhile_imp m, List.cons_append,
        List.dropWhile_cons_of_neg (by rw [solid]; exact Bool.false_ne_true)]
      rfl

section Feed

variable {start : Bool} {s : Text} (whole : (keptOf start s).length = s.length)

include whole

theorem keptOf_feed (t : Text) : keptOf start (s ++ '\n' :: t) = keptOf start s ++ ' ' :: keptOf true t := by
  rw [keptOf_append whole fun x _ _ none => by rw [starOpener?_line, none], keptOf_lf]

theorem keptOf_joined {t : Text} (none : starOpener? t = none) :
    keptOf start (s ++ ' ' :: t) = keptOf start s ++ ' ' :: keptOf false t := by
  have spaced : starOpener? (' ' :: t) = Option.none := by
    have indent := starOpener?_indent (w := [' ']) (by decide) t
    rwa [none] at indent
  rw [keptOf_append whole, keptOf_space _ fun _ => none]
  intro x nonempty _ noStar
  by_cases indent : x.all isIndent = true
  · rw [starOpener?_indent indent, spaced]
    rfl
  · rw [starOpener?_append_of_solid (Bool.eq_false_iff.mpr indent), noStar]

/-- On a line that has begun a star opens no comment. -/
theorem keptOf_joined_inside {front w : Text} {c : Char} (split : s = front ++ c :: w)
    (solid : isIndent c = false) (indent : w.all isIndent = true) (inside : c ≠ '\n') (t : Text) :
    keptOf start (s ++ ' ' :: t) = keptOf start s ++ ' ' :: keptOf false t := by
  subst split
  have oneLine : '\n' ∉ w := fun m => absurd (List.all_eq_true.mp indent _ m) (by decide)
  have split : front ++ c :: w = (front ++ [c]) ++ w := by simp
  rw [split] at whole ⊢
  have whole' := whole_of_append whole
  -- nothing behind `c` has a part in whether a star opens a comment before it
  have apart (more : Text) : ∀ x, x ≠ [] → x <:+ front ++ [c] → starOpener? x = none →
      starOpener? (x ++ more) = none := by
    intro x nonempty suffix noStar
    have mem : c ∈ x := by
      obtain ⟨before, joined⟩ := suffix
      have last := congrArg List.getLast? joined
      rw [List.getLast?_append, List.getLast?_concat] at last
      cases hx : x.getLast? with
      | none => exact absurd (List.getLast?_eq_none_iff.mp hx) nonempty
      | some d =>
        rw [hx, Option.some_or, Option.some_inj] at last
        rw [← last]
        exact List.mem_of_getLast? hx
    have solid' : x.all isIndent = false := Bool.eq_false_iff.mpr fun all =>
      absurd (List.all_eq_true.mp all c mem) (by rw [solid]; exact Bool.false_ne_true)
    rw [starOpener?_append_of_solid solid', noStar]
  have behind : startsBehind start (front ++ [c]) = false := by
    rw [startsBehind, List.getLast?_concat]
    exact beq_false_of_ne inside
  have alone := keptOf_line oneLine []
  rw [List.append_nil] at alone
  rw [List.append_assoc, keptOf_append whole' (apart _), keptOf_append whole' (apart _), behind,
    keptOf_line oneLine, keptOf_space _ fun begins => absurd begins Bool.false_ne_true, alone,
    keptOf, List.append_nil, List.append_assoc]

/-- At the start of a line it does, and nothing but blanks is lost if none stood there before. -/
theorem keptOf_joined_indent {front w : Text} (split : s = front ++ '\n' :: w)
    (indent : w.all isIndent = true) {t : Text} (star : starOpener? t ≠ none) :
    keptOf start s = keptOf start front ++ ' ' :: w ∧
      keptOf start (s ++ ' ' :: t) = keptOf start front ++ [' '] := by
  subst split
  have whole' := whole_of_append whole
  have oneLine : '\n' ∉ w := fun m => absurd (List.all_eq_true.mp indent _ m) (by decide)
  have noStar : starOpener? w = none := by
    have alone := starOpener?_indent indent []
    rwa [List.append_nil] at alone
  have alone := keptOf_line oneLine []
  rw [List.append_nil, keptOf, List.append_nil, ← keptOf_of_noStar true noStar] at alone
  refine ⟨by rw [keptOf_feed whole', alone], ?_⟩
  have opens : (starOpener? (w ++ ' ' :: t)).isSome = true := by
    have indent' : (w ++ [' ']).all isIndent = true := by
      rw [List.all_append, indent]
      rfl
    rw [← List.singleton_append, ← List.append_assoc, starOpener?_indent indent', Option.isSome_map]
    exact Option.isSome_iff_ne_none.mpr star
  have gone : keptOf true (w ++ ' ' :: t) = [] := by
    cases h : w ++ ' ' :: t with
    | nil => rfl
    | cons c rest => rw [keptOf, Bool.true_and, if_pos (by rw [← h]; exact opens)]
  rw [List.append_assoc, List.cons_append, keptOf_feed whole', gone]

end Feed

/-! ## What is sent of it -/

theorem filter_ink_trim (t : Text) :
    (Text.trim t).filter (fun c => !isBlank c) = t.filter fun c => !isBlank c := by
  have start (t : Text) : (t.dropWhile isBlank).filter (fun c => !isBlank c)
      = t.filter fun c => !isBlank c := by
    have blank : (t.takeWhile isBlank).filter (fun c => !isBlank c) = [] := by
      refine List.filter_eq_nil_iff.mpr fun c m => ?_
      rw [List.mem_takeWhile_imp m]
      decide
    have whole := congrArg (List.filter fun c => !isBlank c)
      (List.takeWhile_append_dropWhile (p := isBlank) (l := t))
    rwa [List.filter_append, blank] at whole
  rw [Text.trim, Text.trimEnd, Text.trimEndWhile, List.filter_reverse, start, List.filter_reverse,
    List.reverse_reverse, Text.trimStart, start]

theorem ne_nil_of_filter {t : Text} (ink : (t.filter fun c => !isBlank c) ≠ []) : Text.trim t ≠ [] := by
  intro gone
  rw [← filter_ink_trim, gone] at ink
  exact ink rfl

theorem filter_ne_nil {t : Text} (ink : Text.blank t = false) :
    (t.filter fun c => !isBlank c) ≠ [] := by
  intro none
  refine Bool.eq_false_iff.mp ink (List.all_eq_true.mpr fun c m => ?_)
  simpa using List.filter_eq_nil_iff.mp none c m

theorem blank_keptOf {start : Bool} {s : Text} (whole : (keptOf start s).length = s.length) :
    Text.blank (keptOf start s) = Text.blank s := by
  fun_induction keptOf start s with
  | case1 => rfl
  | case2 => exact absurd whole (by simp)
  | case3 start c t noStar ih =>
    have rest := ih (Nat.succ.inj whole)
    unfold Text.blank at rest ⊢
    rw [List.all_cons, List.all_cons, rest]
    split
    · rename_i lf
      rw [lf]
      rfl
    · rfl

theorem keptOf_of_star {t : Text} (star : starOpener? t ≠ none) :
    keptOf true t = [] ∧ '*' ∈ keptOf false t := by
  obtain ⟨more, opener⟩ := Option.ne_none_iff_exists'.mp star
  refine ⟨?_, ?_⟩
  · cases t with
    | nil => rfl
    | cons c t => rw [keptOf, opener, Option.isSome_some, Bool.and_true, if_pos rfl]
  · rw [starOpener?_eq] at opener
    have split := List.takeWhile_append_dropWhile (p := isIndent) (l := t)
    cases left : t.dropWhile isIndent with
    | nil => rw [left] at opener; exact absurd opener (by simp)
    | cons c rest =>
      rw [left] at opener split
      have same : c = '*' := by
        by_contra other
        exact absurd opener (by simp [other])
      have oneLine : '\n' ∉ t.takeWhile isIndent ++ ['*'] := by
        intro m
        rcases List.mem_append.mp m with m | m
        · exact absurd (List.mem_takeWhile_imp m) (by decide)
        · exact absurd m (by decide)
      rw [same, ← List.singleton_append, ← List.append_assoc] at split
      rw [← split, keptOf_line oneLine]
      simp

section Sent

variable (start : Bool) {before s t : Text} (ink : Text.blank s = false)

include ink

/-- **The line feed is as good as a blank** where no star follows it, where no more than spaces and
tabs stand before it on its line, and where a star comment is open already. -/
theorem trim_joined (harmless : starOpener? t = none ∨ onlyIndented (before ++ s) = true ∨
      (keptOf start s).length ≠ s.length) :
    Text.trim (keptOf start (s ++ ' ' :: t)) = Text.trim (keptOf start (s ++ '\n' :: t)) := by
  by_cases whole : (keptOf start s).length = s.length
  · by_cases none : starOpener? t = none
    · rw [keptOf_joined whole none, keptOf_feed whole, keptOf_of_noStar true none]
    · obtain ⟨front, c, w, split, solid, indent, last⟩ := exists_solid ink
      have lf : c = '\n' := by
        rcases harmless with noStar | indented | partial'
        · exact absurd noStar none
        · exact beq_iff_eq.mp ((last before).symm.trans indented)
        · exact absurd whole partial'
      subst lf
      obtain ⟨kept, joined⟩ := keptOf_joined_indent whole split indent none
      have blank : Text.blank (w ++ [' ']) = true := by
        rw [Text.blank_append, Bool.and_eq_true]
        refine ⟨List.all_eq_true.mpr fun c m => ?_, rfl⟩
        exact isBlank_of_isIndent (List.all_eq_true.mp indent c m)
      have fed : keptOf start (s ++ '\n' :: t) = keptOf start front ++ [' '] ++ (w ++ [' ']) := by
        rw [keptOf_feed whole, (keptOf_of_star none).1, kept]
        simp
      rw [joined, fed, Text.trim_append_blank blank]
  · have shorter := Nat.lt_of_le_of_ne (length_keptOf_le start s) whole
    rw [(keptOf_append_of_lt shorter _).1, (keptOf_append_of_lt shorter _).1]

/-- **Otherwise something is lost.** -/
theorem trim_joined_ne (star : starOpener? t ≠ none) (inside : onlyIndented (before ++ s) = false)
    (whole : (keptOf start s).length = s.length) :
    Text.trim (keptOf start (s ++ ' ' :: t)) ≠ [] ∧ Text.trim (keptOf start (s ++ '\n' :: t)) ≠ [] ∧
      Text.trim (keptOf start (s ++ ' ' :: t)) ≠ Text.trim (keptOf start (s ++ '\n' :: t)) := by
  obtain ⟨front, c, w, split, solid, indent, last⟩ := exists_solid ink
  have notLf : c ≠ '\n' := by
    rintro rfl
    exact absurd ((last before).symm.trans inside) (by decide)
  have joined := keptOf_joined_inside whole split solid indent notLf t
  have fed := keptOf_feed whole t
  rw [(keptOf_of_star star).1] at fed
  have kept : ((keptOf start s).filter fun c => !isBlank c) ≠ [] :=
    filter_ne_nil (by rw [blank_keptOf whole]; exact ink)
  refine ⟨?_, ?_, fun same => ?_⟩
  · refine ne_nil_of_filter ?_
    rw [joined, List.filter_append]
    exact fun none => kept (List.append_eq_nil_iff.mp none).1
  · refine ne_nil_of_filter ?_
    rw [fed, List.filter_append]
    exact fun none => kept (List.append_eq_nil_iff.mp none).1
  · -- the star is ink that only one of them has
    have counts := congrArg (List.filter fun c => !isBlank c) same
    rw [filter_ink_trim, filter_ink_trim, joined, fed, List.filter_append, List.filter_append,
      List.append_cancel_left_eq] at counts
    have mem : '*' ∈ (' ' :: keptOf false t).filter fun c => !isBlank c :=
      List.mem_filter.mpr ⟨List.mem_cons_of_mem _ (keptOf_of_star star).2, by decide⟩
    rw [counts] at mem
    exact absurd mem (by decide)

end Sent

end Comments

/-! ## Texts cut at semicolons -/

namespace Comments

/-- Only the first segment of what follows has a part in whether a star opens a comment there. -/
theorem starOpener?_splitAt {t first : Text} {back : List Text}
    (parts : Text.splitAt ';' t = first :: back) : starOpener? t = starOpener? first := by
  by_cases semicolon : ';' ∈ t
  · obtain ⟨segment, more, rfl, within⟩ := List.eq_append_cons_of_mem semicolon
    rw [Text.splitAt_append_mark, Text.splitAt_of_notMem within, List.singleton_append] at parts
    rw [starOpener?_segment (.inr rfl), (List.cons.inj parts).1]
  · rw [Text.splitAt_of_notMem semicolon] at parts
    rw [(List.cons.inj parts).1]

theorem notMem_lf_keptSegments {start : Bool} {segments : List Text} {line : Text}
    (m : line ∈ keptSegments start segments) : '\n' ∉ line := by
  induction segments generalizing start with
  | nil => exact absurd m List.not_mem_nil
  | cons segment segments ih =>
    rcases List.mem_cons.mp m with rfl | m
    · exact notMem_lf_keptOf start segment
    · exact ih m

theorem Unmarked.insert {u v : Text} (h : Unmarked (u ++ v)) {d : Char} (quote : d ≠ '"')
    (slash : d ≠ '/') (hash : d ≠ '#') : Unmarked (u ++ d :: v) := by
  have absent {c : Char} (missing : c ∉ u ++ v) (other : d ≠ c) : c ∉ u ++ d :: v := by
    rw [List.mem_append, not_or] at missing
    rw [List.mem_append, List.mem_cons, not_or, not_or]
    exact ⟨missing.1, other.symm, missing.2⟩
  exact ⟨absent h.noQuote quote, absent h.noSlash slash, absent h.noHash hash⟩

end Comments

theorem AssemblySettings.head?_linesOf (settings : AssemblySettings) (line : Text)
    (more : List Text) : (settings.linesOf line ++ more).head? = some line := by
  unfold AssemblySettings.linesOf
  split <;> rfl

namespace Analysis

open Comments

section Body

variable (settings : AssemblySettings) (context : SessionContext)

/-- **The body of a text under semicolons:** a line for each of its segments. -/
theorem body_segments {code : Text} (unmarked : Unmarked (normalizeNewlines code)) :
    (assemble (ofCode code .semicolon) settings context).1.body
      = (((keptSegments true (Text.splitAt ';' (normalizeNewlines code))).map Text.trim).filter
          (· ≠ [])).flatMap settings.linesOf := by
  obtain ⟨statements, -⟩ := run_segments (s := .initial .semicolon) rfl rfl unmarked
  have clean : (ofCode code .semicolon).cleanText
      = Text.unlines (keptSegments true (Text.splitAt ';' (normalizeNewlines code))) := statements
  have nonempty : keptSegments true (Text.splitAt ';' (normalizeNewlines code)) ≠ [] := by
    cases parts : Text.splitAt ';' (normalizeNewlines code) with
    | nil => exact absurd parts (Text.splitAt_ne_nil _ _)
    | cons first back => exact List.cons_ne_nil _ _
  rw [body_assemble, clean, Text.trimmedLines,
    Text.lines_unlines nonempty fun line m => notMem_lf_keptSegments m]

/-- The part of the body that one segment is has nothing to do with the others. -/
theorem body_segment {code : Text} (unmarked : Unmarked (normalizeNewlines code))
    {front back : List Text} {segment : Text}
    (parts : Text.splitAt ';' (normalizeNewlines code) = front ++ segment :: back) :
    (assemble (ofCode code .semicolon) settings context).1.body
      = (((keptSegments true front).map Text.trim).filter (· ≠ [])).flatMap settings.linesOf ++
        (([Text.trim (keptOf front.isEmpty segment)].filter (· ≠ [])).flatMap settings.linesOf ++
          (((keptSegments false back).map Text.trim).filter (· ≠ [])).flatMap settings.linesOf) := by
  rw [body_segments settings context unmarked, parts, keptSegments_append, Bool.true_and,
    List.map_append, List.map_cons, ← List.singleton_append, List.filter_append, List.filter_append,
    List.flatMap_append, List.flatMap_append]

/-- **A line feed within a statement is as good as a blank,** unless a star follows it on its line
that would multiply behind a blank: then the statement loses all from that star on. -/
theorem body_lineFeed {code code' u v : Text} (scanned : normalizeNewlines code = u ++ '\n' :: v)
    (scanned' : normalizeNewlines code' = u ++ ' ' :: v) (unmarked : Unmarked (u ++ v))
    (inside : Text.blank (Text.lastPart ';' u) = false) :
    (assemble (ofCode code' .semicolon) settings context).1.body
        = (assemble (ofCode code .semicolon) settings context).1.body ↔
      starOpener? v = none ∨ onlyIndented u = true ∨
        (run (.initial .semicolon) u).modes ≠ .atRoot := by
  let front := (Text.splitAt ';' u).dropLast
  let s := Text.lastPart ';' u
  have parts : Text.splitAt ';' u = front ++ [s] := Text.splitAt_lastPart ';' u
  obtain ⟨first, back, behind⟩ := List.exists_cons_of_ne_nil (Text.splitAt_ne_nil ';' v)
  obtain ⟨⟨before, split, -⟩, joined⟩ := Text.splitAt_append parts
  have cut {d : Char} (hd : d ≠ ';') :
      Text.splitAt ';' (u ++ d :: v) = front ++ (s ++ d :: first) :: back := by
    refine joined ?_
    rw [Text.splitAt, if_neg hd, behind]
  have body := @body_segment settings context code
    (by rw [scanned]; exact unmarked.insert (by decide) (by decide) (by decide)) front back _
    (by rw [scanned]; exact cut (by decide))
  have body' := @body_segment settings context code'
    (by rw [scanned']; exact unmarked.insert (by decide) (by decide) (by decide)) front back _
    (by rw [scanned']; exact cut (by decide))
  have open' : (run (.initial .semicolon) u).modes = .atRoot
      ↔ (keptOf front.isEmpty s).length = s.length := by
    have modes := (run_segments (s := .initial .semicolon) (t := u) rfl rfl
      (unmarked.of_subset (List.subset_append_left u v))).2
    rw [parts, entire_append] at modes
    exact modes
  rw [body, body', starOpener?_splitAt behind, ne_eq, open']
  by_cases harmless : starOpener? first = none ∨ onlyIndented u = true ∨
      ¬ (keptOf front.isEmpty s).length = s.length
  · refine iff_of_true ?_ harmless
    rw [split] at harmless
    rw [trim_joined front.isEmpty inside harmless]
  · refine iff_of_false (fun same => ?_) harmless
    obtain ⟨star, indented, whole⟩ : starOpener? first ≠ none ∧ onlyIndented u = false ∧
        (keptOf front.isEmpty s).length = s.length := by
      simpa [not_or] using harmless
    rw [split] at indented
    obtain ⟨left, left', differ⟩ := trim_joined_ne front.isEmpty inside star indented whole
    rw [List.append_cancel_left_eq, List.filter_cons_of_pos (by simpa using left),
      List.filter_cons_of_pos (by simpa using left'), List.filter_nil, List.flatMap_singleton,
      List.flatMap_singleton] at same
    -- the statement itself is the first of its lines
    have first := congrArg List.head? same
    rw [AssemblySettings.head?_linesOf, AssemblySettings.head?_linesOf] at first
    exact differ (Option.some.inj first)

end Body

/-- A sum broken before its second term. -/
theorem body_lineFeed_sum :
    (assemble (ofCode "gen y = x + 2;".toList .semicolon) (.default ⟨"c".toList⟩) .initial).1.body
      = (assemble (ofCode "gen y = x\n+ 2;".toList .semicolon) (.default ⟨"c".toList⟩)
          .initial).1.body :=
  (body_lineFeed (.default ⟨"c".toList⟩) .initial (u := "gen y = x".toList) (v := "+ 2;".toList)
    (by decide) (by decide) ⟨by decide, by decide, by decide⟩ (by decide)).mpr (.inl (by decide))

/-- **A product broken before its star loses its second factor.** -/
theorem body_lineFeed_product :
    (assemble (ofCode "gen y = x * 2;".toList .semicolon) (.default ⟨"c".toList⟩) .initial).1.body
        = ["gen y = x * 2".toList] ∧
      (assemble (ofCode "gen y = x\n* 2;".toList .semicolon) (.default ⟨"c".toList⟩)
          .initial).1.body = ["gen y = x".toList] := by
  decide +kernel

end Analysis

end DoRunner
