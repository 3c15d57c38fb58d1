import DoRunner.Proofs.Source.CommentPass

/-!
# Behind a terminator

Under an explicit terminator one thing is remembered from line to line: the last character that is
no blank. It is asked for where a line comment opens without indentation, which it may do only
behind a terminator. Nothing stands before a buffer, so two slashes at the very start of its first
line are statement text, and the same slashes behind a terminator open a comment.

That is the only difference. As soon as anything but a blank has been read, what stands before is
forgotten (`run_beside`).
-/

namespace DoRunner

/-- Whether, after blank lines, the text begins with two slashes at the very start of a line, and
not with three. -/
def Text.beginsWithNote (t : Text) : Bool :=
  startsWith "//".toList (trimStart t) && !startsWith "///".toList (trimStart t) &&
    (t.takeWhile isBlank).getLast?.all (· == '\n')

theorem Text.takeWhile_blank_append {w : Text} (blank : Text.blank w = true) {t : Text}
    (ink : ∀ c, t.head? = some c → isBlank c = false) : (w ++ t).takeWhile isBlank = w := by
  rw [List.takeWhile_append_of_pos (Text.isBlank_of_blank blank)]
  cases t with
  | nil => exact List.append_nil w
  | cons c t => rw [List.takeWhile_cons_of_neg (by simp [ink c rfl]), List.append_nil]

namespace Past

/-! ## A past of blanks -/

theorem head?_of_text {marks : Past} {c : Char} (h : (text marks).getLast? = some c) :
    marks.head?.map (·.char) = some c := by
  rwa [text, List.getLast?_reverse, List.head?_map] at h

theorem blank_text {marks : Past} :
    Text.blank (text marks) = marks.all fun mark => isBlank mark.char := by
  rw [text, Text.blank, List.all_reverse, List.all_map]
  rfl

section Blank

variable {marks : Past} (blank : Text.blank (text marks) = true)

include blank

theorem isBlank_of_mem {mark : Mark} (m : mark ∈ marks) : isBlank mark.char = true := by
  rw [blank_text] at blank
  exact List.all_eq_true.mp blank mark m

theorem afterBlank_of_blank : marks.afterBlank = true := by
  cases marks with
  | nil => rfl
  | cons mark marks => exact isBlank_of_mem blank List.mem_cons_self

/-- Blanks that do not end in a line feed indent the line. -/
theorem indented_of_blank {c : Char} (last : (text marks).getLast? = some c) (hc : c ≠ '\n') :
    marks.indented = true := by
  have inside : marks.atLineStart = false := by
    have head := head?_of_text last
    cases marks with
    | nil => exact absurd head (by simp)
    | cons mark marks =>
      have char : mark.char = c := Option.some.inj head
      simpa [atLineStart, char] using hc
  have spaces : marks.blankSoFar = true := by
    apply List.all_eq_true.mpr
    intro mark m
    exact isBlank_of_mem blank ((List.takeWhile_sublist _).subset m)
  show (!marks.atLineStart && marks.blankSoFar) = true
  rw [inside, spaces]
  rfl

end Blank

end Past

namespace Comments

/-! ## Before the first ink -/

section Border

variable {q : Past} {n : Nat} {marks : Past} {s s' : State} (alike : Past.Alike [] q)
  (length : Text.byteLength q.text = n)

/-- **Where nothing but blanks has been read,** the same comments open, except for a line comment
without indentation. -/
theorem slashesAgree_of_blank (modes : s'.modes = s.modes) (past : s.past = marks)
    (answers : Past.Alike s.past s'.past) (blank : Text.blank (Past.text marks) = true) {rest : Text}
    (apart : Text.beginsWithNote (Past.text marks ++ rest) = false) : SlashesAgree s s' rest := by
  intro terminator _
  rw [slashComment?_eq, slashComment?_eq, answers.afterBlank, modes, past,
    Past.afterBlank_of_blank blank]
  by_cases three : Text.startsWith "///".toList rest = true
  · -- three slashes go on with the next line, whatever stands before them
    rw [if_pos three, if_pos three]
    rfl
  by_cases two : Text.startsWith "//".toList rest = true
  · rw [if_neg three, if_neg three, if_pos two, if_pos two]
    have first : rest.head? = some '/' := Text.head?_of_startsWith two
    have ink : ∀ c, rest.head? = some c → isBlank c = false := by
      intro c hc
      rw [first] at hc
      rw [← Option.some.inj hc]
      decide
    rw [Text.beginsWithNote, Text.trimStart_append_blank blank, Text.trimStart_of_head ink, two,
      Bool.eq_false_iff.mpr three, Text.takeWhile_blank_append blank ink] at apart
    -- the slashes are indented, so that a comment opens in any case
    obtain ⟨c, last, hc⟩ : ∃ c, (Past.text marks).getLast? = some c ∧ c ≠ '\n' := by
      cases hl : (Past.text marks).getLast? with
      | none =>
        rw [hl] at apart
        exact absurd apart (by decide)
      | some c =>
        refine ⟨c, rfl, ?_⟩
        rintro rfl
        rw [hl] at apart
        exact absurd apart (by decide)
    have indented := Past.indented_of_blank blank last hc
    have indented' : s'.past.indented = true := by
      rw [answers.indented, past]
      exact indented
    rw [explicitLineCommentAllowed, explicitLineCommentAllowed, indented', indented]
    rfl
  · rw [if_neg three, if_neg three, if_neg two, if_neg two]

include alike length in
/-- **What stands before is forgotten at the first ink,** unless that is a line comment without
indentation. -/
theorem run_beside (h : Beside [] q n marks s s') (blank : Text.blank (Past.text marks) = true)
    {text : Text} (apart : Text.beginsWithNote (Past.text marks ++ text) = false) :
    ∃ marks', Beside [] q n marks' (run s text) (run s' text) := by
  have size : Text.byteLength q.text = Text.byteLength (Past.text []) + n := by
    rw [length]
    exact (Nat.zero_add n).symm
  fun_induction run s text generalizing s' marks with
  | case1 s =>
    rw [run]
    exact ⟨marks, h⟩
  | case2 s c rest next =>
    rename_i ih
    have settled := settle_beside h c
    have past : (settle s c).past = marks := settled.past.trans (List.append_nil marks)
    have agree : SlashesAgree (settle s c) (settle s' c) (c :: rest) :=
      slashesAgree_of_blank settled.modes past (settled.pastsAlike alike) blank apart
    obtain ⟨both, left⟩ := step_beside size h (act_beside alike settled agree)
    rw [run_cons s', left]
    by_cases ink : ∃ mark ∈ marksRead s c rest, isBlank mark.char = false
    · obtain ⟨mark, m, hm⟩ := ink
      have follows := both.follows fun _ => Or.inr ⟨mark, List.mem_append_left _ m, hm⟩
      obtain ⟨marks', beside, -⟩ := (run_follows alike size follows next.2).beside
      exact ⟨marks', beside⟩
    · -- still nothing but blanks: what was read of the text has joined the marks
      have stillBlank : Text.blank (Past.text (marksRead s c rest ++ marks)) = true := by
        rw [Past.blank_text, List.all_append, ← @Past.blank_text marks, blank,
          Bool.and_true, List.all_eq_true]
        intro mark m
        by_contra hm
        exact ink ⟨mark, m, Bool.eq_false_iff.mpr hm⟩
      have read : Past.text (marksRead s c rest ++ marks) ++ next.2 = Past.text marks ++ c :: rest := by
        have whole := text_step s c rest
        rw [both.past, h.past, List.append_nil, List.append_nil] at whole
        exact whole
      exact ih both stillBlank (by rw [read]; exact apart)

end Border

/-! ## Buffers without directives -/

/-- In the explicit mode no step concerns mata. -/
theorem act_inMata_of_explicit {s : State} (explicit : s.delimiter.isExplicit = true) (rest : Text) :
    (act s rest).2.2 = s.inMata := by
  rcases act_inv s rest with ⟨move, acts⟩ | acts
  · rw [acts]
  rw [acts]
  unfold rootStep
  cases hd : s.delimiter with
  | newline =>
    rw [hd] at explicit
    exact absurd explicit (by decide)
  | explicit terminator =>
    dsimp only
    split
    · split
      · rfl
      · split <;> rfl
    · rfl

/-- **Where the explicit mode was never entered and is still in force,** it was never left, and the
mata flag has not changed. -/
theorem inMata_run {s : State} (explicit : s.delimiter.isExplicit = true) {text : Text}
    (still : (run s text).delimiter.isExplicit = true) (since : (run s text).explicitSince = none) :
    (run s text).inMata = s.inMata := by
  fun_induction run s text with
  | case1 => rfl
  | case2 s c rest next ih =>
    by_cases stays : next.1.delimiter.isExplicit = true
    · rw [ih stays still since]
      show (act (settle s c) (c :: rest)).2.2 = s.inMata
      rw [act_inMata_of_explicit (by rwa [settle_delimiter]), settle_inMata]
    · -- once the mode is left, where it was entered again would be known
      have left : (settle s c).delimiter ≠ next.1.delimiter := by
        intro same
        rw [settle_delimiter] at same
        rw [← same] at stays
        exact stays explicit
      have fits : SinceFits next.1 := by
        show (sinceAfter (settle s c).explicitSince (settle s c).delimiter next.1.delimiter _).isSome
          = next.1.delimiter.isExplicit
        rw [sinceAfter, if_neg left, if_neg stays, Bool.eq_false_iff.mpr stays]
        rfl
      have known := run_sinceFits fits next.2
      rw [SinceFits, still, since] at known
      exact absurd known (by decide)

/-- In the explicit mode only a directive line changes what ends a statement. -/
theorem act_delimiter_of_explicit {s : State} (explicit : s.delimiter.isExplicit = true) {rest : Text}
    (none : s.past.atLineStart = true → Line.directive? (Text.firstLine rest) ≠ some .newline) :
    (act s rest).2.1 = s.delimiter := by
  refine act_delimiter_of_unasked fun start => ?_
  cases hd : s.delimiter with
  | newline =>
    rw [hd] at explicit
    exact absurd explicit (by decide)
  | explicit terminator => exact none start

theorem firstLine_mem_lines {past : Past} (start : past.atLineStart = true) (rest : Text) :
    Text.firstLine rest ∈ Text.lines (past.text ++ rest) := by
  have head : Text.firstLine rest ∈ Text.lines rest := by
    by_cases h : '\n' ∈ rest
    · obtain ⟨more, hmore⟩ := Text.exists_firstLine h
      have cut := Text.lines_line_append (Text.notMem_firstLine rest) more
      rw [← hmore] at cut
      rw [cut]
      exact List.mem_cons_self
    · rw [Text.firstLine_of_notMem h, Text.lines_of_notMem h]
      exact List.mem_singleton_self rest
  cases past with
  | nil => exact head
  | cons mark past =>
    have lf : mark.char = '\n' := by simpa [Past.atLineStart] using start
    have whole : Past.text (mark :: past) ++ rest = Past.text past ++ '\n' :: rest := by
      rw [Past.text, List.map_cons, List.reverse_cons, lf, List.append_assoc]
      rfl
    rw [whole, Text.lines_append_lf]
    exact List.mem_append_right _ head

/-- **Without a line that is a directive the explicit mode stays in force.** -/
theorem run_of_noDirective {s : State} (explicit : s.delimiter.isExplicit = true) {text : Text}
    (none : ∀ line ∈ Text.lines (s.past.text ++ text), Line.directive? line ≠ some .newline) :
    (run s text).delimiter = s.delimiter ∧ (run s text).explicitSince = s.explicitSince := by
  fun_induction run s text with
  | case1 => exact ⟨rfl, rfl⟩
  | case2 s c rest next ih =>
    have kept : (act (settle s c) (c :: rest)).2.1 = s.delimiter := by
      rw [← settle_delimiter s c]
      apply act_delimiter_of_explicit (by rwa [settle_delimiter])
      intro start
      rw [settle_past] at start
      exact none _ (firstLine_mem_lines start (c :: rest))
    have same : next.1.delimiter = s.delimiter := kept
    have unmoved : sinceAfter (settle s c).explicitSince (settle s c).delimiter next.1.delimiter
        next.1.past = s.explicitSince := by
      rw [same, settle_delimiter, sinceAfter, if_pos rfl, settle_explicitSince]
    have since : next.1.explicitSince = s.explicitSince := unmoved
    have whole : next.1.past.text ++ next.2 = s.past.text ++ c :: rest := text_step s c rest
    rw [← same, ← since]
    exact ih (by rwa [same]) (by rwa [whole])

end Comments

end DoRunner
