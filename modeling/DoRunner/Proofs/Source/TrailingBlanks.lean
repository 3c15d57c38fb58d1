import DoRunner.Proofs.Source.BlockTokens
import DoRunner.Proofs.Source.CommentPass
import DoRunner.Proofs.Source.Continuation

/-!
# Blanks behind a text

Blanks put behind a text, line feeds among them, are read after the text as if it stood alone
(`Comments.run_append_blank`, `Blocks.run_append_blank`). No opener holds a blank, and what is asked
of a line as a whole does not depend on the blanks that end it, so nothing that a step looks at has
changed. Only where it *ends* may: a step over the rest of its line takes along the blanks that are
now on that line. Those steps all read comments in the first pass and parts of blocks in the second.

A text that leaves nothing open leaves nothing open with blanks behind it either. The blanks close
what ends with its line, and they open nothing.
-/

namespace DoRunner

/-! ## What a step looks at -/

section Blanks

variable {w : Text} (blank : Text.blank w = true)

include blank

/-- A beginning without blanks is found before blanks or not at all. -/
theorem Text.startsWith_append_blank {beginning : Text} (ink : Text.solid beginning = true)
    (t : Text) : Text.startsWith beginning (t ++ w) = Text.startsWith beginning t := by
  rw [Text.startsWith, Text.after?_append (Text.notMem_of_blank blank ink), Option.isSome_map]
  rfl

/-- The first line of a text is followed by blanks at most. -/
theorem Text.firstLine_append_blank (t : Text) :
    ∃ v, Text.blank v = true ∧ Text.firstLine (t ++ w) = Text.firstLine t ++ v := by
  by_cases lf : '\n' ∈ t
  · exact ⟨[], rfl, by rw [Text.firstLine_append lf, List.append_nil]⟩
  · refine ⟨Text.firstLine w, Text.blank_firstLine blank, ?_⟩
    rw [Text.firstLine_append_of_notMem lf, Text.firstLine_of_notMem lf]

theorem Quote.opens?_append_blank (past : Past) (rest : Text) :
    Quote.opens? past (rest ++ w) = Quote.opens? past rest := by
  rw [opens?_eq, opens?_eq, Text.startsWith_append_blank blank (by decide),
    Text.startsWith_append_blank blank (by decide)]

theorem Quote.step_append_blank (modes : ModeStack) (rest : Text) :
    Quote.step modes (rest ++ w) = Quote.step modes rest := by
  rw [step_eq, step_eq, closesPlain_eq, closesPlain_eq,
    Text.startsWith_append_blank blank (by decide), Text.startsWith_append_blank blank (by decide),
    Text.startsWith_append_blank blank (by decide)]

namespace Comments

theorem slashComment?_append_blank (s : State) (lineCommentAllowed : Past → Bool) (rest : Text) :
    slashComment? s lineCommentAllowed (rest ++ w) = slashComment? s lineCommentAllowed rest := by
  rw [slashComment?_eq, slashComment?_eq, Text.startsWith_append_blank blank (by decide),
    Text.startsWith_append_blank blank (by decide), Text.startsWith_append_blank blank (by decide)]

/-- A star that opens a comment is in the text, since it is no blank. -/
theorem starOpener?_append_blank (rest : Text) : starOpener? (rest ++ w) = starOpener? rest := by
  by_cases ink : Text.blank rest = true
  · have noStar {t : Text} (blank : Text.blank t = true) : starOpener? t = none := by
      by_contra opens
      obtain ⟨more, opener⟩ := Option.ne_none_iff_exists'.mp opens
      have star := Text.isBlank_of_blank blank '*' (star_mem_of_starOpener? opener)
      exact absurd star (by decide)
    have both : Text.blank (rest ++ w) = true := by rw [Text.blank_append, ink, blank]; rfl
    rw [noStar both, noStar ink]
  · exact starOpener?_append_of_ink (Bool.eq_false_iff.mpr ink) w

/-- **Blanks are no star.** What follows a block comment is told from the text. -/
theorem starFollows_append_blank (rest : Text) : starFollows (rest ++ w) = starFollows rest := by
  by_cases ink : Text.blank rest = true
  · have both : Text.blank (rest ++ w) = true := by rw [Text.blank_append, ink, blank]; rfl
    rw [starFollows_of_blank both, starFollows_of_blank ink]
  · cases rest with
    | nil => exact absurd rfl ink
    | cons c rest =>
      rw [starFollows_eq, starFollows_eq,
        Text.trimStart_append_of_not_blank (Bool.eq_false_iff.mpr ink),
        Text.startsWith_append_blank blank (by decide),
        Text.startsWith_append_blank blank (by decide)]
      rfl

theorem mataAfter_append_blank (inMata : Bool) (line : Text) :
    mataAfter inMata (line ++ w) = mataAfter inMata line := by
  rw [mataAfter, mataAfter, Line.closesBlock_append blank, Line.opensMata_append blank]

end Comments

end Blanks

namespace Comments

/-! ## Where a step ends -/

/-- What blanks `w` behind `rest` make of a move that starts one character before `rest`. -/
inductive TakesAlong (rest w : Text) : Move → Move → Prop where
  /-- Nothing: the move ends before them. -/
  | apart {move : Move} (within : move.more ≤ rest.length) : TakesAlong rest w move move
  /-- The move is one over the rest of its line, which is a comment, and the blanks on that line
  are part of it. A star comment that is handed over reads one character more. -/
  | along {kind : TokenKind} {more : Nat} {modes : ModeStack}
      (comment : kind = .commentLine ∨ kind = .commentBlock)
      (all : more = rest.length ∨ more = rest.length + 1 ∧ modes.top = .continuation) :
      TakesAlong rest w ⟨kind, more, modes⟩ ⟨kind, more + (Text.firstLine w).length, modes⟩

section Moves

variable {w : Text} {c : Char} {rest : Text}

theorem takesAlong_of_eq {move move' : Move} (same : move' = move)
    (short : move.more ≤ (Text.firstLine rest).length) : TakesAlong rest w move move' := by
  rw [same]
  exact .apart (short.trans (Text.length_firstLine_le rest))

/-- A move over the rest of the line. -/
theorem takesAlong_line {kind : TokenKind} (comment : kind = .commentLine ∨ kind = .commentBlock)
    (modes : ModeStack) (rest : Text) :
    TakesAlong rest w ⟨kind, (Text.firstLine rest).length, modes⟩
      ⟨kind, (Text.firstLine (rest ++ w)).length, modes⟩ := by
  by_cases lf : '\n' ∈ rest
  · rw [Text.firstLine_append lf]
    exact .apart (Text.length_firstLine_le rest)
  · rw [Text.firstLine_append_of_notMem lf, Text.firstLine_of_notMem lf, List.length_append]
    exact .along comment (.inl rfl)

variable (blank : Text.blank w = true) (s : State)

include blank

theorem rootStep_append_blank :
    TakesAlong rest w (rootStep s (c :: rest)).1 (rootStep s (c :: rest ++ w)).1 ∧
      (rootStep s (c :: rest ++ w)).2 = (rootStep s (c :: rest)).2 := by
  obtain ⟨v, blankV, line⟩ := Text.firstLine_append_blank blank (c :: rest)
  have plain : plainMove s (c :: rest ++ w) = plainMove s (c :: rest) := by
    rw [plainMove, plainMove, slashComment?_append_blank blank, Quote.opens?_append_blank blank]
  have explicit (terminator : Char) :
      explicitMove s terminator (c :: rest ++ w) = explicitMove s terminator (c :: rest) := by
    rw [explicitMove, explicitMove, slashComment?_append_blank blank,
      Quote.opens?_append_blank blank]
    rfl
  have directive : TakesAlong rest w (directiveMove s (c :: rest)) (directiveMove s (c :: rest ++ w)) :=
    takesAlong_line (.inl rfl) s.modes rest
  unfold rootStep
  rw [line, starOpener?_append_blank blank, plain]
  cases hd : s.delimiter with
  | newline =>
    have short := (plainMove_inv hd (c :: rest)).more_le
    dsimp only
    rw [Line.directive?_append blankV, mataAfter_append_blank blankV]
    split
    · split
      · exact ⟨directive, rfl⟩
      · split
        · rename_i more h
          refine ⟨takesAlong_of_eq rfl ?_, rfl⟩
          split at h
          · exact absurd h (by simp)
          · exact more_starOpener? h
        · exact ⟨takesAlong_of_eq rfl short, rfl⟩
    · exact ⟨takesAlong_of_eq rfl short, rfl⟩
  | explicit terminator =>
    have short := (explicitMove_inv hd (c :: rest)).more_le
    dsimp only
    rw [Line.directive?_append blankV, explicit]
    split
    · split
      · exact ⟨directive, rfl⟩
      · split
        · rename_i more h
          exact ⟨takesAlong_of_eq rfl (more_starOpener? h), rfl⟩
        · exact ⟨takesAlong_of_eq rfl short, rfl⟩
    · exact ⟨takesAlong_of_eq rfl short, rfl⟩

theorem blockMove_append_blank :
    TakesAlong rest w (blockMove s (c :: rest)) (blockMove s (c :: rest ++ w)) := by
  have short := @more_blockMove c rest s
  by_cases closes : Text.startsWith "*/".toList (c :: rest) = true ∧
      starFollows ((c :: rest).drop 2) = true
  · obtain ⟨found, star⟩ := closes
    obtain ⟨after, split⟩ := Text.startsWith_iff.mp found
    obtain ⟨rfl, rfl⟩ : c = '*' ∧ rest = '/' :: after := List.cons.inj split
    -- a blank comes first after the comment, so that this is no `*/*`
    have moves {t : Text} (follows : starFollows t = true) : blockMove s ('*' :: '/' :: t)
        = ⟨.commentBlock, (Text.firstLine ('/' :: t)).length, s.modes.pop⟩ := by
      have slash : '/' ≠ '\n' := by decide
      rw [Text.firstLine_cons_of_ne slash, List.length_cons, Nat.add_comm]
      cases t with
      | nil => exact absurd follows (by decide)
      | cons d t =>
        have ink : d ≠ '*' := by
          rintro rfl
          rw [starFollows_eq] at follows
          have first : isBlank '*' = true := (Bool.and_eq_true_iff.mp follows).1
          exact absurd first (by decide)
        simp [blockMove, ink, follows]
    have star' : starFollows (after ++ w) = true := (starFollows_append_blank blank after).trans star
    have alone := moves (t := after) star
    show TakesAlong _ _ _ (blockMove s ('*' :: '/' :: (after ++ w)))
    rw [alone, moves star']
    exact takesAlong_line (.inr rfl) s.modes.pop ('/' :: after)
  · refine takesAlong_of_eq ?_ short
    rw [blockMove_eq, blockMove_eq, Text.startsWith_append_blank blank (by decide),
      Text.startsWith_append_blank blank (by decide), Text.startsWith_append_blank blank (by decide)]
    by_cases found : Text.startsWith "*/".toList (c :: rest) = true
    · obtain ⟨after, split⟩ := Text.startsWith_iff.mp found
      have two : (c :: rest ++ w).drop 2 = (c :: rest).drop 2 ++ w := by rw [split]; rfl
      have unfollowed : ¬ starFollows ((c :: rest).drop 2) = true := fun star => closes ⟨found, star⟩
      rw [two, starFollows_append_blank blank, if_neg unfollowed, if_neg unfollowed]
    · rw [if_neg found, if_neg found]

theorem starCommentMove_append_blank :
    TakesAlong rest w (starCommentMove s (c :: rest)) (starCommentMove s (c :: rest ++ w)) := by
  rw [starCommentMove_eq, starCommentMove_eq, Text.startsWith_append_blank blank (by decide),
    Text.startsWith_append_blank blank (by decide), Text.startsWith_append_blank blank (by decide)]
  split
  · show TakesAlong rest w ⟨_, (Text.firstLine rest).length + 1, _⟩
      ⟨_, (Text.firstLine (rest ++ w)).length + 1, _⟩
    by_cases lf : '\n' ∈ rest
    · rw [Text.firstLine_append lf]
      exact .apart (Text.length_firstLine_lt lf)
    · have longer : (Text.firstLine (rest ++ w)).length + 1
          = rest.length + 1 + (Text.firstLine w).length := by
        rw [Text.firstLine_append_of_notMem lf, List.length_append]
        omega
      rw [longer, Text.firstLine_of_notMem lf]
      refine .along (.inl rfl) (.inr ⟨rfl, ?_⟩)
      rw [ModeStack.replace]
      split <;> rfl
  · refine takesAlong_of_eq rfl ?_
    split
    · rename_i slashes
      split
      · exact Text.length_le_firstLine (by decide) slashes
      · exact Nat.zero_le _
    · split
      · rename_i opens
        exact Text.length_le_firstLine (by decide) opens
      · exact Nat.zero_le _

theorem continuationMove_append_blank :
    TakesAlong rest w (continuationMove s (c :: rest)) (continuationMove s (c :: rest ++ w)) := by
  rw [continuationMove_eq, continuationMove_eq, Text.startsWith_append_blank blank (by decide)]
  have head : (c :: rest ++ w).head? = (c :: rest).head? := rfl
  rw [head]
  split
  · exact takesAlong_of_eq rfl (Nat.zero_le _)
  · split
    · exact takesAlong_line (.inl rfl) s.modes.pop rest
    · exact takesAlong_of_eq rfl (Nat.zero_le _)

/-- **Blanks behind a text** change a move only where it ends. -/
theorem act_append_blank :
    TakesAlong rest w (act s (c :: rest)).1 (act s (c :: rest ++ w)).1 ∧
      (act s (c :: rest ++ w)).2 = (act s (c :: rest)).2 := by
  have string : TakesAlong rest w (stringMove s (c :: rest)) (stringMove s (c :: rest ++ w)) :=
    takesAlong_of_eq (by rw [stringMove, stringMove, Quote.step_append_blank blank])
      (Quote.more_step s.modes)
  unfold act
  cases s.modes.top with
  | blockComment depth => exact ⟨blockMove_append_blank blank s, rfl⟩
  | starComment => exact ⟨starCommentMove_append_blank blank s, rfl⟩
  | lineComment =>
    have head : (c :: rest ++ w).head? = (c :: rest).head? := rfl
    refine ⟨takesAlong_of_eq ?_ ?_, rfl⟩
    · dsimp only
      rw [lineCommentMove_eq, lineCommentMove_eq, head]
    · rw [more_lineCommentMove]
      exact Nat.zero_le _
  | continuation => exact ⟨continuationMove_append_blank blank s, rfl⟩
  | plainString => exact ⟨string, rfl⟩
  | compoundString depth => exact ⟨string, rfl⟩
  | _ => exact rootStep_append_blank blank s

end Moves

/-! ## Where the pass goes on -/

/-- Where the pass goes on behind a text with blanks `w` behind it, if it is in state `s` behind the
text alone: the state there, and the blanks left. -/
inductive GoesOn (s : State) (w : Text) : State → Text → Prop where
  /-- In front of the blanks. -/
  | apart : GoesOn s w s w
  /-- Behind some of them, which have joined the comment that was read last. If that comment is the
  directive that entered the explicit mode, this is where the mode was entered. -/
  | along {front back : Text} {kind : TokenKind} {since : Option Nat} (split : w = front ++ back)
      (comment : kind = .commentLine ∨ kind = .commentBlock)
      (within : front.length ≤ (Text.firstLine w).length ∨ s.modes.top = .continuation)
      (entered : since = s.explicitSince ∨ s.explicitSince = some (Text.byteLength s.past.text) ∧
        since = some (Text.byteLength (s.past.text ++ front))) :
      GoesOn s w { s with past := s.past.extend kind front, explicitSince := since } back

theorem GoesOn.suffix {s s' : State} {w left : Text} (h : GoesOn s w s' left) : left <:+ w := by
  cases h with
  | apart => exact List.suffix_rfl
  | along split => exact ⟨_, split.symm⟩

theorem GoesOn.modes {s s' : State} {w left : Text} (h : GoesOn s w s' left) : s'.modes = s.modes := by
  cases h with
  | apart => rfl
  | along split => rfl

theorem GoesOn.delimiter {s s' : State} {w left : Text} (h : GoesOn s w s' left) :
    s'.delimiter = s.delimiter := by
  cases h with
  | apart => rfl
  | along split => rfl

theorem sinceAfter_cases (since : Option Nat) (before after : DelimiterMode) (past longer : Past) :
    sinceAfter since before after longer = sinceAfter since before after past ∨
      sinceAfter since before after past = some (Text.byteLength past.text) ∧
        sinceAfter since before after longer = some (Text.byteLength longer.text) := by
  unfold sinceAfter
  split
  · exact .inl rfl
  · split
    · exact .inr ⟨rfl, rfl⟩
    · exact .inl rfl

/-- One step of a text with blanks behind it. -/
theorem step_append_blank {w : Text} (blank : Text.blank w = true) (s : State) (c : Char)
    (rest : Text) :
    step s c (rest ++ w) = ((step s c rest).1, (step s c rest).2 ++ w) ∨
      (step s c rest).2 = [] ∧
        GoesOn (step s c rest).1 w (step s c (rest ++ w)).1 (step s c (rest ++ w)).2 := by
  obtain ⟨moves, flags⟩ := @act_append_blank w c rest blank (settle s c)
  unfold step
  dsimp only
  rw [List.cons_append] at moves flags
  generalize act (settle s c) (c :: rest) = acted at *
  generalize act (settle s c) (c :: (rest ++ w)) = acted' at *
  obtain ⟨move, delimiter, inMata⟩ := acted
  obtain ⟨move', delimiter', inMata'⟩ := acted'
  obtain ⟨rfl, rfl⟩ : delimiter' = delimiter ∧ inMata' = inMata := Prod.mk.inj flags
  dsimp only at moves ⊢
  cases moves with
  | apart within =>
    left
    rw [List.take_append_of_le_length within, List.drop_append_of_le_length within]
  | @along kind more modes comment all =>
    right
    have covered : rest.length ≤ more := by
      rcases all with exact | ⟨beyond, -⟩
      · exact exact.ge
      · omega
    obtain ⟨k, beyond⟩ : ∃ k, more + (Text.firstLine w).length = rest.length + k :=
      ⟨more + (Text.firstLine w).length - rest.length, by omega⟩
    have whole : rest.take more = rest := List.take_of_length_le covered
    have longer : (rest ++ w).take (rest.length + k) = rest ++ w.take k := by
      rw [List.take_append, List.take_of_length_le (Nat.le_add_right _ _), Nat.add_sub_cancel_left]
    have left' : (rest ++ w).drop (rest.length + k) = w.drop k := by
      rw [List.drop_append, List.drop_of_length_le (Nat.le_add_right _ _), Nat.add_sub_cancel_left,
        List.nil_append]
    refine ⟨List.drop_of_length_le covered, ?_⟩
    rw [beyond, longer, left', whole, ← List.cons_append, Past.extend_append]
    refine .along (List.take_append_drop k w).symm comment ?_ ?_
    · have bound : (w.take k).length ≤ k := List.length_take_le k w
      rcases all with exact | ⟨-, top⟩
      · exact .inl (by omega)
      · exact .inr top
    · rw [← Past.text_extend _ kind]
      exact sinceAfter_cases _ _ _ _ _

/-- **Blanks behind a text** are read after the text, except for some that have joined a comment at
its end. -/
theorem run_append_blank {w : Text} (blank : Text.blank w = true) (s : State) (a : Text) :
    ∃ s' left, GoesOn (run s a) w s' left ∧ run s (a ++ w) = run s' left := by
  fun_induction run s a with
  | case1 s => exact ⟨s, w, .apart, rfl⟩
  | case2 s c rest next ih =>
    rw [List.cons_append, run_cons]
    rcases step_append_blank blank s c rest with same | ⟨ends, goesOn⟩
    · rw [same]
      exact ih
    · have last : run next.1 next.2 = next.1 := by
        rw [show next.2 = [] from ends, run]
      rw [last]
      exact ⟨_, _, goesOn, rfl⟩

/-! ## Behind a text that leaves no comment open -/

/-- No comment is open unless the stack says so, or a continuation was read last. -/
theorem endOf_eq_clean_iff (last : Option TokenKind) (entered : List Mode) :
    endOf last entered = .clean ↔ endOf none entered = .clean ∧ last ≠ some .commentContinuation := by
  induction entered with
  | nil => simp [endOf]
  | cons mode outer ih => cases mode <;> first | exact ih | simp [endOf]

theorem settle_clean {s : State} (stack : CommentStack s.modes.entered)
    (clean : endOf none s.modes.entered = .clean) (c : Char) :
    endOf none (settle s c).modes.entered = .clean := by
  obtain ⟨⟨entered⟩, delimiter, since, inMata, past⟩ := s
  unfold settle
  cases stack with
  | plainString =>
    dsimp only [ModeStack.top, List.headD_cons]
    split <;> rfl
  | starComment =>
    dsimp only [ModeStack.top, List.headD_cons]
    split <;> rfl
  | _ => exact clean

theorem rootStep_of_blank {c : Char} {rest : Text} (blank : Text.blank (c :: rest) = true) (s : State) :
    ∃ kind inMata, rootStep s (c :: rest) = (⟨kind, 0, s.modes⟩, s.delimiter, inMata) ∧
      kind ≠ .commentContinuation := by
  have first := Text.isBlank_of_blank blank c List.mem_cons_self
  have noStar : starOpener? (c :: rest) = none := starOpener?_append_blank blank []
  have noDirective : Line.directive? (Text.firstLine (c :: rest)) = none :=
    Line.directive?_of_blank (Text.blank_firstLine blank)
  have explicit (terminator : Char) : ∃ kind, explicitMove s terminator (c :: rest)
      = ⟨kind, 0, s.modes⟩ ∧ kind ≠ .commentContinuation := by
    rw [explicitMove, slashComment?_of_isBlank first, Quote.opens?_of_isBlank first]
    dsimp only
    split
    · exact ⟨_, rfl, by decide⟩
    · exact ⟨_, rfl, by decide⟩
  unfold rootStep
  rw [plainMove_of_isBlank first, noStar]
  cases s.delimiter with
  | newline =>
    dsimp only
    rw [noDirective, ite_self]
    split
    · exact ⟨.plainText, _, rfl, by decide⟩
    · exact ⟨.plainText, _, rfl, by decide⟩
  | explicit terminator =>
    obtain ⟨kind, moves, apart⟩ := explicit terminator
    dsimp only
    rw [noDirective, moves]
    split
    · exact ⟨kind, _, rfl, apart⟩
    · exact ⟨kind, _, rfl, apart⟩

theorem act_of_blank {s : State} (stack : CommentStack s.modes.entered)
    (clean : endOf none s.modes.entered = .clean) {c : Char} {rest : Text}
    (blank : Text.blank (c :: rest) = true) :
    ∃ kind modes inMata, act s (c :: rest) = (⟨kind, 0, modes⟩, s.delimiter, inMata) ∧
      kind ≠ .commentContinuation ∧ endOf none modes.entered = .clean := by
  have first := Text.isBlank_of_blank blank c List.mem_cons_self
  obtain ⟨⟨entered⟩, delimiter, since, inMata, past⟩ := s
  have string (modes : ModeStack) : ∃ kind, stringMove ⟨modes, delimiter, since, inMata, past⟩ (c :: rest)
      = ⟨kind, 0, modes⟩ ∧ kind ≠ .commentContinuation := by
    rw [stringMove, Quote.step_of_isBlank first]
    dsimp only
    split
    · exact ⟨_, rfl, by decide⟩
    · exact ⟨_, rfl, by decide⟩
  cases stack with
  | root =>
    obtain ⟨kind, inMata', acts, apart⟩ := rootStep_of_blank blank ⟨⟨[]⟩, delimiter, since, inMata, past⟩
    exact ⟨kind, ⟨[]⟩, inMata', acts, apart, rfl⟩
  | plainString =>
    obtain ⟨kind, moves, apart⟩ := string ⟨[.plainString]⟩
    exact ⟨kind, _, inMata, congrArg (·, _) moves, apart, rfl⟩
  | compoundString outer =>
    obtain ⟨kind, moves, apart⟩ := string ⟨[.compoundString (outer + 1)]⟩
    exact ⟨kind, _, inMata, congrArg (·, _) moves, apart, rfl⟩
  | starComment =>
    exact ⟨_, _, inMata, congrArg (·, _) (starCommentMove_of_isBlank first _ rest), by decide, rfl⟩
  | lineComment =>
    have moves : ∃ kind modes, lineCommentMove ⟨⟨[.lineComment]⟩, delimiter, since, inMata, past⟩ (c :: rest)
        = ⟨kind, 0, modes⟩ ∧ kind ≠ .commentContinuation ∧ endOf none modes.entered = .clean := by
      rw [lineCommentMove_eq]
      split
      · refine ⟨_, _, rfl, ?_, rfl⟩
        split <;> decide
      · exact ⟨_, _, rfl, by decide, rfl⟩
    obtain ⟨kind, modes, moves, left⟩ := moves
    exact ⟨kind, modes, inMata, congrArg (·, _) moves, left⟩
  | continuation => exact absurd clean (by simp [endOf])
  | blockComment outer => exact absurd clean (by simp [endOf])
  | starBlock outer => exact absurd clean (by simp [endOf])

/-- **A blank,** where no comment is open, is read alone and opens none. -/
theorem step_of_blank {s : State} (stack : CommentStack s.modes.entered)
    (clean : endOf none s.modes.entered = .clean) {c : Char} {rest : Text}
    (blank : Text.blank (c :: rest) = true) :
    ∃ kind modes inMata, step s c rest
        = ({ s with modes, inMata, past := ⟨kind, c⟩ :: s.past }, rest) ∧
      kind ≠ .commentContinuation ∧ endOf none modes.entered = .clean := by
  obtain ⟨kind, modes, inMata, acts, apart, left⟩ :=
    act_of_blank (settle_commentStack stack c) (settle_clean stack clean c) blank
  refine ⟨kind, modes, inMata, ?_, apart, left⟩
  unfold step
  dsimp only
  rw [acts, settle_delimiter, settle_explicitSince, settle_past, sinceAfter, if_pos rfl]
  rfl

/-- **Blanks,** where no comment is open, open none, and what ends a statement stays as it is. -/
theorem run_of_blank {s : State} (stack : CommentStack s.modes.entered)
    (clean : endOf (s.past.head?.map (·.kind)) s.modes.entered = .clean) {w : Text}
    (blank : Text.blank w = true) :
    endOf ((run s w).past.head?.map (·.kind)) (run s w).modes.entered = .clean ∧
      (run s w).delimiter = s.delimiter ∧ (run s w).explicitSince = s.explicitSince := by
  induction w generalizing s with
  | nil =>
    rw [run]
    exact ⟨clean, rfl, rfl⟩
  | cons c w ih =>
    obtain ⟨kind, modes, inMata, steps, apart, left⟩ :=
      step_of_blank stack ((endOf_eq_clean_iff _ _).mp clean).1 blank
    have stack' := step_commentStack stack c w
    rw [run_cons, steps]
    rw [steps] at stack'
    refine ih stack' ?_ (Text.blank_of_suffix (List.suffix_cons c w) blank)
    exact (endOf_eq_clean_iff _ _).mpr ⟨left, by simpa using apart⟩

/-- What has joined a comment leaves none open. -/
theorem GoesOn.clean {s s' : State} {w left : Text} (h : GoesOn s w s' left)
    (clean : endOf (s.past.head?.map (·.kind)) s.modes.entered = .clean) :
    endOf (s'.past.head?.map (·.kind)) s'.modes.entered = .clean := by
  cases h with
  | apart => exact clean
  | @along front back kind since split comment within entered =>
    obtain ⟨bottom, last⟩ := (endOf_eq_clean_iff _ _).mp clean
    refine (endOf_eq_clean_iff _ _).mpr ⟨bottom, ?_⟩
    rcases List.eq_nil_or_concat front with rfl | ⟨before, c, rfl⟩
    · exact last
    · rw [List.concat_eq_append, Past.extend_append]
      rcases comment with rfl | rfl
      · simp [Past.extend]
      · simp [Past.extend]

end Comments

/-- The comment pass over a text and over the text with blanks behind it. The first of the blanks
may have joined the comment that the text ends in. -/
structure TrailedBy (x y : CommentScan) (joined free : List Mark) : Prop where
  /-- The text is marked as it is alone. -/
  marks : y.marks = x.marks ++ (joined ++ free)
  /-- What follows it is blank. -/
  blank : Text.blank ((joined ++ free).map (·.char)) = true
  /-- No comment is open. -/
  clean : y.endState = .clean
  /-- The same ends a statement. -/
  finalMode : y.finalMode = x.finalMode
  /-- The explicit mode was entered at the same place, or where what has joined the directive ends
  that entered it. -/
  since : y.explicitSince = x.explicitSince ∨
    x.explicitSince = some (Text.byteLength (x.marks.map (·.char))) ∧
      y.explicitSince = some (Text.byteLength ((x.marks ++ joined).map (·.char)))

/-- **Blanks behind a text that leaves no comment open.** -/
theorem scanComments_append_blank {w : Text} (blank : Text.blank w = true) (text : Text)
    (mode : DelimiterMode) (clean : (scanComments text mode).endState = .clean) :
    ∃ joined free, TrailedBy (scanComments text mode) (scanComments (text ++ w) mode) joined free := by
  obtain ⟨s', left, goesOn, behind⟩ := Comments.run_append_blank blank (.initial mode) text
  have blankLeft := Text.blank_of_suffix goesOn.suffix blank
  have spelt : (scanComments text mode).marks.map (·.char) = text :=
    map_char_marks_scanComments text mode
  have stack : Comments.CommentStack s'.modes.entered := by
    rw [goesOn.modes]
    exact Comments.run_commentStack .root text
  obtain ⟨ends, delimiter, since⟩ := Comments.run_of_blank stack (goesOn.clean clean) blankLeft
  obtain ⟨later, past, read⟩ := Comments.exists_past_run s' left
  rw [← behind] at ends delimiter since past
  -- what the pass has made of the blanks, after those that have joined a comment
  obtain ⟨joined, kept, spells, entered⟩ : ∃ joined : List Mark,
      s'.past.reverse = (scanComments text mode).marks ++ joined ∧
        joined.map (·.char) ++ left = w ∧
          (s'.explicitSince = (scanComments text mode).explicitSince ∨
            (scanComments text mode).explicitSince = some (Text.byteLength text) ∧
              s'.explicitSince = some (Text.byteLength (text ++ joined.map (·.char)))) := by
    cases goesOn with
    | apart => exact ⟨[], (List.append_nil _).symm, rfl, .inl rfl⟩
    | @along front back kind since split comment within entered =>
      have chars : (front.map (Mark.mk kind)).map (·.char) = front := by
        rw [List.map_map]
        exact List.map_id front
      refine ⟨front.map (Mark.mk kind), Past.reverse_extend _ kind front, ?_, ?_⟩
      · rw [chars, split]
      · rw [chars]
        rwa [Comments.text_run] at entered
  refine ⟨joined, later.reverse, ?_, ?_, ends, ?_, ?_⟩
  · show (Comments.run (.initial mode) (text ++ w)).past.reverse = _
    rw [past, List.reverse_append, kept, List.append_assoc]
  · rw [List.map_append, read, spells]
    exact blank
  · exact delimiter.trans goesOn.delimiter
  · rw [List.map_append, spelt]
    show (Comments.run (.initial mode) (text ++ w)).explicitSince = _ ∨ _ ∧
      (Comments.run (.initial mode) (text ++ w)).explicitSince = _
    rw [since]
    exact entered

/-! ## Blocks -/

namespace Blocks

/-- **Blanks behind a text** are read after the text, except for some on its last line that have
joined a block. -/
theorem run_append_blank {w : Text} (blank : Text.blank w = true) (s : State) (a : Text) :
    ∃ front back, w = front ++ back ∧
      run s (a ++ w) = run { run s a with past := (run s a).past.extend .blockBody front } back ∧
      (front = [] ∨ ∃ mark ∈ (run s a).past, mark.kind = .blockBody) := by
  fun_induction run s a with
  | case1 s => exact ⟨[], w, rfl, rfl, .inl rfl⟩
  | case2 s c rest next ih =>
    rw [List.cons_append, run_cons]
    by_cases same : act (settle s c) (c :: (rest ++ w)) = act (settle s c) (c :: rest)
    · rw [step_of_act same]
      exact ih
    · -- a move over the rest of the last line
      have oneLine : '\n' ∉ c :: rest := fun lf => same (act_append lf (settle s c) w)
      have hrest : '\n' ∉ rest := fun lf => oneLine (List.mem_cons_of_mem c lf)
      obtain ⟨modes, alone, behind⟩ :=
        (act_append_of_blankLine oneLine (Text.blank_firstLine blank) (settle s c)).resolve_left same
      have stepped : next = _ :=
        step_lineMove (List.append_nil rest).symm (Text.firstLine_of_notMem hrest) alone
      have whole : rest ++ w = rest ++ Text.firstLine w ++ Text.fromLineEnd w := by
        rw [List.append_assoc, Text.firstLine_append_fromLineEnd]
      have steppedOn := step_lineMove whole (Text.firstLine_append_of_notMem hrest w) behind
      rw [← List.cons_append, Past.extend_append] at steppedOn
      refine ⟨Text.firstLine w, Text.fromLineEnd w, (Text.firstLine_append_fromLineEnd w).symm, ?_,
        .inr ?_⟩
      · rw [steppedOn, stepped, run]
      · rw [stepped, run, Past.extend_eq]
        exact ⟨⟨.blockBody, c⟩, List.mem_append_left _ (by simp), rfl⟩

/-- Where no block is open, blanks open none and belong to none. -/
theorem act_of_blank {s : State} (stack : BlockStack s.modes.entered)
    (closed : s.modes.openBlocks = 0) {c : Char} {rest : Text} (blank : Text.blank (c :: rest) = true) :
    ∃ kind, act s (c :: rest) = ⟨kind, 0, s.modes, false⟩ ∧ kind ≠ .blockBody := by
  obtain ⟨kind, acts, inside⟩ := act_of_isBlank (Text.isBlank_of_blank blank c List.mem_cons_self)
    (Text.blank_firstLine blank) s
  refine ⟨kind, acts, fun block => ?_⟩
  have outside : s.modes.inBlock = false := by
    rw [ModeStack.inBlock, closed]
    rfl
  rcases inside block with inBlock | around
  · exact absurd inBlock (by rw [outside]; exact Bool.false_ne_true)
  · obtain ⟨⟨entered⟩, past⟩ := s
    cases stack with
    | outside around' =>
      cases around' with
      | nothing => exact absurd around (by simp [ModeStack.top])
      | braces outer => exact absurd closed (Nat.succ_ne_zero outer)
      | endBlock => exact absurd closed Nat.one_ne_zero
    | plainString around' => exact absurd around (by simp [ModeStack.top])
    | compoundString outer around' => exact absurd around (by simp [ModeStack.top])

/-- **Blanks behind a text that leaves no block open** leave none open, and they belong to none. -/
theorem run_of_blank {s : State} (stack : BlockStack s.modes.entered)
    (closed : s.modes.openBlocks = 0) {w : Text} (blank : Text.blank w = true) :
    (run s w).modes.openBlocks = 0 ∧
      ∃ later : Past, (run s w).past = later ++ s.past ∧ ∀ mark ∈ later, mark.kind ≠ .blockBody := by
  induction w generalizing s with
  | nil =>
    rw [run]
    exact ⟨closed, [], rfl, fun _ m => absurd m List.not_mem_nil⟩
  | cons c w ih =>
    obtain ⟨stack', blocks⟩ := settle_stack stack c
    obtain ⟨kind, acts, outside⟩ := act_of_blank stack' (blocks.trans closed) blank
    have stepped : step s c w = (⟨(settle s c).modes, ⟨kind, c⟩ :: s.past⟩, w) := by
      unfold step
      dsimp only
      rw [acts, settle_past]
      rfl
    obtain ⟨closed', later, past, free⟩ := ih (s := ⟨(settle s c).modes, ⟨kind, c⟩ :: s.past⟩) stack'
      (blocks.trans closed) (Text.blank_of_suffix (List.suffix_cons c w) blank)
    rw [run_cons, stepped]
    refine ⟨closed', later ++ [⟨kind, c⟩], by rw [past, List.append_assoc]; rfl, fun mark m => ?_⟩
    rcases List.mem_append.mp m with m | m
    · exact free mark m
    · rw [List.mem_singleton.mp m]
      exact outside

end Blocks

/-- **Blanks behind a text that leaves no block open** change nothing about its blocks. -/
theorem scanBlocks_append_blank {w : Text} (blank : Text.blank w = true) (text : Text)
    (closed : (scanBlocks text).openBlocks = 0) :
    (scanBlocks (text ++ w)).openBlocks = 0 ∧
      (scanBlocks (text ++ w)).hasBlock = (scanBlocks text).hasBlock := by
  obtain ⟨front, back, split, behind, joined⟩ := Blocks.run_append_blank blank .initial text
  have stack := (Blocks.run_sound Blocks.sound_initial text).stack
  obtain ⟨closed', later, past, free⟩ := @Blocks.run_of_blank
    { Blocks.run .initial text with
      past := (Blocks.run .initial text).past.extend .blockBody front } stack closed back
    (Text.blank_of_suffix ⟨front, split.symm⟩ blank)
  rw [← behind] at closed' past
  refine ⟨closed', ?_⟩
  have ofRun (t : Text) : (scanBlocks t).hasBlock = true ↔
      ∃ mark ∈ (Blocks.run .initial t).past, mark.kind = .blockBody := by
    show (Blocks.run .initial t).past.reverse.any _ = true ↔ _
    simp
  rw [Bool.eq_iff_iff, ofRun, ofRun, past]
  constructor
  · rintro ⟨mark, m, block⟩
    rcases joined with rfl | already
    · rcases List.mem_append.mp m with m | m
      · exact absurd block (free mark m)
      · exact ⟨mark, m, block⟩
    · exact already
  · rintro ⟨mark, m, block⟩
    refine ⟨mark, List.mem_append_right _ ?_, block⟩
    rw [Past.extend_eq]
    exact List.mem_append_right _ m

end DoRunner
