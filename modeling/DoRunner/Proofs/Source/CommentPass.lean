import DoRunner.Proofs.Source.Lookahead
import DoRunner.Proofs.Source.Lookback

/-!
# The comment pass over whole lines

Of all stacks of modes, the comment pass meets eight kinds (`CommentStack`). Comments do not nest in
one another, except that block comments nest in themselves and in a star comment, and no string
holds a comment.
-/

namespace DoRunner.Comments

theorem run_cons (s : State) (c : Char) (rest : Text) :
    run s (c :: rest) = run (step s c rest).1 (step s c rest).2 := by
  rw [run]

/-! ## Stacks -/

/-- The stacks that the comment pass meets. -/
inductive CommentStack : List Mode → Prop where
  /-- Outside everything. -/
  | root : CommentStack []
  /-- In a line comment. -/
  | lineComment : CommentStack [.lineComment]
  /-- In a continuation comment. -/
  | continuation : CommentStack [.continuation]
  /-- In a plain string. -/
  | plainString : CommentStack [.plainString]
  /-- In a compound string. -/
  | compoundString (outer : Nat) : CommentStack [.compoundString (outer + 1)]
  /-- In a block comment. -/
  | blockComment (outer : Nat) : CommentStack [.blockComment (outer + 1)]
  /-- In a star comment. -/
  | starComment : CommentStack [.starComment]
  /-- In a block comment within a star comment. -/
  | starBlock (outer : Nat) : CommentStack [.blockComment (outer + 1), .starComment]

/-- What a mode is that may be entered outside everything. -/
def Enters (mode : Mode) : Prop := CommentStack [mode]

theorem enters_of_opens? {past : Past} {rest : Text} {mode : Mode} {more : Nat}
    (h : Quote.opens? past rest = some (mode, more)) : Enters mode := by
  obtain ⟨rfl, -⟩ | ⟨rfl, -⟩ := Quote.opens?_cases h
  · exact .compoundString 0
  · exact .plainString

theorem StatementMove.enters {s : State} {rest : Text} {move : Move}
    (reads : StatementMove s rest move) :
    move.modes = s.modes ∨ ∃ mode, Enters mode ∧ move.modes = s.modes.push mode := by
  cases reads with
  | comment opens =>
    obtain ⟨t, -, rfl⟩ | ⟨t, -, rfl⟩ | ⟨t, -, rfl⟩ := slashComment?_cases opens
    · exact .inr ⟨.continuation, .continuation, rfl⟩
    · exact .inr ⟨.lineComment, .lineComment, rfl⟩
    · exact .inr ⟨.blockComment 1, .blockComment 0, rfl⟩
  | string opens => exact .inr ⟨_, enters_of_opens? opens, rfl⟩
  | terminator => exact .inl rfl
  | text => exact .inl rfl

/-- Outside everything, a step enters one mode or none. -/
theorem modes_rootStep (s : State) (rest : Text) :
    (rootStep s rest).1.modes = s.modes ∨
      ∃ mode, Enters mode ∧ (rootStep s rest).1.modes = s.modes.push mode := by
  have does := rootStep_inv s rest
  generalize (rootStep s rest).1 = move, (rootStep s rest).2.1 = delimiter at does
  cases does with
  | directive => exact .inl rfl
  | star => exact .inr ⟨.starComment, .starComment, rfl⟩
  | statement _ reads => exact reads.enters

theorem settle_commentStack {s : State} (h : CommentStack s.modes.entered) (c : Char) :
    CommentStack (settle s c).modes.entered := by
  obtain ⟨⟨entered⟩, delimiter, since, inMata, past⟩ := s
  unfold settle
  cases h with
  | plainString =>
    dsimp only [ModeStack.top, List.headD_cons]
    split
    · exact .root
    · exact .plainString
  | starComment =>
    dsimp only [ModeStack.top, List.headD_cons]
    split
    · exact .root
    · exact .starComment
  | root => exact .root
  | lineComment => exact .lineComment
  | continuation => exact .continuation
  | compoundString outer => exact .compoundString outer
  | blockComment outer => exact .blockComment outer
  | starBlock outer => exact .starBlock outer

theorem act_commentStack {s : State} (h : CommentStack s.modes.entered) (rest : Text) :
    CommentStack (act s rest).1.modes.entered := by
  obtain ⟨⟨entered⟩, delimiter, since, inMata, past⟩ := s
  cases h with
  | root =>
    show CommentStack (rootStep _ rest).1.modes.entered
    rcases modes_rootStep ⟨⟨[]⟩, delimiter, since, inMata, past⟩ rest with same | ⟨mode, enters, pushed⟩
    · rw [same]
      exact .root
    · rw [pushed]
      cases mode <;> exact enters
  | lineComment =>
    show CommentStack (lineCommentMove _ rest).modes.entered
    rw [lineCommentMove_eq]
    split
    · exact .root
    · exact .lineComment
  | continuation =>
    show CommentStack (continuationMove _ rest).modes.entered
    rw [continuationMove_eq]
    split
    · exact .root
    · split
      · exact .root
      · exact .continuation
  | plainString =>
    show CommentStack (Quote.step ⟨[.plainString]⟩ rest).1.entered
    rcases Quote.entered_plainString [] rest with inside | left
    · rw [inside]
      exact .plainString
    · rw [left]
      exact .root
  | compoundString outer =>
    show CommentStack (Quote.step ⟨[.compoundString (outer + 1)]⟩ rest).1.entered
    rcases Quote.entered_compoundString outer [] rest with ⟨outer', inside⟩ | left
    · rw [inside]
      exact .compoundString outer'
    · rw [left]
      exact .root
  | starComment =>
    show CommentStack (starCommentMove _ rest).modes.entered
    rw [starCommentMove_eq]
    split
    · exact .continuation
    · split
      · split
        · exact .lineComment
        · exact .starComment
      · split
        · exact .starBlock 0
        · exact .starComment
  | blockComment outer =>
    show CommentStack (blockMove _ rest).modes.entered
    rcases @entered_blockMove ⟨⟨_⟩, delimiter, since, inMata, past⟩ outer [] rfl rest with
      ⟨outer', inside⟩ | left
    · rw [inside]
      exact .blockComment outer'
    · rw [left]
      exact .root
  | starBlock outer =>
    show CommentStack (blockMove _ rest).modes.entered
    rcases @entered_blockMove ⟨⟨_⟩, delimiter, since, inMata, past⟩ outer [.starComment] rfl rest with
      ⟨outer', inside⟩ | left
    · rw [inside]
      exact .starBlock outer'
    · rw [left]
      exact .starComment

/-- **The pass meets no other stacks.** -/
theorem step_commentStack {s : State} (h : CommentStack s.modes.entered) (c : Char) (rest : Text) :
    CommentStack (step s c rest).1.modes.entered :=
  act_commentStack (settle_commentStack h c) (c :: rest)

theorem run_commentStack {s : State} (h : CommentStack s.modes.entered) (text : Text) :
    CommentStack (run s text).modes.entered := by
  fun_induction run s text with
  | case1 s => exact h
  | case2 s c rest next ih => exact ih (step_commentStack h c rest)

/-! ## Where the explicit mode was entered -/

/-- In the explicit mode it is known where it was entered, in the newline mode there is no such
place. -/
def SinceFits (s : State) : Prop := s.explicitSince.isSome = s.delimiter.isExplicit

theorem settle_sinceFits {s : State} (h : SinceFits s) (c : Char) : SinceFits (settle s c) := by
  rw [SinceFits, settle_explicitSince, settle_delimiter]
  exact h

theorem step_sinceFits {s : State} (h : SinceFits s) (c : Char) (rest : Text) :
    SinceFits (step s c rest).1 := by
  have settled := settle_sinceFits h c
  unfold SinceFits at settled ⊢
  dsimp only [step]
  rw [sinceAfter]
  split
  · rename_i same
    rw [← same]
    exact settled
  · split
    · rename_i explicit
      rw [explicit]
      rfl
    · rename_i explicit
      rw [Bool.eq_false_iff.mpr explicit]
      rfl

theorem run_sinceFits {s : State} (h : SinceFits s) (text : Text) : SinceFits (run s text) := by
  fun_induction run s text with
  | case1 => exact h
  | case2 s c rest next ih => exact ih (step_sinceFits h c rest)

/-! ## Single characters -/

/-- A step that leaves the delimiter mode and the mata flag alone. -/
theorem step_eq_of_act {s t : State} {c : Char} {rest : Text} {kind : TokenKind} {more : Nat}
    {modes : ModeStack} (settled : settle s c = t)
    (acts : act t (c :: rest) = (⟨kind, more, modes⟩, t.delimiter, t.inMata)) :
    step s c rest
      = ({ t with modes, past := t.past.extend kind (c :: rest.take more) }, rest.drop more) := by
  unfold step
  rw [settled]
  dsimp only
  rw [acts]
  dsimp only
  rw [sinceAfter, if_pos rfl]

/-- Such a step over one character. -/
theorem step_of_act {s t : State} {c : Char} {rest : Text} {kind : TokenKind} {modes : ModeStack}
    (settled : settle s c = t)
    (acts : act t (c :: rest) = (⟨kind, 0, modes⟩, t.delimiter, t.inMata)) :
    step s c rest = ({ t with modes, past := ⟨kind, c⟩ :: t.past }, rest) :=
  step_eq_of_act settled acts

/-! Blanks are read one by one, whatever the pass is inside of. -/

section Blank

variable {c : Char} (hc : isBlank c = true) (s : State) (rest : Text)

include hc

theorem slashComment?_of_isBlank (lineCommentAllowed : Past → Bool) :
    slashComment? s lineCommentAllowed (c :: rest) = none :=
  slashComment?_of_noSlash (Text.head?_of_isBlank (by decide) hc rest) s lineCommentAllowed

theorem plainMove_of_isBlank : plainMove s (c :: rest) = ⟨.plainText, 0, s.modes⟩ := by
  rw [plainMove, slashComment?_of_isBlank hc, Quote.opens?_of_isBlank hc]

theorem blockMove_of_isBlank : blockMove s (c :: rest) = ⟨.commentBlock, 0, s.modes⟩ :=
  blockMove_of_noSlash (Text.head?_of_isBlank (by decide) hc rest) s
    (Text.head?_of_isBlank (by decide) hc rest)

theorem starCommentMove_of_isBlank :
    starCommentMove s (c :: rest) = ⟨.commentLine, 0, s.modes⟩ :=
  starCommentMove_of_noSlash (Text.head?_of_isBlank (by decide) hc rest) s

end Blank

/-! ## Line feeds -/

theorem rootStep_lf {s : State} (newline : s.delimiter = .newline) (rest : Text) :
    rootStep s ('\n' :: rest) = (⟨.plainText, 0, s.modes⟩, .newline, s.inMata) := by
  have blank : isBlank '\n' = true := by decide
  have opener : starOpener? ('\n' :: rest) = none := starOpener?_line [] rest
  have flag : mataAfter s.inMata [] = s.inMata := by
    cases s.inMata <;> decide
  unfold rootStep
  rw [newline, Text.firstLine_lf, plainMove_of_isBlank blank, opener]
  dsimp only
  have noDirective : ¬ (none : Option Line.Directive) = some .explicit := by simp
  rw [flag, ite_self, Line.directive?_of_blank rfl, if_neg noDirective, ite_self]

/-- What is open to the end of the line at most is left by a line feed, which is statement text. -/
theorem step_lf_outside {s : State} (newline : s.delimiter = .newline)
    (outside : s.modes.entered = [] ∨ s.modes.entered = [.starComment] ∨
      s.modes.entered = [.plainString]) (rest : Text) :
    step s '\n' rest = ({ s with modes := .atRoot, past := ⟨.plainText, '\n'⟩ :: s.past }, rest) := by
  have settled : settle s '\n' = { s with modes := .atRoot } := by
    obtain ⟨⟨entered⟩, delimiter, since, inMata, past⟩ := s
    obtain rfl : delimiter = .newline := newline
    rcases outside with rfl | rfl | rfl <;> rfl
  exact step_of_act (t := { s with modes := .atRoot }) settled
    (rootStep_lf (s := { s with modes := .atRoot }) newline rest |>.trans (by rw [newline]))

/-- The state after such a line feed. -/
def lineAfter (s : State) : State :=
  { s with modes := .atRoot, past := ⟨.plainText, '\n'⟩ :: s.past }

theorem run_lf_outside {s : State} (newline : s.delimiter = .newline)
    (outside : s.modes.entered = [] ∨ s.modes.entered = [.starComment]) (t : Text) :
    run s ('\n' :: t) = run (lineAfter s) t := by
  rw [run_cons, step_lf_outside newline (outside.imp_right Or.inl)]
  rfl

/-- **A line feed,** while lines end statements. What is open to the end of the line is left, and
the line feed is statement text there; only a continuation takes it along. -/
theorem step_lf {s : State} (stack : CommentStack s.modes.entered) (newline : s.delimiter = .newline)
    (rest : Text) :
    ∃ kind modes, step s '\n' rest
        = ({ s with modes, past := ⟨kind, '\n'⟩ :: s.past }, rest) ∧
      (modes.entered = [] → kind = .plainText ∨ kind = .commentContinuation) := by
  obtain ⟨⟨entered⟩, delimiter, since, inMata, past⟩ := s
  obtain rfl : delimiter = .newline := newline
  have blank : isBlank '\n' = true := by decide
  cases stack with
  | root => exact ⟨.plainText, .atRoot, step_lf_outside rfl (Or.inl rfl) rest, fun _ => Or.inl rfl⟩
  | plainString =>
    exact ⟨.plainText, .atRoot, step_lf_outside rfl (Or.inr (Or.inr rfl)) rest, fun _ => Or.inl rfl⟩
  | starComment =>
    exact ⟨.plainText, .atRoot, step_lf_outside rfl (Or.inr (Or.inl rfl)) rest, fun _ => Or.inl rfl⟩
  | lineComment => exact ⟨.plainText, ⟨[]⟩, step_of_act rfl rfl, fun _ => Or.inl rfl⟩
  | continuation =>
    exact ⟨.commentContinuation, ⟨[]⟩, step_of_act rfl rfl, fun _ => Or.inr rfl⟩
  | compoundString outer =>
    refine ⟨.stringLiteral, ⟨[.compoundString (outer + 1)]⟩, step_of_act rfl ?_,
      fun h => absurd h (List.cons_ne_nil _ _)⟩
    show (stringMove _ _, _, _) = _
    rw [stringMove, Quote.step_of_isBlank blank]
    rfl
  | blockComment outer =>
    refine ⟨.commentBlock, ⟨[.blockComment (outer + 1)]⟩, step_of_act rfl ?_,
      fun h => absurd h (List.cons_ne_nil _ _)⟩
    show (blockMove _ _, _, _) = _
    rw [blockMove_of_isBlank blank]
  | starBlock outer =>
    refine ⟨.commentBlock, ⟨[.blockComment (outer + 1), .starComment]⟩, step_of_act rfl ?_,
      fun h => absurd h (List.cons_ne_nil _ _)⟩
    show (blockMove _ _, _, _) = _
    rw [blockMove_of_isBlank blank]

/-! ## Blanks -/

theorem settle_of_ne {s : State} (newline : s.delimiter = .newline) {c : Char} (hc : c ≠ '\n') :
    settle s c = s := by
  have unended : c ≠ s.delimiter.terminator := by rw [newline]; exact hc
  unfold settle
  rw [if_neg hc, if_neg unended]
  split <;> rfl

/-- The kind of blanks that end a line outside everything or in a star comment. -/
def trailingKind (modes : ModeStack) : TokenKind :=
  if modes.entered = [] then .plainText else .commentLine

/-- **Blanks at the end of a line** are read one by one. -/
theorem run_trailing {s : State} (newline : s.delimiter = .newline)
    (stack : s.modes.entered = [] ∨ s.modes.entered = [.starComment])
    (inside : s.past.atLineStart = false) {w : Text} (blank : Text.blank w = true) (hw : '\n' ∉ w)
    (t : Text) : run s (w ++ t) = run { s with past := s.past.extend (trailingKind s.modes) w } t := by
  induction w generalizing s with
  | nil => rfl
  | cons c w ih =>
    have hc : c ≠ '\n' := fun e => hw (e ▸ List.mem_cons_self)
    have isBlank := Text.isBlank_of_blank blank c List.mem_cons_self
    have rest : Text.blank w = true := Text.blank_of_suffix (List.suffix_cons c w) blank
    have acts : act s (c :: (w ++ t))
        = (⟨trailingKind s.modes, 0, s.modes⟩, s.delimiter, s.inMata) := by
      obtain ⟨⟨entered⟩, delimiter, since, inMata, past⟩ := s
      obtain rfl : delimiter = .newline := newline
      rcases stack with rfl | rfl
      · show rootStep ⟨⟨[]⟩, .newline, since, inMata, past⟩ (c :: (w ++ t)) = _
        have notStart : ¬ past.atLineStart = true := by rw [inside]; decide
        rw [rootStep]
        dsimp only
        rw [if_neg notStart, plainMove_of_isBlank isBlank]
        rfl
      · show (starCommentMove _ _, _, _) = _
        rw [starCommentMove_of_isBlank isBlank]
        rfl
    rw [List.cons_append, run_cons, step_of_act (settle_of_ne newline hc) acts]
    exact ih (s := { s with past := ⟨trailingKind s.modes, c⟩ :: s.past }) newline stack
      (by simpa [Past.atLineStart] using hc) rest (fun m => hw (List.mem_cons_of_mem _ m))

/-- Blanks do not end a block comment. -/
theorem run_blank_of_blockComment {s : State} {depth : Nat} (htop : s.modes.top = .blockComment depth)
    {w : Text} (blank : Text.blank w = true) : (run s w).modes = s.modes := by
  induction w generalizing s with
  | nil => rw [run]
  | cons c w ih =>
    have isBlank := Text.isBlank_of_blank blank c List.mem_cons_self
    have rest : Text.blank w = true := Text.blank_of_suffix (List.suffix_cons c w) blank
    have settled : settle s c = s := by
      unfold settle
      rw [htop]
    have acts : act s (c :: w) = (⟨.commentBlock, 0, s.modes⟩, s.delimiter, s.inMata) := by
      unfold act
      rw [htop]
      dsimp only
      rw [blockMove_of_isBlank isBlank]
    rw [run_cons, step_of_act settled acts]
    exact ih (s := { s with past := ⟨.commentBlock, c⟩ :: s.past }) htop rest

/-- No line of blanks is a directive. -/
theorem act_delimiter_of_blank (s : State) {w : Text} (line : Text.blank (Text.firstLine w) = true) :
    (act s w).2.1 = s.delimiter := by
  refine act_delimiter_of_unasked fun _ => ?_
  rw [Line.directive?_of_blank line]
  exact (Option.some_ne_none _).symm

/-- Blanks do not change what ends a statement. -/
theorem run_delimiter_of_blank {s : State} {w : Text} (blank : Text.blank w = true) :
    (run s w).delimiter = s.delimiter := by
  fun_induction run s w with
  | case1 => rfl
  | case2 s c rest next ih =>
    have left : Text.blank next.2 = true :=
      Text.blank_of_suffix ((List.drop_suffix _ rest).trans (List.suffix_cons c rest)) blank
    have line : Text.blank (Text.firstLine (c :: rest)) = true := Text.blank_firstLine blank
    rw [ih left]
    show (act (settle s c) (c :: rest)).2.1 = s.delimiter
    rw [act_delimiter_of_blank _ line, settle_delimiter]

/-! ## More text behind whole lines -/

theorem length_act_le {s : State} {c : Char} {rest : Text} (whole : Text.Whole (c :: rest)) :
    (act s (c :: rest)).1.more ≤ rest.length :=
  more_act_le (whole.mem (List.cons_ne_nil c rest))

/-- More text behind whole lines does not change a step, unless the step spills. -/
theorem step_append {s : State} {c : Char} {rest : Text} (whole : Text.Whole (c :: rest)) (b : Text)
    (apart : ∀ depth, (settle s c).modes.top = .blockComment depth → ¬ Spills (c :: rest) b) :
    step s c (rest ++ b) = ((step s c rest).1, (step s c rest).2 ++ b) := by
  have acts : act (settle s c) (c :: (rest ++ b)) = act (settle s c) (c :: rest) :=
    act_append whole (List.cons_ne_nil c rest) apart
  have within := length_act_le (s := settle s c) whole
  unfold step
  dsimp only
  rw [acts, List.take_append_of_le_length within, List.drop_append_of_le_length within]

/-- The state after a block comment is left with what was read. -/
def left (s : State) (read : Text) : State :=
  { s with modes := s.modes.pop, past := s.past.extend .commentBlock read }

/-- **A step that spills.** The block comment is left in any case. More text behind it makes the
blanks that end its line part of it. -/
theorem step_spilled {s : State} {depth : Nat} {rest b : Text}
    (whole : Text.Whole ('*' :: '/' :: rest)) (htop : (settle s '*').modes.top = .blockComment depth)
    (spills : Spills ('*' :: '/' :: rest) b) :
    ∃ w more, rest = w ++ '\n' :: more ∧ '\n' ∉ w ∧ Text.blank w = true ∧ Text.blank more = true ∧
      step s '*' ('/' :: rest) = (left (settle s '*') "*/".toList, rest) ∧
      step s '*' ('/' :: rest ++ b)
        = (left (settle s '*') ('*' :: '/' :: w), '\n' :: (more ++ b)) := by
  have blank : Text.blank rest = true := spills.blank
  have star : starFollows (rest ++ b) = true := spills.star
  have mem : '\n' ∈ rest := by
    have m := whole.mem (List.cons_ne_nil _ _)
    rcases List.mem_cons.mp m with he | m
    · exact absurd he (by decide)
    · rcases List.mem_cons.mp m with he | m
      · exact absurd he (by decide)
      · exact m
  obtain ⟨more, hrest⟩ := Text.exists_firstLine mem
  have hw := Text.notMem_firstLine rest
  have line := Text.firstLine_append mem b
  have reopens : ∀ t, Text.startsWith "*/*".toList ('*' :: '/' :: (rest ++ t)) = false := by
    intro t
    cases rest with
    | nil => exact absurd mem List.not_mem_nil
    | cons c rest =>
      have hc : '*' ≠ c := by
        rintro rfl
        exact absurd (Text.isBlank_of_blank blank '*' List.mem_cons_self) (by decide)
      simp [Text.startsWith, Text.after?, hc]
  have moves : ∀ t, blockMove (settle s '*') ('*' :: '/' :: (rest ++ t)) = ⟨.commentBlock,
      if starFollows (rest ++ t) then 1 + (Text.firstLine (rest ++ t)).length else 1,
      (settle s '*').modes.pop⟩ := by
    intro t
    rw [blockMove_eq, reopens]
    rfl
  have acts : ∀ t, act (settle s '*') ('*' :: '/' :: (rest ++ t))
      = (blockMove (settle s '*') ('*' :: '/' :: (rest ++ t)), (settle s '*').delimiter,
        (settle s '*').inMata) := by
    intro t
    unfold act
    rw [htop]
  have stays := starFollows_of_blank blank
  generalize Text.firstLine rest = w at hrest hw line
  rw [hrest, Text.blank_append] at blank
  obtain ⟨blankW, blankMore⟩ := Bool.and_eq_true_iff.mp blank
  refine ⟨w, more, hrest, hw, blankW, blankMore, ?_, ?_⟩
  · have acts := acts []
    rw [moves, List.append_nil, stays, if_neg (by decide)] at acts
    exact step_eq_of_act rfl acts
  · have acts := acts b
    rw [moves, star, if_pos rfl, line] at acts
    have read : ('/' :: (rest ++ b)).take (1 + w.length) = '/' :: w := by
      rw [Nat.add_comm, List.take_succ_cons, hrest, List.append_assoc,
        List.take_append_of_le_length (Nat.le_refl _), List.take_length]
    have unread : ('/' :: (rest ++ b)).drop (1 + w.length) = '\n' :: (more ++ b) := by
      rw [Nat.add_comm, List.drop_succ_cons, hrest, List.append_assoc, List.drop_left]
      rfl
    have stepped := step_eq_of_act (s := s) rfl acts
    rw [read, unread] at stepped
    exact stepped

/-- **More text behind whole lines.** Scanning goes on behind them from where it would end without
more text, unless a step spills on the way. -/
theorem run_append {s : State} (stack : CommentStack s.modes.entered) {a : Text}
    (whole : Text.Whole a) (b : Text) :
    run s (a ++ b) = run (run s a) b ∨
      ∃ s₀ depth rest, CommentStack s₀.modes.entered ∧ (settle s₀ '*').modes.top = .blockComment depth ∧
        '*' :: '/' :: rest <:+ a ∧ Spills ('*' :: '/' :: rest) b ∧
        run s a = run s₀ ('*' :: '/' :: rest) ∧
        run s (a ++ b) = run s₀ ('*' :: '/' :: rest ++ b) := by
  fun_induction run s a with
  | case1 s => exact Or.inl rfl
  | case2 s c rest next ih =>
    by_cases spill : ∃ depth, (settle s c).modes.top = .blockComment depth ∧ Spills (c :: rest) b
    · obtain ⟨depth, htop, spills⟩ := spill
      obtain ⟨t, ht⟩ := Text.startsWith_iff.mp spills.closes
      obtain ⟨rfl, rfl⟩ : c = '*' ∧ rest = '/' :: t := List.cons.inj ht
      exact Or.inr ⟨s, depth, t, stack, htop, List.suffix_rfl, spills,
        (run_cons s '*' ('/' :: t)).symm, rfl⟩
    · have shorter : next.2 <:+ c :: rest :=
        (List.drop_suffix _ rest).trans (List.suffix_cons c rest)
      rw [List.cons_append, run_cons,
        step_append whole b fun depth htop spills => spill ⟨depth, htop, spills⟩]
      rcases ih (step_commentStack stack c rest) (whole.of_suffix shorter) with same | spilled
      · exact Or.inl same
      · obtain ⟨s₀, depth, t, stack₀, htop, suffix, spills, ends, goesOn⟩ := spilled
        exact Or.inr ⟨s₀, depth, t, stack₀, htop, suffix.trans shorter, spills, ends, goesOn⟩

/-- What a block comment leaves when it does not leave another one. -/
theorem pop_outside {modes : ModeStack} (stack : CommentStack modes.entered) {depth : Nat}
    (htop : modes.top = .blockComment depth) (closed : ∀ depth', modes.pop.top ≠ .blockComment depth') :
    modes.pop.entered = [] ∨ modes.pop.entered = [.starComment] := by
  obtain ⟨entered⟩ := modes
  cases stack with
  | blockComment outer =>
    cases outer with
    | zero => exact Or.inl rfl
    | succ outer => exact absurd rfl (closed (outer + 1))
  | starBlock outer =>
    cases outer with
    | zero => exact Or.inr rfl
    | succ outer => exact absurd rfl (closed (outer + 1))
  | _ => exact absurd htop (by simp [ModeStack.top])

/-! ## The last mark -/

/-- Within whole lines, only the last line feed is read last, or one that a star comment takes
along. -/
theorem step_last {s : State} {c : Char} {rest : Text} (whole : Text.Whole (c :: rest))
    (last : (step s c rest).2 = []) :
    (c = '\n' ∧ rest = []) ∨ (step s c rest).1.modes.top = .continuation := by
  have read : rest.length ≤ (act (settle s c) (c :: rest)).1.more := List.drop_eq_nil_iff.mp last
  by_cases hr : rest = []
  · left
    refine ⟨?_, hr⟩
    have mem := whole.mem (List.cons_ne_nil c rest)
    rw [hr] at mem
    exact (List.mem_singleton.mp mem).symm
  · right
    have mem : '\n' ∈ rest := (whole.of_suffix (List.suffix_cons c rest)).mem hr
    have shorter := Text.length_firstLine_lt mem
    rcases @more_act c rest (settle s c) with within | ⟨-, -, top⟩
    · omega
    · exact top

theorem step_delimiter_lf (s : State) (rest : Text) :
    (step s '\n' rest).1.delimiter = s.delimiter := by
  show (act (settle s '\n') ('\n' :: rest)).2.1 = s.delimiter
  rw [act_delimiter_of_blank _ rfl, settle_delimiter]

/-- **Whole lines that leave nothing open end in statement text.** -/
theorem head?_run {s : State} (stack : CommentStack s.modes.entered) {a : Text}
    (whole : Text.Whole a) (nonempty : a ≠ []) (root : (run s a).modes.entered = [])
    (newline : (run s a).delimiter = .newline)
    (complete : (run s a).past.head?.map (·.kind) ≠ some .commentContinuation) :
    (run s a).past.head? = some ⟨.plainText, '\n'⟩ := by
  fun_induction run s a with
  | case1 => exact absurd rfl nonempty
  | case2 s c rest next ih =>
    by_cases last : next.2 = []
    · rw [last, run] at root newline complete ⊢
      rcases step_last whole last with ⟨rfl, rfl⟩ | top
      · have before : s.delimiter = .newline := by
          rw [← step_delimiter_lf s []]
          exact newline
        obtain ⟨kind, modes, stepped, kinds⟩ := step_lf stack before []
        have reached : next.1 = { s with modes, past := ⟨kind, '\n'⟩ :: s.past } :=
          congrArg Prod.fst stepped
        rw [reached] at root complete ⊢
        rcases kinds root with rfl | rfl
        · rfl
        · exact absurd rfl complete
      · have bottom : next.1.modes.top = .root := by
          rw [ModeStack.top, root]
          rfl
        exact absurd (bottom.symm.trans top) (by decide)
    · have shorter : next.2 <:+ c :: rest :=
        (List.drop_suffix _ rest).trans (List.suffix_cons c rest)
      exact ih (step_commentStack stack c rest) (whole.of_suffix shorter) last root newline complete

/-- The same marks, except that blanks which end a line may have become part of a block comment. -/
inductive Respaced : Past → Past → Prop where
  /-- The same. -/
  | same {p : Past} : Respaced p p
  /-- Blanks that were statement text or a comment are part of a block comment. -/
  | blanks {before : Past} {marks : List Mark} {w : Text} {kind : TokenKind}
      (blank : Text.blank w = true) (oneLine : '\n' ∉ w)
      (outside : kind = .plainText ∨ kind = .commentLine) :
      Respaced (marks ++ ⟨.plainText, '\n'⟩ :: before.extend kind w)
        (marks ++ ⟨.plainText, '\n'⟩ :: before.extend .commentBlock w)

/-- The states of a scan whose marks are respaced. -/
structure RespacedState (s s' : State) : Prop where
  /-- Both are inside of the same. -/
  modes : s'.modes = s.modes
  /-- The same ends a statement. -/
  delimiter : s'.delimiter = s.delimiter
  /-- Both belong to a mata region, or neither does. -/
  inMata : s'.inMata = s.inMata
  /-- The explicit mode was entered at the same place. -/
  since : s'.explicitSince = s.explicitSince
  /-- Only blanks differ in their kinds. -/
  past : Respaced s.past s'.past

/-- **More text behind whole lines that leave nothing open.** -/
theorem run_append_of_root {s : State} (stack : CommentStack s.modes.entered) {a : Text}
    (whole : Text.Whole a) (root : (run s a).modes.entered = [])
    (newline : (run s a).delimiter = .newline) (b : Text) :
    ∃ s', RespacedState (run s a) s' ∧ run s (a ++ b) = run s' b := by
  rcases run_append stack whole b with same | ⟨s₀, depth, rest, stack₀, htop, suffix, spills, ends, goesOn⟩
  · exact ⟨run s a, ⟨rfl, rfl, rfl, rfl, .same⟩, same⟩
  · have whole₀ := whole.of_suffix suffix
    obtain ⟨w, more, hrest, hw, blankW, blankMore, step₁, step₂⟩ := step_spilled whole₀ htop spills
    rw [run_cons, step₁] at ends
    rw [List.cons_append, run_cons, step₂] at goesOn
    have stackT := settle_commentStack stack₀ '*'
    generalize settle s₀ '*' = t at htop ends goesOn stackT
    have blankRest : Text.blank rest = true := by
      rw [hrest, Text.blank_append, blankW]
      exact blankMore
    have newlineT : t.delimiter = .newline := by
      rw [ends, run_delimiter_of_blank blankRest] at newline
      exact newline
    -- A block comment that was still open would not be left by blanks.
    have closed : ∀ depth', t.modes.pop.top ≠ .blockComment depth' := by
      intro depth' hd
      have kept := run_blank_of_blockComment (s := left t "*/".toList) hd blankRest
      rw [ends, kept] at root
      have bottom : t.modes.pop.top = .root := by
        show t.modes.pop.entered.headD .root = .root
        rw [show t.modes.pop.entered = [] from root]
        rfl
      rw [bottom] at hd
      exact absurd hd (by simp)
    have outside : t.modes.pop.entered = [] ∨ t.modes.pop.entered = [.starComment] :=
      pop_outside stackT htop closed
    let s₁ : State := { left t "*/".toList with
      past := (left t "*/".toList).past.extend (trailingKind t.modes.pop) w }
    let s₂ := left t ('*' :: '/' :: w)
    have ends₁ : run s a = run s₁ ('\n' :: more) := by
      rw [ends, hrest]
      exact run_trailing (s := left t "*/".toList) newlineT outside rfl blankW hw ('\n' :: more)
    rw [run_lf_outside (s := s₁) newlineT outside] at ends₁
    rw [run_lf_outside (s := s₂) newlineT outside] at goesOn
    -- Nothing spills among the blanks that are left.
    have wholeMore : Text.Whole more :=
      whole₀.of_suffix ⟨'*' :: '/' :: w ++ ['\n'], by rw [hrest]; simp⟩
    have goesOn₂ : run s (a ++ b) = run (run (lineAfter s₂) more) b := by
      rcases run_append (s := lineAfter s₂) .root wholeMore b with same | spilled
      · rw [goesOn, same]
      · obtain ⟨-, -, rest', -, -, suffix', -⟩ := spilled
        have star := suffix'.subset (List.mem_cons_self (a := '*'))
        exact absurd (Text.isBlank_of_blank blankMore '*' star) (by decide)
    have kept : (lineAfter s₂).past.map (·.char) = (lineAfter s₁).past.map (·.char) := by
      show '\n' :: (t.past.extend .commentBlock ('*' :: '/' :: w)).map (·.char)
        = '\n' :: ((t.past.extend .commentBlock "*/".toList).extend _ w).map (·.char)
      rw [Past.map_char_extend, Past.map_char_extend, Past.map_char_extend, List.reverse_cons,
        List.reverse_cons, List.append_assoc, List.append_assoc]
      rfl
    obtain ⟨alike, ink⟩ := Past.alike_of_chars kept
    have follows : Follows (lineAfter s₁).past (lineAfter s₂).past 0 (lineAfter s₁) (lineAfter s₂) :=
      ⟨rfl, rfl, rfl, Option.map_id'.symm, [], rfl, rfl, fun _ => Or.inl ink⟩
    have length : Text.byteLength (lineAfter s₂).past.text
        = Text.byteLength (lineAfter s₁).past.text + 0 := by
      rw [Past.text, Past.text, kept, Nat.add_zero]
    have final := run_follows alike length follows more
    obtain ⟨marks, past₁, past₂, -⟩ := final.past
    refine ⟨run (lineAfter s₂) more, ?_, goesOn₂⟩
    rw [ends₁]
    refine ⟨final.modes, final.delimiter, final.inMata, ?_, ?_⟩
    · rw [final.since]
      exact Option.map_id'
    · rw [past₁, past₂]
      refine @Respaced.blanks (t.past.extend .commentBlock "*/".toList) _ _ _ blankW hw ?_
      unfold trailingKind
      split
      · exact Or.inl rfl
      · exact Or.inr rfl

end DoRunner.Comments
