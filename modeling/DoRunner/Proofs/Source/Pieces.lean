import DoRunner.Proofs.Source.Interjection

/-!
# The statements and the marks that they come from

A mark that contributes a line feed to the statements ends one of them. So each statement is made of
a piece of the marks, between two such marks or at an end of the text (`exists_piece`). Where a
piece holds neither a comment nor a string, the scanner is outside everything throughout, and what
ends statements does not change within it; so it has looked for a directive wherever a line starts
in the piece, and has found none that would have ended its mode (`run_piece`).
-/

namespace DoRunner

open CommentScan (statementChars)

/-- Whether the mark contributes a line feed to the statements. -/
def Mark.breaks (mark : Mark) : Bool := statementChars mark == ['\n']

namespace Mark

theorem breaks_iff {mark : Mark} : mark.breaks = true ↔
    mark.kind = .semicolonDelimiter ∨
      mark.char = '\n' ∧ mark.kind.isComment = false ∧ mark.kind ≠ .namespaceBody := by
  obtain ⟨kind, c⟩ := mark
  have blank : (if c = '\n' then ' ' else c) ≠ '\n' := by
    split
    · decide
    · assumption
  rw [breaks, beq_iff_eq, statementChars]
  cases kind <;> simp [TokenKind.isComment, blank]

theorem notMem_lf_statementChars {mark : Mark} (solid : mark.breaks = false) :
    '\n' ∉ statementChars mark := by
  obtain ⟨kind, c⟩ := mark
  have blank : '\n' ≠ if c = '\n' then ' ' else c := by
    split
    · decide
    · exact Ne.symm ‹_›
  rw [breaks, beq_eq_false_iff_ne, ne_eq, statementChars] at solid
  rw [statementChars]
  cases kind <;> simp_all [TokenKind.isComment, eq_comm]

end Mark

/-- The mark belongs to no comment and to no string, as far as can be seen from it alone. -/
structure Mark.Bare (mark : Mark) : Prop where
  noComment : mark.kind.isComment = false
  noLiteral : mark.kind ≠ .stringLiteral
  noQuote : mark.char ≠ '"'

/-- A stretch of marks that makes one statement, and what stands before and after it. -/
structure Piece (marks before piece after : List Mark) : Prop where
  /-- The marks are these three stretches. -/
  split : marks = before ++ piece ++ after
  /-- The piece starts behind the end of a statement or with the text. -/
  begins : ∀ mark ∈ before.getLast?, mark.breaks = true
  /-- It goes on to the end of its statement or of the text. -/
  ends : ∀ mark ∈ after.head?, mark.breaks = true
  /-- No statement ends within it. -/
  solid : ∀ mark ∈ piece, mark.breaks = false

theorem exists_piece_of_lines {marks : List Mark} {front back : List Text} {line : Text}
    (parts : Text.lines (marks.flatMap statementChars) = front ++ line :: back) :
    ∃ before piece after, Piece marks before piece after ∧
      line = piece.flatMap statementChars ∧ (front = [] ↔ before = []) := by
  induction marks generalizing front line with
  | nil =>
    obtain ⟨rfl, rfl⟩ : front = [] ∧ line = [] := by
      cases front with
      | nil => exact ⟨rfl, (List.cons.inj parts).1.symm⟩
      | cons part front => exact absurd (List.cons.inj parts).2 (by simp)
    exact ⟨[], [], [], ⟨rfl, by simp, by simp, by simp⟩, rfl, by simp⟩
  | cons mark marks ih =>
    rw [List.flatMap_cons] at parts
    -- a mark in front of a piece that is not the first belongs to what stands before it
    have further {before piece after : List Mark} (isPiece : Piece marks before piece after)
        (begins : before = [] → mark.breaks = true) : Piece (mark :: marks) (mark :: before) piece after := by
      refine ⟨congrArg (mark :: ·) isPiece.split, ?_, isPiece.ends, isPiece.solid⟩
      cases before with
      | nil => simpa using begins rfl
      | cons other before =>
        rw [List.getLast?_cons_cons]
        exact isPiece.begins
    by_cases breaks : mark.breaks = true
    · rw [show statementChars mark = ['\n'] from beq_iff_eq.mp breaks] at parts
      cases front with
      | nil =>
        refine ⟨[], [], mark :: marks, ⟨rfl, by simp, by simpa using breaks, by simp⟩, ?_, by simp⟩
        exact (List.cons.inj parts).1.symm
      | cons first front =>
        obtain ⟨before, piece, after, isPiece, spelt, -⟩ := ih (List.cons.inj parts).2
        exact ⟨mark :: before, piece, after, further isPiece fun _ => breaks, spelt, by simp⟩
    · have solid := Bool.eq_false_iff.mpr breaks
      obtain ⟨first, others, rest⟩ :=
        List.exists_cons_of_ne_nil (Text.lines_ne_nil (marks.flatMap statementChars))
      have word := Text.lines_of_notMem (Mark.notMem_lf_statementChars solid)
      have joined := (@Text.splitAt_append '\n' _ _ [] word).2 rest
      rw [List.nil_append] at joined
      rw [show Text.lines _ = _ from joined] at parts
      cases front with
      | nil =>
        obtain ⟨rfl, rfl⟩ := List.cons.inj parts
        obtain ⟨before, piece, after, isPiece, rfl, start⟩ := @ih [] _ rest
        obtain rfl := start.mp rfl
        refine ⟨[], mark :: piece, after, ⟨?_, by simp, isPiece.ends, ?_⟩, rfl, by simp⟩
        · rw [isPiece.split]
          rfl
        · exact List.forall_mem_cons.mpr ⟨solid, isPiece.solid⟩
      | cons joint front =>
        obtain ⟨rfl, rfl⟩ := List.cons.inj parts
        obtain ⟨before, piece, after, isPiece, spelt, start⟩ := @ih (first :: front) _ rest
        refine ⟨mark :: before, piece, after, further isPiece fun none => ?_, spelt, by simp⟩
        exact absurd (start.mpr none) (List.cons_ne_nil _ _)

/-- **Each line of the statements comes from a piece of the marks.** -/
theorem exists_piece {marks : List Mark} {line : Text}
    (m : line ∈ Text.lines (marks.flatMap statementChars)) :
    ∃ before piece after, Piece marks before piece after ∧ line = piece.flatMap statementChars := by
  obtain ⟨front, back, parts⟩ := List.append_of_mem m
  obtain ⟨before, piece, after, isPiece, spelt, -⟩ := exists_piece_of_lines parts
  exact ⟨before, piece, after, isPiece, spelt⟩

namespace Comments

/-! ## Reading a piece -/

/-- How a bare piece is read from `s` on. -/
structure ReadBare (s : State) (piece after : List Mark) : Prop where
  /-- All of it is statement text. -/
  kinds : ∀ mark ∈ piece, mark.kind = textKind s.delimiter
  /-- No terminator is in it. -/
  noTerminator : ∀ mark ∈ piece, s.delimiter ≠ .explicit mark.char
  /-- No line that starts in it is a directive that ends the mode. -/
  noDirective : ∀ x y, piece = x ++ y → y ≠ [] → Past.atLineStart (x.reverse ++ s.past) = true →
    Line.directive? (Text.firstLine ((y ++ after).map (·.char))) ≠ some (leaving s.delimiter)
  /-- While lines end statements, its line ends behind it. -/
  ended : s.delimiter = .newline → ∀ mark ∈ after.head?, mark.char = '\n'

theorem chars_of_run {s : State} {left : Text} {marks : List Mark}
    (past : (run s left).past = marks.reverse ++ s.past) : marks.map (·.char) = left := by
  obtain ⟨later, past', spelt⟩ := exists_past_run s left
  rw [past', List.append_cancel_right_eq] at past
  rw [← spelt, past, List.reverse_reverse]

/-- **The first of the marks** that are made from `s` on is made by the first step, and so are the
others that this step makes. -/
theorem run_first {s : State} {left : Text} {mark : Mark} {marks : List Mark}
    (past : (run s left).past = (mark :: marks).reverse ++ s.past) :
    ∃ c rest, left = c :: rest ∧ mark.char = c ∧
      (act (settle s c) (c :: rest)).1.kind = mark.kind ∧
      ∃ later, marks = (rest.take (act (settle s c) (c :: rest)).1.more).map (Mark.mk mark.kind)
          ++ later ∧
        (run (step s c rest).1 (step s c rest).2).past
          = later.reverse ++ (step s c rest).1.past := by
  cases left with
  | nil =>
    rw [run] at past
    have length := congrArg List.length past
    simp at length
    omega
  | cons c rest =>
    obtain ⟨later, past', -⟩ := exists_past_run (step s c rest).1 (step s c rest).2
    have read : mark :: marks = (marksRead s c rest).reverse ++ later.reverse := by
      rw [run_cons, past', past_step, ← List.append_assoc, List.append_cancel_right_eq] at past
      rw [← List.reverse_reverse (mark :: marks), ← past, List.reverse_append]
    rw [show (marksRead s c rest).reverse = _ from List.reverse_reverse _] at read
    obtain ⟨rfl, rfl⟩ := List.cons.inj read
    exact ⟨c, rest, rfl, rfl, rfl, later.reverse, rfl, by rw [past', List.reverse_reverse]⟩

/-- What opens a string ends in a double quote. -/
theorem quote_of_opens? {past : Past} {c : Char} {rest : Text} {mode : Mode} {more : Nat}
    (h : Quote.opens? past (c :: rest) = some (mode, more)) :
    (c = '"' ∧ more = 0) ∨ c = '\x60' ∧ more = 1 ∧ ∃ t, rest = '"' :: t := by
  rcases Quote.opens?_cases h with ⟨-, one, t, opens⟩ | ⟨-, none, t, opens⟩
  · obtain ⟨compound, quote⟩ := List.cons.inj opens
    exact .inr ⟨compound, one, t, quote⟩
  · exact .inl ⟨(List.cons.inj opens).1, none⟩

/-- **A bare piece is read outside everything,** one character after another. -/
theorem run_piece {s : State} (root : s.modes = .atRoot) {left : Text} {piece after : List Mark}
    (past : (run s left).past = (piece ++ after).reverse ++ s.past)
    (ends : ∀ mark ∈ after.head?, mark.breaks = true) (solid : ∀ mark ∈ piece, mark.breaks = false)
    (bare : ∀ mark ∈ piece, mark.Bare) : ReadBare s piece after := by
  induction piece generalizing s left with
  | nil =>
    refine ⟨by simp, by simp, ?_, fun newline mark m => ?_⟩
    · rintro x y split nonempty
      exact absurd (List.append_eq_nil_iff.mp split.symm).2 nonempty
    · obtain ⟨more, rfl⟩ := List.head?_eq_some_iff.mp m
      obtain ⟨c, rest, rfl, rfl, kind, -⟩ := run_first past
      rcases Mark.breaks_iff.mp (ends mark m) with terminator | ⟨lf, -⟩
      · have delimiter := (isDelimiter_act (by rw [kind, terminator]; rfl)).2
        rw [settle_delimiter, newline] at delimiter
        exact absurd delimiter (by simp)
      · exact lf
  | cons mark piece ih =>
    obtain ⟨c, rest, rfl, rfl, kind, later, others, past'⟩ := run_first past
    have plain := bare mark List.mem_cons_self
    rw [settle_of_atRoot root, act_of_atRoot root] at kind others
    obtain ⟨noDirective, delimiter, ⟨mode, more, opens, move⟩ | ⟨-, move⟩ | ⟨other, move⟩⟩ :=
      rootStep_cases (by rw [kind]; exact plain.noComment)
    · -- the double quote of the opening would be in the piece, or end it
      rw [move] at kind others
      rcases quote_of_opens? opens with ⟨quote, -⟩ | ⟨-, rfl, t, rfl⟩
      · exact absurd quote plain.noQuote
      · have next : piece ++ after = ⟨mark.kind, '"'⟩ :: later := others
        cases piece with
        | nil =>
          rw [List.nil_append] at next
          rcases Mark.breaks_iff.mp (ends ⟨mark.kind, '"'⟩ (by rw [next]; rfl)) with
            terminator | ⟨lf, -⟩
          · have never := plain_literalKind s.delimiter
            rw [show literalKind s.delimiter = .semicolonDelimiter from kind.trans terminator] at never
            exact Bool.noConfusion never
          · exact absurd lf (by simp)
        | cons other piece =>
          obtain ⟨rfl, -⟩ := List.cons.inj next
          exact absurd rfl (bare _ (List.mem_cons_of_mem _ List.mem_cons_self)).noQuote
    · -- a terminator is the end of a piece
      rw [move] at kind
      have breaks := Mark.breaks_iff.mpr (.inl kind.symm)
      exact absurd (breaks.symm.trans (solid mark List.mem_cons_self)) Bool.noConfusion
    · -- ordinary text, behind which the scanner is as before
      rw [move] at kind others
      obtain rfl : piece ++ after = later := others
      have acts : act (settle s mark.char) (mark.char :: rest) = rootStep s (mark.char :: rest) := by
        rw [settle_of_atRoot root, act_of_atRoot root]
      have root' : (step s mark.char rest).1.modes = .atRoot := by
        show (act (settle s mark.char) (mark.char :: rest)).1.modes = _
        rw [acts, move]
        exact root
      have delimiter' : (step s mark.char rest).1.delimiter = s.delimiter := by
        show (act (settle s mark.char) (mark.char :: rest)).2.1 = _
        rw [acts, delimiter]
      have behind : (step s mark.char rest).1.past = mark :: s.past := by
        rw [past_step, marksRead, acts, move]
        exact congrArg (⟨·, mark.char⟩ :: s.past) kind
      have chars := chars_of_run past
      obtain ⟨kinds, noTerminator, noDirective', ended⟩ := ih root' past'
        (fun m h => solid m (List.mem_cons_of_mem _ h)) (fun m h => bare m (List.mem_cons_of_mem _ h))
      rw [delimiter'] at kinds noTerminator noDirective' ended
      rw [behind] at noDirective'
      refine ⟨List.forall_mem_cons.mpr ⟨kind.symm, kinds⟩,
        List.forall_mem_cons.mpr ⟨other, noTerminator⟩, ?_, ended⟩
      intro x y split nonempty start
      cases x with
      | nil =>
        rw [List.nil_append] at split
        rw [← split, chars]
        exact noDirective start
      | cons first x =>
        obtain ⟨rfl, rfl⟩ := List.cons.inj split
        refine noDirective' x y rfl nonempty ?_
        rwa [List.reverse_cons, List.append_assoc] at start

/-! ## Where a piece starts -/

/-- **What a step inside something does:** it reads on in a comment, ends a line comment with its
line, or reads on in a string. -/
theorem act_inside {s : State} (stack : CommentStack s.modes.entered) (inside : s.modes ≠ .atRoot)
    (rest : Text) : (act s rest).2.1 = s.delimiter ∧
      ((act s rest).1.kind.isComment = true ∨
        rest.head? = some '\n' ∧ (act s rest).1 = ⟨textKind s.delimiter, 0, .atRoot⟩ ∨
        s.modes.top.isString = true ∧ (act s rest).1 = stringMove s rest) := by
  obtain ⟨⟨entered⟩, delimiter, since, inMata, past⟩ := s
  cases stack with
  | root => exact absurd rfl inside
  | plainString => exact ⟨rfl, .inr (.inr ⟨rfl, rfl⟩)⟩
  | compoundString outer => exact ⟨rfl, .inr (.inr ⟨rfl, rfl⟩)⟩
  | continuation =>
    refine ⟨rfl, .inl ?_⟩
    show (continuationMove _ rest).kind.isComment = true
    rw [continuationMove_eq]
    split
    · rfl
    · split <;> rfl
  | starComment =>
    refine ⟨rfl, .inl ?_⟩
    show (starCommentMove _ rest).kind.isComment = true
    rw [starCommentMove_eq]
    split
    · rfl
    · split
      · split <;> rfl
      · split <;> rfl
  | blockComment outer =>
    refine ⟨rfl, .inl ?_⟩
    show (blockMove _ rest).kind.isComment = true
    unfold blockMove
    split <;> rfl
  | starBlock outer =>
    refine ⟨rfl, .inl ?_⟩
    show (blockMove _ rest).kind.isComment = true
    unfold blockMove
    split <;> rfl
  | lineComment =>
    refine ⟨rfl, ?_⟩
    show (lineCommentMove _ rest).kind.isComment = true ∨
      rest.head? = some '\n' ∧ lineCommentMove _ rest = _ ∨ _
    rw [lineCommentMove_eq]
    split
    · rename_i lf
      refine .inr (.inl ⟨lf, ?_⟩)
      cases delimiter <;> rfl
    · exact .inl rfl

/-- What may be open behind the end of a statement: nothing, or a compound string over lines. -/
def AtBreak (s : State) : Prop :=
  s.modes = .atRoot ∧ (s.delimiter = .newline → s.past.atLineStart = true) ∨
    s.delimiter = .newline ∧ ∃ depth, s.modes.top = .compoundString depth

/-- Before a line feed, no plain string is left open. -/
theorem top_settle_lf {s : State} (stack : CommentStack s.modes.entered)
    (string : (settle s '\n').modes.top.isString = true) :
    ∃ depth, (settle s '\n').modes.top = .compoundString depth := by
  obtain ⟨⟨entered⟩, delimiter, since, inMata, past⟩ := s
  unfold settle at string ⊢
  cases stack with
  | compoundString outer => exact ⟨outer + 1, rfl⟩
  | plainString => exact Bool.noConfusion string
  | starComment =>
    dsimp only [ModeStack.top, List.headD_cons] at string
    split at string <;> exact Bool.noConfusion string
  | root => exact Bool.noConfusion string
  | lineComment => exact Bool.noConfusion string
  | continuation => exact Bool.noConfusion string
  | blockComment outer => exact Bool.noConfusion string
  | starBlock outer => exact Bool.noConfusion string

/-- The only line feed that a step in a string reads is the first of what it reads. -/
theorem lf_of_mem_read {s : State} {c : Char} {rest : Text}
    (m : '\n' ∈ c :: rest.take (stringMove s (c :: rest)).more) : c = '\n' := by
  rcases List.mem_cons.mp m with rfl | m
  · rfl
  · have onLine : (stringMove s (c :: rest)).more ≤ (Text.firstLine rest).length :=
      Quote.more_step s.modes
    have within := (List.take_prefix_take_left onLine).subset m
    rw [Text.take_firstLine] at within
    exact absurd within (Text.notMem_firstLine rest)

section Break

variable {s : State} {c : Char} {rest : Text} {mark : Mark}

/-- What a step says of each mark that it makes. -/
theorem of_mem_marksRead (m : mark ∈ marksRead s c rest) :
    (act (settle s c) (c :: rest)).1.kind = mark.kind ∧
      mark.char ∈ c :: rest.take (act (settle s c) (c :: rest)).1.more := by
  obtain ⟨d, read, rfl⟩ := List.mem_map.mp (List.mem_reverse.mp m)
  exact ⟨rfl, read⟩

/-- A step that reads one character makes one mark. -/
theorem marksRead_single (m : mark ∈ marksRead s c rest)
    (one : (act (settle s c) (c :: rest)).1.more = 0) :
    marksRead s c rest = [mark] ∧ mark.char = c := by
  have made : marksRead s c rest = [⟨(act (settle s c) (c :: rest)).1.kind, c⟩] := by
    rw [marksRead, one]
    rfl
  rw [made] at m
  obtain rfl := List.mem_singleton.mp m
  exact ⟨made, rfl⟩

/-- Behind one character that leaves nothing open, a statement is over if the character ends a
line. -/
theorem atBreak_of_single {kind : TokenKind} (m : mark ∈ marksRead s c rest)
    (move : (act (settle s c) (c :: rest)).1 = ⟨kind, 0, .atRoot⟩)
    (start : (act (settle s c) (c :: rest)).2.1 = .newline → c = '\n') :
    marksRead s c rest = [mark] ∧ AtBreak (step s c rest).1 := by
  obtain ⟨made, spelt⟩ := marksRead_single m (by rw [move])
  refine ⟨made, .inl ⟨congrArg Move.modes move, fun newline => ?_⟩⟩
  rw [past_step, made]
  exact beq_iff_eq.mpr (spelt.trans (start newline))

/-- Outside everything, a statement ends with its line or at a terminator. -/
theorem read_break_root (root : (settle s c).modes = .atRoot) (m : mark ∈ marksRead s c rest)
    (breaks : mark.breaks = true)
    (noComment : (act (settle s c) (c :: rest)).1.kind.isComment = false) :
    marksRead s c rest = [mark] ∧ AtBreak (step s c rest).1 := by
  obtain ⟨kind, read⟩ := of_mem_marksRead m
  have single {kind : TokenKind} := @atBreak_of_single s c rest mark kind m
  rw [act_of_atRoot root] at kind read noComment single
  obtain ⟨-, delimiter, ⟨mode, more, opens, move⟩ | ⟨explicit, move⟩ | ⟨other, move⟩⟩ :=
    rootStep_cases noComment
  · -- the opening of a string holds no line feed, and is no terminator
    rw [move] at kind read
    exfalso
    rcases Mark.breaks_iff.mp breaks with terminator | ⟨lf, -⟩
    · have never := plain_literalKind (settle s c).delimiter
      rw [show literalKind (settle s c).delimiter = _ from kind.trans terminator] at never
      exact Bool.noConfusion never
    · rw [lf] at read
      rcases quote_of_opens? opens with ⟨rfl, rfl⟩ | ⟨rfl, rfl, t, rfl⟩
      · simp at read
      · simp at read
  · rw [root] at move
    refine single move fun newline => ?_
    rw [delimiter, explicit] at newline
    exact absurd newline (by simp)
  · rw [root] at move
    refine single move fun newline => ?_
    rw [move] at kind read
    rcases Mark.breaks_iff.mp breaks with terminator | ⟨lf, -⟩
    · rw [← kind, ← delimiter, newline] at terminator
      exact TokenKind.noConfusion terminator
    · exact (List.mem_singleton.mp read).symm.trans lf

/-- In a string, a statement ends with its line, and only while lines end statements. -/
theorem read_break_string (stack : CommentStack s.modes.entered)
    (string : (settle s c).modes.top.isString = true)
    (move : (act (settle s c) (c :: rest)).1 = stringMove (settle s c) (c :: rest))
    (delimiter : (act (settle s c) (c :: rest)).2.1 = s.delimiter)
    (m : mark ∈ marksRead s c rest) (breaks : mark.breaks = true) :
    marksRead s c rest = [mark] ∧ AtBreak (step s c rest).1 := by
  obtain ⟨kind, read⟩ := of_mem_marksRead m
  rw [move] at kind read
  rcases Mark.breaks_iff.mp breaks with terminator | ⟨lf, -, notBody⟩
  · have never := kind.trans terminator
    unfold stringMove at never
    split at never <;> exact TokenKind.noConfusion never
  · have newline : s.delimiter = .newline := by
      cases hd : s.delimiter with
      | newline => rfl
      | explicit terminator =>
        rw [← kind, stringMove, settle_delimiter, hd] at notBody
        exact absurd rfl notBody
    rw [lf] at read
    obtain rfl := lf_of_mem_read read
    have blank : stringMove (settle s '\n') ('\n' :: rest)
        = ⟨.stringLiteral, 0, (settle s '\n').modes⟩ := by
      rw [stringMove, Quote.step_of_isBlank (by decide), settle_delimiter, newline]
      rfl
    obtain ⟨depth, compound⟩ := top_settle_lf stack string
    refine ⟨(marksRead_single m (by rw [move, blank])).1, .inr ⟨?_, depth, ?_⟩⟩
    · exact delimiter.trans newline
    · show (act (settle s '\n') ('\n' :: rest)).1.modes.top = _
      rw [move, blank, compound]

/-- **The end of a statement is read by a step of its own,** which leaves nothing open but a
compound string over lines. -/
theorem read_break (stack : CommentStack s.modes.entered) (m : mark ∈ marksRead s c rest)
    (breaks : mark.breaks = true) :
    marksRead s c rest = [mark] ∧ AtBreak (step s c rest).1 := by
  have noComment : (act (settle s c) (c :: rest)).1.kind.isComment = false := by
    rw [(of_mem_marksRead m).1]
    rcases Mark.breaks_iff.mp breaks with terminator | ⟨-, plain, -⟩
    · rw [terminator]
      rfl
    · exact plain
  by_cases root : (settle s c).modes = .atRoot
  · exact read_break_root root m breaks noComment
  · obtain ⟨delimiter, comment | ⟨lf, move⟩ | ⟨string, move⟩⟩ :=
      act_inside (settle_commentStack stack c) root (c :: rest)
    · exact absurd (noComment.symm.trans comment) Bool.noConfusion
    · exact atBreak_of_single m move fun _ => Option.some.inj lf
    · exact read_break_string stack string move (delimiter.trans (settle_delimiter s c)) m breaks

end Break

theorem Reached.commentStack {initial : DelimiterMode} {text : Text} {s : State} {left : Text}
    (h : Reached initial text s left) : CommentStack s.modes.entered := by
  induction h with
  | start => exact .root
  | step before ih => exact step_commentStack ih _ _

theorem Reached.run_eq {initial : DelimiterMode} {text : Text} {s : State} {left : Text}
    (h : Reached initial text s left) :
    Comments.run s left = Comments.run (.initial initial) text := by
  induction h with
  | start => rfl
  | step before ih => rw [← ih, run_cons]

theorem Reached.delimiter_cases {initial : DelimiterMode} {text : Text} {s : State} {left : Text}
    (h : Reached initial text s left) (known : initial = .newline ∨ initial = .semicolon) :
    s.delimiter = .newline ∨ s.delimiter = .semicolon := by
  induction h with
  | start => exact known
  | @step s c rest before ih =>
    show (act (settle s c) (c :: rest)).2.1 = _ ∨ (act (settle s c) (c :: rest)).2.1 = _
    rcases act_delimiter_cases (settle s c) (c :: rest) with same | other
    · rwa [same, settle_delimiter]
    · exact other

/-- **The pass comes by where a piece starts,** outside everything or in a compound string. -/
theorem exists_start {initial : DelimiterMode} {text : Text} {before piece after : List Mark}
    (isPiece : Piece (scanComments text initial).marks before piece after) :
    ∃ s left, Reached initial text s left ∧ s.past = before.reverse ∧
      (run s left).past = (piece ++ after).reverse ++ s.past ∧ AtBreak s := by
  have whole : (run (.initial initial) text).past = (piece ++ after).reverse ++ before.reverse := by
    rw [← List.reverse_append, ← List.append_assoc, ← isPiece.split]
    exact (List.reverse_reverse _).symm
  rcases List.eq_nil_or_concat before with rfl | ⟨front, mark, rfl⟩
  · exact ⟨_, _, .start, rfl, whole, .inl ⟨rfl, fun _ => rfl⟩⟩
  · have turned : (front.concat mark).reverse = mark :: front.reverse := by
      rw [List.concat_eq_append, List.reverse_append]
      rfl
    rw [turned] at whole
    obtain ⟨s, c, rest, newer, older, reached, read, behind⟩ := Reached.start.run.exists_step whole
    have breaks : mark.breaks = true :=
      isPiece.begins mark (by rw [List.concat_eq_append, List.getLast?_concat]; rfl)
    obtain ⟨single, atBreak⟩ := read_break reached.commentStack
      (by rw [read]; exact List.mem_append_right _ List.mem_cons_self) breaks
    have past : (step s c rest).1.past = mark :: front.reverse := by
      rw [single] at read
      obtain ⟨rfl, last⟩ | ⟨rfl, none⟩ := List.append_eq_singleton_iff.mp read.symm
      · obtain ⟨-, rfl⟩ := List.cons.inj last
        rw [past_step, single, behind]
        rfl
      · exact absurd none (by simp)
    refine ⟨_, _, reached.step, past.trans turned.symm, ?_, atBreak⟩
    rw [reached.step.run_eq, past, whole]

/-- **The pass is outside everything where a bare piece starts,** and while lines end statements a
line starts there. -/
theorem exists_start_of_bare {initial : DelimiterMode} {text : Text}
    {before piece after : List Mark}
    (isPiece : Piece (scanComments text initial).marks before piece after) (nonempty : piece ≠ [])
    (bare : ∀ mark ∈ piece, mark.Bare) :
    ∃ s left, Reached initial text s left ∧ s.past = before.reverse ∧
      (run s left).past = (piece ++ after).reverse ++ s.past ∧ s.modes = .atRoot ∧
      (s.delimiter = .newline → s.past.atLineStart = true) := by
  obtain ⟨s, left, reached, behind, past, ⟨root, start⟩ | ⟨newline, depth, string⟩⟩ :=
    exists_start isPiece
  · exact ⟨s, left, reached, behind, past, root, start⟩
  · -- what is read in a string is marked as such
    obtain ⟨mark, more, rfl⟩ := List.exists_cons_of_ne_nil nonempty
    obtain ⟨c, rest, -, -, kind, -⟩ := run_first past
    have settled : settle s c = s := by
      unfold settle
      rw [string]
    have inString : act s (c :: rest) = (stringMove s (c :: rest), s.delimiter, s.inMata) := by
      unfold act
      rw [string]
    rw [settled, inString, stringMove, newline] at kind
    exact absurd kind.symm (bare mark List.mem_cons_self).noLiteral

namespace ReadBare

variable {s : State} {piece after : List Mark} (reads : ReadBare s piece after)
  (newline : s.delimiter = .newline) (solid : ∀ mark ∈ piece, mark.breaks = false)

include reads newline

/-- While lines end statements, a bare piece goes to the statements as it stands. -/
theorem spelled : piece.flatMap statementChars = piece.map (·.char) := by
  rw [List.map_eq_flatMap]
  refine List.flatMap_congr fun mark m => ?_
  rw [statementChars, reads.kinds mark m, newline]
  rfl

include solid

/-- And it is a whole line of the source. -/
theorem firstLine : Text.firstLine ((piece ++ after).map (·.char)) = piece.map (·.char) := by
  have oneLine : '\n' ∉ piece.map (·.char) := by
    rw [← reads.spelled newline]
    intro m
    obtain ⟨mark, inPiece, lf⟩ := List.mem_flatMap.mp m
    exact Mark.notMem_lf_statementChars (solid mark inPiece) lf
  rw [List.map_append]
  cases after with
  | nil => rw [List.map_nil, List.append_nil, Text.firstLine_of_notMem oneLine]
  | cons mark after =>
    rw [List.map_cons, reads.ended newline mark rfl, Text.firstLine_append_lf oneLine]

end ReadBare

end Comments

end DoRunner
