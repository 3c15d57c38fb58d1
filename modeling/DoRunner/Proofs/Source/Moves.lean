import DoRunner.Source.Comments

/-!
# What a step of the comment pass can do

Outside everything, a step reads a directive, the opener of a comment, the opening of a string, a
terminator, or one character of a statement. Facts about such steps are read off this list
(`rootStep_inv`), so the rules of the two delimiter modes are told apart here and nowhere else.
Inside of anything, what ends a statement stays as it is (`act_inv`), and what nests in itself
changes its depth or is left (`entered_blockMove`, `Quote.entered_compoundString`).
-/

namespace DoRunner

namespace Quote

/-- **What opens a string:** a compound quote, or a double quote that is not part of one. -/
theorem opens?_cases {past : Past} {rest : Text} {mode : Mode} {more : Nat}
    (h : opens? past rest = some (mode, more)) :
    (mode = .compoundString 1 ∧ more = 1 ∧ ∃ t, rest = '\x60' :: '"' :: t) ∨
      mode = .plainString ∧ more = 0 ∧ ∃ t, rest = '"' :: t := by
  unfold opens? at h
  split at h
  · obtain ⟨rfl, rfl⟩ := Prod.mk.inj (Option.some.inj h)
    exact .inl ⟨rfl, rfl, _, rfl⟩
  · split at h
    · exact absurd h (by simp)
    · obtain ⟨rfl, rfl⟩ := Prod.mk.inj (Option.some.inj h)
      exact .inr ⟨rfl, rfl, _, rfl⟩
  · exact absurd h (by simp)

/-- A step in a plain string stays in it or leaves it. -/
theorem entered_plainString (below : List Mode) (rest : Text) :
    (step ⟨.plainString :: below⟩ rest).1.entered = .plainString :: below ∨
      (step ⟨.plainString :: below⟩ rest).1.entered = below := by
  show ModeStack.entered (if _ then _ else _) = _ ∨ ModeStack.entered (if _ then _ else _) = _
  split
  · exact .inr rfl
  · exact .inl rfl

/-- A step in a compound string changes how deep the string is, or leaves it. -/
theorem entered_compoundString (outer : Nat) (below : List Mode) (rest : Text) :
    (∃ outer', (step ⟨.compoundString (outer + 1) :: below⟩ rest).1.entered
        = .compoundString (outer' + 1) :: below) ∨
      (step ⟨.compoundString (outer + 1) :: below⟩ rest).1.entered = below := by
  unfold step
  dsimp only [ModeStack.top, List.headD_cons]
  split
  · exact .inl ⟨outer + 1, rfl⟩
  · cases outer with
    | zero => exact .inr rfl
    | succ outer => exact .inl ⟨outer, rfl⟩
  · exact .inl ⟨outer, rfl⟩

end Quote

namespace Comments

/-! ## By delimiter mode -/

/-- The directive that ends a delimiter mode. -/
def leaving : DelimiterMode → Line.Directive
  | .newline => .explicit
  | .explicit _ => .newline

/-- The delimiter mode that this directive puts in force. -/
def entering : DelimiterMode → DelimiterMode
  | .newline => .semicolon
  | .explicit _ => .newline

/-- The kind of statement text. -/
def textKind : DelimiterMode → TokenKind
  | .newline => .plainText
  | .explicit _ => .namespaceBody

/-- The kind of a string literal. -/
def literalKind (delimiter : DelimiterMode) : TokenKind :=
  if delimiter.isExplicit then .namespaceBody else .stringLiteral

theorem plain_literalKind (delimiter : DelimiterMode) :
    (literalKind delimiter).isDelimiter = false := by
  cases delimiter <;> rfl

/-! ## Outside everything -/

/-- **What opens a comment with slashes.** -/
theorem slashComment?_cases {s : State} {allowed : Past → Bool} {rest : Text} {move : Move}
    (h : slashComment? s allowed rest = some move) :
    (∃ t, rest = '/' :: '/' :: '/' :: t ∧
        move = ⟨.commentContinuation, 2, s.modes.push .continuation⟩) ∨
      (∃ t, rest = '/' :: '/' :: t ∧ move = ⟨.commentLine, 1, s.modes.push .lineComment⟩) ∨
      ∃ t, rest = '/' :: '*' :: t ∧ move = ⟨.commentBlock, 1, s.modes.push (.blockComment 1)⟩ := by
  unfold slashComment? at h
  split at h
  · split at h
    · exact .inl ⟨_, rfl, (Option.some.inj h).symm⟩
    · split at h
      · exact .inr (.inl ⟨_, rfl, (Option.some.inj h).symm⟩)
      · exact absurd h (by simp)
  · split at h
    · exact .inr (.inl ⟨_, rfl, (Option.some.inj h).symm⟩)
    · exact absurd h (by simp)
  · exact .inr (.inr ⟨_, rfl, (Option.some.inj h).symm⟩)
  · exact absurd h (by simp)

theorem isComment_slashComment? {s : State} {allowed : Past → Bool} {rest : Text} {move : Move}
    (h : slashComment? s allowed rest = some move) : move.kind.isComment = true := by
  obtain ⟨t, -, rfl⟩ | ⟨t, -, rfl⟩ | ⟨t, -, rfl⟩ := slashComment?_cases h <;> rfl

/-! Without a slash ahead no comment opens, and one that is open goes on. -/

section NoSlash

variable {rest : Text} (noSlash : rest.head? ≠ some '/') (s : State)

include noSlash

theorem slashComment?_of_noSlash (allowed : Past → Bool) : slashComment? s allowed rest = none := by
  cases opens : slashComment? s allowed rest with
  | none => rfl
  | some move =>
    obtain ⟨t, rfl, -⟩ | ⟨t, rfl, -⟩ | ⟨t, rfl, -⟩ := slashComment?_cases opens <;>
      exact absurd rfl noSlash

theorem starCommentMove_of_noSlash : starCommentMove s rest = ⟨.commentLine, 0, s.modes⟩ := by
  unfold starCommentMove
  split <;> first | exact absurd rfl noSlash | rfl

theorem blockMove_of_noSlash (noStar : rest.head? ≠ some '*') :
    blockMove s rest = ⟨.commentBlock, 0, s.modes⟩ := by
  unfold blockMove
  split <;> first | exact absurd rfl noSlash | exact absurd rfl noStar | rfl

end NoSlash

/-- What a step within a statement can read. -/
inductive StatementMove (s : State) (rest : Text) : Move → Prop where
  /-- A comment opens. -/
  | comment {allowed : Past → Bool} {move : Move} (opens : slashComment? s allowed rest = some move) :
      StatementMove s rest move
  /-- A string opens. -/
  | string {mode : Mode} {more : Nat} (opens : Quote.opens? s.past rest = some (mode, more)) :
      StatementMove s rest ⟨literalKind s.delimiter, more, s.modes.push mode⟩
  /-- The statement ends. -/
  | terminator {c : Char} (explicit : s.delimiter = .explicit c) (here : rest.head? = some c) :
      StatementMove s rest ⟨.semicolonDelimiter, 0, s.modes⟩
  /-- The statement goes on. -/
  | text (goesOn : ∀ c, s.delimiter = .explicit c → rest.head? ≠ some c) :
      StatementMove s rest ⟨textKind s.delimiter, 0, s.modes⟩

theorem plainMove_inv {s : State} (newline : s.delimiter = .newline) (rest : Text) :
    StatementMove s rest (plainMove s rest) := by
  unfold plainMove
  split
  · exact .comment ‹_›
  · split
    · rename_i mode more opens
      have string := StatementMove.string opens
      rwa [newline] at string
    · have text : StatementMove s rest ⟨textKind s.delimiter, 0, s.modes⟩ :=
        .text fun c explicit => absurd (newline.symm.trans explicit) (by simp)
      rwa [newline] at text

theorem explicitMove_inv {s : State} {terminator : Char} (explicit : s.delimiter = .explicit terminator)
    (rest : Text) : StatementMove s rest (explicitMove s terminator rest) := by
  unfold explicitMove
  split
  · exact .comment ‹_›
  · split
    · rename_i mode more opens
      have string := StatementMove.string opens
      rwa [explicit] at string
    · split
      · exact .terminator explicit ‹_›
      · rename_i other
        have text : StatementMove s rest ⟨textKind s.delimiter, 0, s.modes⟩ := by
          refine .text fun c same => ?_
          rwa [← DelimiterMode.explicit.inj (explicit.symm.trans same)]
        rwa [explicit] at text

/-- What a step outside everything can do: its move, and the delimiter mode after it. -/
inductive RootStep (s : State) (rest : Text) : Move → DelimiterMode → Prop where
  /-- The line is a directive that ends the delimiter mode. -/
  | directive (start : s.past.atLineStart = true)
      (asked : Line.directive? (Text.firstLine rest) = some (leaving s.delimiter)) :
      RootStep s rest (directiveMove s rest) (entering s.delimiter)
  /-- A star comment opens. -/
  | star (start : s.past.atLineStart = true) {more : Nat} (opens : starOpener? rest = some more) :
      RootStep s rest (starMove s more) s.delimiter
  /-- The step is one within a statement. -/
  | statement
      (unasked : s.past.atLineStart = true →
        Line.directive? (Text.firstLine rest) ≠ some (leaving s.delimiter))
      {move : Move} (reads : StatementMove s rest move) : RootStep s rest move s.delimiter

/-- **What a step outside everything does.** -/
theorem rootStep_inv (s : State) (rest : Text) :
    RootStep s rest (rootStep s rest).1 (rootStep s rest).2.1 := by
  have directive := @RootStep.directive s rest
  have star := @RootStep.star s rest
  have statement := @RootStep.statement s rest
  unfold rootStep
  cases hd : s.delimiter with
  | newline =>
    have reads := plainMove_inv hd rest
    rw [hd] at directive star statement
    dsimp only
    split
    · rename_i start
      split
      · exact directive start ‹_›
      · rename_i unasked
        split
        · rename_i more found
          -- in a mata region no star opens a comment
          have opens : starOpener? rest = some more := by
            split at found
            · exact absurd found (by simp)
            · exact found
          exact star start opens
        · exact statement (fun _ => unasked) reads
    · rename_i inside
      exact statement (fun start => absurd start inside) reads
  | explicit terminator =>
    have reads := explicitMove_inv hd rest
    rw [hd] at directive star statement
    dsimp only
    split
    · rename_i start
      split
      · exact directive start ‹_›
      · rename_i unasked
        split
        · exact star start ‹_›
        · exact statement (fun _ => unasked) reads
    · rename_i inside
      exact statement (fun start => absurd start inside) reads

/-! ## Inside of something -/

/-- A step in a block comment changes how deep the comment is, or leaves it. -/
theorem entered_blockMove {s : State} {outer : Nat} {below : List Mode}
    (inside : s.modes = ⟨.blockComment (outer + 1) :: below⟩) (rest : Text) :
    (∃ outer', (blockMove s rest).modes.entered = .blockComment (outer' + 1) :: below) ∨
      (blockMove s rest).modes.entered = below := by
  unfold blockMove
  rw [inside]
  split
  · exact .inl ⟨outer + 1, rfl⟩
  · exact .inl ⟨outer, rfl⟩
  · cases outer with
    | zero => exact .inr rfl
    | succ outer => exact .inl ⟨outer, rfl⟩
  · exact .inl ⟨outer, rfl⟩

/-! What ends a statement is settled outside everything. -/

/-- **Inside of anything,** a step leaves the delimiter mode and the mata flag alone. -/
theorem act_inv (s : State) (rest : Text) :
    (∃ move, act s rest = (move, s.delimiter, s.inMata)) ∨ act s rest = rootStep s rest := by
  unfold act
  split <;> first | exact .inl ⟨_, rfl⟩ | exact .inr rfl

/-- Only a line that is the directive of the other delimiter mode changes the mode. -/
theorem act_delimiter_of_unasked {s : State} {rest : Text}
    (unasked : s.past.atLineStart = true →
      Line.directive? (Text.firstLine rest) ≠ some (leaving s.delimiter)) :
    (act s rest).2.1 = s.delimiter := by
  rcases act_inv s rest with ⟨move, acts⟩ | acts
  · rw [acts]
  · rw [acts]
    have does := rootStep_inv s rest
    generalize (rootStep s rest).1 = move, (rootStep s rest).2.1 = delimiter at does
    cases does with
    | directive start asked => exact absurd asked (unasked start)
    | star => rfl
    | statement => rfl

/-- A directive puts lines or semicolons in force. -/
theorem act_delimiter_cases (s : State) (rest : Text) :
    (act s rest).2.1 = s.delimiter ∨ (act s rest).2.1 = .newline ∨ (act s rest).2.1 = .semicolon := by
  rcases act_inv s rest with ⟨move, acts⟩ | acts
  · exact .inl (by rw [acts])
  · rw [acts]
    have does := rootStep_inv s rest
    generalize (rootStep s rest).1 = move, (rootStep s rest).2.1 = delimiter at does
    cases does with
    | directive =>
      cases s.delimiter with
      | newline => exact .inr (.inr rfl)
      | explicit terminator => exact .inr (.inl rfl)
    | star => exact .inl rfl
    | statement => exact .inl rfl

end Comments

end DoRunner
