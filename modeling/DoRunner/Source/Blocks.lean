import DoRunner.Source.Line
import DoRunner.Source.Quote

/-!
# Blocks

The second pass reads text that has no comments left and one statement to a line. It tells
statements that stand alone from **blocks**: what is between braces, with the line that opens them,
and what stands between a line such as `program define` and its `end` line.

A brace makes a block of the whole line it is found on, so at an opening brace the marks of the
current line are made anew (`Past.remarkLine`). The lines of a block are therefore always whole
from their start.
-/

namespace DoRunner

namespace Blocks

/-- The state of the block pass between two steps. -/
structure State where
  /-- What the scanner is inside of. -/
  modes : ModeStack
  /-- The marks made so far. -/
  past : Past
deriving DecidableEq, Repr

/-- The pass before its first step. -/
def State.initial : State := ⟨.atRoot, []⟩

/-- What one step does: the kind of what it reads, how many characters it reads beyond one, what
the scanner is inside of afterwards, and whether the line so far joins the block. -/
structure Move where
  /-- The kind of the characters read. -/
  kind : TokenKind
  /-- How many characters are read beyond the first. -/
  more : Nat
  /-- What the scanner is inside of afterwards. -/
  modes : ModeStack
  /-- Whether the current line so far becomes part of a block. -/
  claimsLine : Bool
deriving DecidableEq, Repr

/-- A move over the rest of the line. -/
def lineMove (rest : Text) (modes : ModeStack) : Move :=
  ⟨.blockBody, (Text.firstLine rest.tail).length, modes, false⟩

/-- One step of ordinary text. -/
def rootMove (s : State) (rest : Text) : Move :=
  if s.past.atLineStart ∧ Line.opensEndBlock (Text.firstLine rest) then
    lineMove rest (s.modes.push .endBlock)
  else
    match Quote.opens? s.past rest with
    | some (mode, more) => ⟨.stringLiteral, more, s.modes.push mode, false⟩
    | none =>
      match rest with
      | '\x7b' :: _ => ⟨.blockBody, 0, s.modes.push (.braceBlock 1), true⟩
      | '\n' :: _ => ⟨.newlineDelimiter, 0, s.modes, false⟩
      | _ => ⟨.plainText, 0, s.modes, false⟩

/-- One step between braces. -/
def braceMove (s : State) (rest : Text) : Move :=
  match Quote.opens? s.past rest with
  | some (mode, more) => ⟨.blockBody, more, s.modes.push mode, false⟩
  | none =>
    match rest with
    | '\x7b' :: _ => ⟨.blockBody, 0, s.modes.push (.braceBlock 1), false⟩
    | '\x7d' :: _ => ⟨.blockBody, 0, s.modes.pop, false⟩
    | _ => ⟨.blockBody, 0, s.modes, false⟩

/-- One step in a block that an end line closes. -/
def endBlockMove (s : State) (rest : Text) : Move :=
  if s.past.atLineStart ∧ Line.closesBlock (Text.firstLine rest) then
    lineMove rest s.modes.pop
  else
    match Quote.opens? s.past rest with
    | some (mode, more) => ⟨.blockBody, more, s.modes.push mode, false⟩
    | none => ⟨.blockBody, 0, s.modes, false⟩

/-- One step inside a string. -/
def stringMove (s : State) (rest : Text) : Move :=
  let read := Quote.step s.modes rest
  ⟨if read.1.inBlock then .blockBody else .stringLiteral, read.2, read.1, false⟩

/-- Leaves a plain string before a line feed. -/
def settle (s : State) (next : Char) : State :=
  if s.modes.top = .plainString ∧ next = '\n' then { s with modes := s.modes.pop } else s

/-- The move at the text that is left. -/
def act (s : State) (rest : Text) : Move :=
  match s.modes.top with
  | .plainString | .compoundString _ => stringMove s rest
  | .braceBlock _ => braceMove s rest
  | .endBlock => endBlockMove s rest
  | _ => rootMove s rest

/-- One step at a text that is not over: the state after it and the text then left. -/
def step (s : State) (c : Char) (rest : Text) : State × Text :=
  let settled := settle s c
  let move := act settled (c :: rest)
  let past := if move.claimsLine then settled.past.remarkLine .blockBody else settled.past
  (⟨move.modes, past.extend move.kind (c :: rest.take move.more)⟩, rest.drop move.more)

/-- A step leaves less text than it found. -/
theorem length_step_lt (s : State) (c : Char) (rest : Text) :
    (step s c rest).2.length < (c :: rest).length := by
  simp only [step, List.length_drop, List.length_cons]; omega

/-- All steps over a text. -/
def run (s : State) : Text → State
  | [] => s
  | c :: rest =>
    let next := step s c rest
    run next.1 next.2
termination_by text => text.length
decreasing_by exact length_step_lt s c rest

end Blocks

/-- What the block pass found. -/
structure BlockScan where
  /-- All characters of the text with their kinds. -/
  marks : List Mark
  /-- The number of blocks still open at the end. -/
  openBlocks : Nat
deriving DecidableEq, Repr

namespace BlockScan

/-- The tokens of the text. -/
def tokens (scan : BlockScan) : List Token := Token.ofMarks scan.marks

/-- Whether anything belongs to a block. -/
def hasBlock (scan : BlockScan) : Bool := scan.marks.any fun mark => mark.kind == .blockBody

/-- The text as it was read. -/
def text (scan : BlockScan) : Text := scan.marks.map (·.char)

end BlockScan

/-- The block pass over text without comments and with one statement to a line. -/
def scanBlocks (text : Text) : BlockScan :=
  let final := Blocks.run .initial text
  { marks := final.past.reverse, openBlocks := final.modes.openBlocks }

namespace Blocks

/-- A step moves characters from the text ahead to the text behind. -/
theorem text_step (s : State) (c : Char) (rest : Text) :
    (step s c rest).1.past.text ++ (step s c rest).2 = s.past.text ++ c :: rest := by
  have settled : (settle s c).past = s.past := by
    unfold settle; split <;> rfl
  simp only [step]
  split <;> simp [settled]

/-- The pass reads all of the text. -/
theorem text_run (s : State) (text : Text) : (run s text).past.text = s.past.text ++ text := by
  fun_induction run s text with
  | case1 => simp
  | case2 s c rest next ih => rw [ih, text_step]

end Blocks

/-- The block pass loses nothing. -/
theorem text_scanBlocks (text : Text) : (scanBlocks text).text = text := by
  have h := Blocks.text_run .initial text
  simpa [scanBlocks, BlockScan.text, Blocks.State.initial, Past.text] using h

end DoRunner
