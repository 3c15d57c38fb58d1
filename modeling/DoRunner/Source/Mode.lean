import DoRunner.Source.Token

/-!
# The stack of scanning modes

A scanner is always inside something: ordinary text, a comment, a block, a string. What it is
inside of is a stack of modes over `Mode.root`, which never leaves the bottom. Constructs that nest
in themselves are one entry with a depth, not many entries.
-/

namespace DoRunner

/-- What a scanner is inside of. -/
inductive Mode where
  /-- Ordinary text. -/
  | root
  /-- A block comment, `depth` levels deep. -/
  | blockComment (depth : Nat)
  /-- A star comment. -/
  | starComment
  /-- A comment to the end of the line. -/
  | lineComment
  /-- The remainder of a line that is continued on the next. -/
  | continuation
  /-- A brace block, `depth` braces deep. -/
  | braceBlock (depth : Nat)
  /-- A block that an end line closes. -/
  | endBlock
  /-- A string in plain quotes. -/
  | plainString
  /-- A string in compound quotes, `depth` levels deep. -/
  | compoundString (depth : Nat)
deriving DecidableEq, Repr

/-- Whether the mode is inside a string. -/
def Mode.isString : Mode → Bool
  | plainString | compoundString _ => true
  | _ => false

/-- The number of blocks that a mode holds open. -/
def Mode.blocks : Mode → Nat
  | braceBlock depth => depth
  | endBlock => 1
  | _ => 0

/-- Modes entered and not yet left, the innermost first; below them is always `Mode.root`. -/
structure ModeStack where
  /-- The modes above the root. -/
  entered : List Mode
deriving DecidableEq, Repr

namespace ModeStack

/-- The stack of a scanner that is inside nothing. -/
def atRoot : ModeStack := ⟨[]⟩

/-- The innermost mode. -/
def top (s : ModeStack) : Mode := s.entered.headD .root

/-- Enters a mode. A mode with a depth that is on top already gets one level deeper. -/
def push (s : ModeStack) (mode : Mode) : ModeStack :=
  match s.entered, mode with
  | .blockComment d :: outer, .blockComment _ => ⟨.blockComment (d + 1) :: outer⟩
  | .braceBlock d :: outer, .braceBlock _ => ⟨.braceBlock (d + 1) :: outer⟩
  | .compoundString d :: outer, .compoundString _ => ⟨.compoundString (d + 1) :: outer⟩
  | entered, mode => ⟨mode :: entered⟩

/-- A mode one level less deep; none when that leaves it. -/
def shallower : Mode → Option Mode
  | .blockComment d => if 1 < d then some (.blockComment (d - 1)) else none
  | .braceBlock d => if 1 < d then some (.braceBlock (d - 1)) else none
  | .compoundString d => if 1 < d then some (.compoundString (d - 1)) else none
  | _ => none

/-- Leaves the innermost mode, or one level of it. The root is never left. -/
def pop (s : ModeStack) : ModeStack :=
  match s.entered with
  | [] => s
  | .root :: _ => s
  | mode :: outer =>
    match shallower mode with
    | some less => ⟨less :: outer⟩
    | none => ⟨outer⟩

/-- Exchanges the innermost mode for another. -/
def replace (s : ModeStack) (mode : Mode) : ModeStack :=
  if s.top = .root then ⟨mode :: s.entered⟩ else ⟨mode :: s.entered.tail⟩

/-- Whether the scanner is inside nothing. -/
def isRoot (s : ModeStack) : Bool := s.entered.isEmpty

/-- The number of blocks still open. -/
def openBlocks (s : ModeStack) : Nat := s.entered.foldr (fun m n => m.blocks + n) 0

/-- Whether any block is open. -/
def inBlock (s : ModeStack) : Bool := 0 < s.openBlocks

end ModeStack

end DoRunner
