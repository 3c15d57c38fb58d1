import DoRunner.Text.Basic

/-!
# Tokens, spans and delimiter modes

Both passes over a source text label every character with a kind and lose none of them. What a
pass produces is therefore a list of **marks**, one per character; the **tokens** are the maximal
runs of equally marked characters, each with the byte range that it covers. Statement terminators
are never run together, so that each of them stays a token of its own.
-/

namespace DoRunner

/-! ## Positions -/

/-- A byte offset into a scanned text. Offsets have 32 bits and saturate. -/
structure ByteOffset where
  /-- The number of bytes before the offset. -/
  val : Nat
  /-- Offsets fit in 32 bits. -/
  val_le : val ≤ 4294967295
deriving DecidableEq, Repr

namespace ByteOffset

/-- The largest offset. -/
def limit : Nat := 4294967295

/-- The offset of a byte count, or the largest offset when the count is beyond it. -/
def ofNat (n : Nat) : ByteOffset := ⟨min n limit, Nat.min_le_right _ _⟩

instance : Inhabited ByteOffset := ⟨ofNat 0⟩

theorem val_ofNat_of_le {n : Nat} (h : n ≤ limit) : (ofNat n).val = n := Nat.min_eq_left h

end ByteOffset

/-- A half-open range of bytes. -/
structure Span where
  /-- Where the range starts. -/
  start : ByteOffset
  /-- Where the range has ended. -/
  stop : ByteOffset
  /-- A range does not end before it starts. -/
  start_le : start.val ≤ stop.val
deriving DecidableEq, Repr

namespace Span

/-- The range between two offsets, whichever comes first. -/
def between (a b : ByteOffset) : Span :=
  if h : a.val ≤ b.val then ⟨a, b, h⟩ else ⟨b, a, by omega⟩

/-- The number of bytes in the range. -/
def length (s : Span) : Nat := s.stop.val - s.start.val

/-- Whether the range has no bytes. -/
def isEmpty (s : Span) : Bool := s.start == s.stop

/-- The smallest range that covers both. -/
def merge (s t : Span) : Span :=
  between (if s.start.val ≤ t.start.val then s.start else t.start)
    (if s.stop.val ≤ t.stop.val then t.stop else s.stop)

end Span

/-! ## Kinds -/

/-- What a stretch of source text is. -/
inductive TokenKind where
  /-- Ordinary statement text. -/
  | plainText
  /-- A line comment, a star comment or a delimiter directive. -/
  | commentLine
  /-- A block comment with all that is nested in it. -/
  | commentBlock
  /-- A continuation comment, to the end of its line and with the line feed. -/
  | commentContinuation
  /-- Text inside a brace block or inside a block closed by an end line. -/
  | blockBody
  /-- A string literal outside any block. -/
  | stringLiteral
  /-- One explicit statement terminator. -/
  | semicolonDelimiter
  /-- A line feed that ends a statement. -/
  | newlineDelimiter
  /-- Statement text while an explicit terminator is in force. -/
  | namespaceBody
deriving DecidableEq, Repr

namespace TokenKind

/-- Whether the text is a comment. -/
def isComment : TokenKind → Bool
  | commentLine | commentBlock | commentContinuation => true
  | _ => false

/-- Whether the text is a statement terminator. -/
def isDelimiter : TokenKind → Bool
  | semicolonDelimiter | newlineDelimiter => true
  | _ => false

end TokenKind

/-! ## Delimiter modes -/

/-- What ends a statement. -/
inductive DelimiterMode where
  /-- The end of its line. -/
  | newline
  /-- The given character; line feeds are blanks. -/
  | explicit (terminator : Char)
deriving DecidableEq, Repr

namespace DelimiterMode

/-- The mode in which a semicolon ends a statement. -/
def semicolon : DelimiterMode := explicit ';'

/-- The character that ends a statement. -/
def terminator : DelimiterMode → Char
  | newline => '\n'
  | explicit t => t

/-- Whether a character other than the end of the line was agreed on. -/
def isExplicit : DelimiterMode → Bool
  | newline => false
  | explicit _ => true

end DelimiterMode

/-! ## Marks and tokens -/

/-- One source character with the kind it was given. -/
structure Mark where
  /-- What the character belongs to. -/
  kind : TokenKind
  /-- The character. -/
  char : Char
deriving DecidableEq, Repr

/-- A stretch of source text of one kind, with its place. -/
structure Token where
  /-- What the text is. -/
  kind : TokenKind
  /-- The text as it stands in the source. -/
  text : Text
  /-- The bytes it covers. -/
  span : Span
deriving DecidableEq, Repr

namespace Token

/-- The maximal runs of equally marked characters. Terminators stand alone. -/
def runs : List Mark → List (TokenKind × Text)
  | [] => []
  | mark :: marks =>
    match runs marks with
    | [] => [(mark.kind, [mark.char])]
    | (kind, text) :: more =>
      if mark.kind = kind ∧ kind.isDelimiter = false then (kind, mark.char :: text) :: more
      else (mark.kind, [mark.char]) :: (kind, text) :: more

/-- Runs as tokens, the first of them starting after `start` bytes. -/
def placed (start : Nat) : List (TokenKind × Text) → List Token
  | [] => []
  | (kind, text) :: more =>
    let stop := start + Text.byteLength text
    ⟨kind, text, .between (.ofNat start) (.ofNat stop)⟩ :: placed stop more

/-- The tokens of a marked text. -/
def ofMarks (marks : List Mark) : List Token := placed 0 (runs marks)

/-- The text that tokens spell. -/
def textOf (tokens : List Token) : Text := tokens.flatMap (·.text)

/-- Forming runs loses no character. -/
theorem flatMap_runs (marks : List Mark) :
    (runs marks).flatMap (·.2) = marks.map (·.char) := by
  induction marks with
  | nil => rfl
  | cons mark marks ih =>
    rw [runs]
    split
    · rename_i h; rw [h] at ih; simp at ih; simp [ih]
    · rename_i h; rw [h] at ih
      split <;> simp_all

theorem flatMap_placed (start : Nat) (rs : List (TokenKind × Text)) :
    (placed start rs).flatMap (·.text) = rs.flatMap (·.2) := by
  induction rs generalizing start with
  | nil => rfl
  | cons r rs ih => simp [placed, ih]

/-- The tokens of a marked text spell that text. -/
theorem textOf_ofMarks (marks : List Mark) : textOf (ofMarks marks) = marks.map (·.char) := by
  rw [textOf, ofMarks, flatMap_placed, flatMap_runs]

end Token

end DoRunner
