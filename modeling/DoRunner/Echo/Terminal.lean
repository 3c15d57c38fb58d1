import DoRunner.Text.Basic

/-!
# Terminal sequences

A console mixes its output with sequences that move the cursor or set colours. Each starts with an
escape character and goes on in one of a dozen **forms**; a form is a row of pieces, and a piece is
a number of characters of one class. Neighbouring pieces have classes with nothing in common, so
taking as many characters as a piece allows never spoils the next piece, and a form is matched
from left to right without going back.

The forms are tried in the order of their list, and the first that matches decides how much is
removed. Letters match in either case.
-/

namespace DoRunner.Terminal

/-- The lower case of a letter. Two letters outside ASCII, the Kelvin sign and the long s, have
lower cases in it. -/
def foldCase (c : Char) : Char :=
  if c = '\u212A' then 'k' else if c = '\u017F' then 's' else c.toLower

/-- Some characters of one class, taken from the front of a text. -/
structure Piece where
  /-- Which characters the piece is made of. -/
  admits : Char → Bool
  /-- The least number of them. -/
  least : Nat
  /-- The greatest number of them, if there is one. -/
  most : Option Nat

namespace Piece

/-- One of the given characters, in either case. -/
def oneOf (chars : String) : Piece := ⟨fun c => foldCase c ∈ chars.toList, 1, some 1⟩

/-- One of the given characters, in either case, or nothing. -/
def maybe (chars : String) : Piece := { oneOf chars with least := 0 }

/-- Digits, as many as there are and at least one. -/
def digits : Piece := ⟨isDigit, 1, none⟩

/-- One digit. -/
def digit : Piece := ⟨isDigit, 1, some 1⟩

/-- Up to two digits. -/
def upToTwoDigits : Piece := ⟨isDigit, 0, some 2⟩

/-- The number of characters that the piece takes from a text; none when there are too few. -/
def taken? (p : Piece) (t : Text) : Option Nat :=
  let run := (t.takeWhile p.admits).length
  let n := match p.most with
    | some most => min most run
    | none => run
  if p.least ≤ n then some n else none

end Piece

/-- What may follow the escape character. -/
abbrev Form := List Piece

/-- The number of characters that the form takes from a text, if it matches there. -/
def Form.taken? : Form → Text → Option Nat
  | [], _ => some 0
  | piece :: form, t =>
    match piece.taken? t with
    | none => none
    | some n => (Form.taken? form (t.drop n)).map (n + ·)

/-- The forms of sequences, in the order in which they are tried. -/
def forms : List Form := [
  [.oneOf "[", .maybe "?", .digits, .oneOf "hl"],
  [.oneOf "=<>abcdefghijkznm78"],
  [.oneOf "()", .oneOf "ab012"],
  [.oneOf "[", .upToTwoDigits, .oneOf "mabcdgkjqi"],
  [.oneOf "[", .digits, .oneOf ";", .digits, .maybe "hfy"],
  [.oneOf "[", .maybe ";", .oneOf "hf"],
  [.oneOf "#", .oneOf "34568"],
  [.oneOf "01356", .oneOf "n"],
  [.oneOf "o", .maybe "mlnpqrstuvwxyz"],
  [.oneOf "/", .oneOf "z"],
  [.digits],
  [.oneOf "[", .oneOf "?", .digit, .oneOf ";", .digit, .oneOf "0", .oneOf "c"]]

/-- The number of characters after an escape character that belong to its sequence, if a form
matches. -/
def sequenceLength? (t : Text) : Option Nat := forms.findSome? fun form => form.taken? t

/-- The text without its terminal sequences. An escape character that starts none stays. -/
def strip : Text → Text
  | [] => []
  | c :: t =>
    if c = '\x1b' then
      match sequenceLength? t with
      | some n => strip (t.drop n)
      | none => c :: strip t
    else c :: strip t
termination_by t => t.length
decreasing_by all_goals simp; try omega

/-- Makes each carriage return that a line feed follows disappear. -/
def dropCarriageReturns : Text → Text
  | '\r' :: '\n' :: t => '\n' :: dropCarriageReturns t
  | c :: t => c :: dropCarriageReturns t
  | [] => []

/-- Raw output as plain lines of text. -/
def plain (raw : Text) : Text := strip (dropCarriageReturns raw)

end DoRunner.Terminal
