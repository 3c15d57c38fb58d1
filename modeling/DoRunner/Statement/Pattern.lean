import DoRunner.Text.Basic

/-!
# Patterns and abbreviations

Every command word may be shortened down to a length of its own. Which spellings of a word are
accepted is said by a **pattern**: characters in a row, one pattern or another, a pattern that may
be left out. A pattern has two faces, the texts it matches (`Pattern.rests`) and its written form
as a regular expression (`Pattern.text`), so that it can be shown as well as used.

The pattern of an abbreviation is nested: each letter beyond the required ones may be left out
together with all that follow it.
-/

namespace DoRunner

/-- A pattern of finitely many texts. -/
inductive Pattern where
  /-- Nothing. -/
  | empty
  /-- One character. -/
  | char (c : Char)
  /-- One pattern and then another. -/
  | seq (first second : Pattern)
  /-- One pattern or another. -/
  | alt (first second : Pattern)
  /-- A pattern or nothing. -/
  | optional (inner : Pattern)
deriving DecidableEq, Repr

namespace Pattern

/-- What can be left of a text after a beginning that matches; one entry for each way to match. -/
def rests : Pattern → Text → List Text
  | empty, t => [t]
  | char _, [] => []
  | char c, d :: t => if c = d then [t] else []
  | seq a b, t => (rests a t).flatMap (rests b)
  | alt a b, t => rests a t ++ rests b t
  | optional a, t => rests a t ++ [t]

/-- Whether the pattern matches all of a text. -/
def matchesAll (p : Pattern) (t : Text) : Bool := (rests p t).any List.isEmpty

/-- The characters that stand for themselves in a regular expression only after a backslash. -/
def metaChars : Text := "\\.+*?()|[]\x7b\x7d^$#&-~".toList

/-- The written form of one character. -/
def escape (c : Char) : Text := if c ∈ metaChars then ['\\', c] else [c]

/-- The written form of a pattern as a regular expression. -/
def text : Pattern → Text
  | empty => []
  | char c => escape c
  | seq a b => text a ++ text b
  | alt a b => text a ++ '|' :: text b
  | optional a => "(?:".toList ++ text a ++ ")?".toList

/-- The pattern that matches one text. -/
def literal : Text → Pattern
  | [] => empty
  | c :: t => seq (char c) (literal t)

/-- Matches every beginning of a text. -/
def beginnings : Text → Pattern
  | [] => empty
  | c :: t => optional (seq (char c) (beginnings t))

/-- Matches what any of the patterns matches. -/
def oneOf : List Pattern → Pattern
  | [] => empty
  | [p] => p
  | p :: q :: more => alt p (oneOf (q :: more))

end Pattern

/-! ## Abbreviations -/

/-- A word with the number of bytes of it that must be written at least. -/
structure Abbreviation where
  /-- The full word. -/
  word : Text
  /-- The least number of bytes of the word to be written. -/
  minimum : Nat
deriving DecidableEq, Repr

namespace Abbreviation

/-- A text cut after a number of bytes; none when that is in the middle of a character or beyond
the end. -/
def cutAtByte? : Nat → Text → Option (Text × Text)
  | 0, t => some ([], t)
  | _ + 1, [] => none
  | n + 1, c :: t =>
    if c.utf8Size ≤ n + 1 then
      (cutAtByte? (n + 1 - c.utf8Size) t).map fun (before, after) => (c :: before, after)
    else none

/-- The number of bytes required of the word: at least one, and at most all of them. -/
def required (a : Abbreviation) : Nat := max 1 (min a.minimum (Text.byteLength a.word))

/-- The pattern of all accepted spellings. There is none when the required bytes do not end between
two characters of the word; an empty word has none at all. -/
def pattern? (a : Abbreviation) : Option Pattern :=
  (cutAtByte? a.required a.word).map fun (needed, further) =>
    .seq (.literal needed) (.beginnings further)

end Abbreviation

/-- Words with their abbreviations. -/
abbrev Catalog := List Abbreviation

namespace Catalog

/-- The pattern of all accepted spellings of all words. -/
def pattern (catalog : Catalog) : Pattern := .oneOf (catalog.filterMap Abbreviation.pattern?)

/-- Whether a word is an accepted spelling of a word of the catalog. -/
def accepts (catalog : Catalog) (word : Text) : Bool := (pattern catalog).matchesAll word

end Catalog

end DoRunner
