import DoRunner.Text.CharTable

/-!
# Classes of characters

Do-file text is Unicode, and every rule that speaks of blanks, words or digits means the Unicode
property of that name. This module turns the tables of `DoRunner.CharTable` into predicates.

ASCII characters are decided first and without a table, so that scanning ordinary source never
walks a list, and so that a predicate at a known ASCII character evaluates at once.
-/

namespace DoRunner

/-- Whether a code point lies in one of the closed ranges of a table. -/
def CharTable.has (table : List (Nat × Nat)) (c : Char) : Bool :=
  table.any fun range => range.1 ≤ c.toNat && c.toNat ≤ range.2

/-- White space, the property `White_Space`: what trimming removes and what separates words. -/
def isBlank (c : Char) : Bool :=
  let n := c.toNat
  n == 0x20 || (0x09 ≤ n && n ≤ 0x0D) ||
    (0x80 ≤ n && (n == 0x85 || n == 0xA0 || n == 0x1680 || (0x2000 ≤ n && n ≤ 0x200A) ||
      n == 0x2028 || n == 0x2029 || n == 0x202F || n == 0x205F || n == 0x3000))

/-- An ASCII decimal digit. -/
def isAsciiDigit (c : Char) : Bool := 0x30 ≤ c.toNat && c.toNat ≤ 0x39

/-- A decimal digit of any script. -/
def isDigit (c : Char) : Bool :=
  if c.toNat < 0x80 then isAsciiDigit c else CharTable.has CharTable.decimalDigit c

/-- An ASCII letter of either case. -/
def isAsciiLetter (c : Char) : Bool :=
  (0x41 ≤ c.toNat && c.toNat ≤ 0x5A) || (0x61 ≤ c.toNat && c.toNat ≤ 0x7A)

/-- A letter or a number of any script: what command names are made of, the underscore apart. -/
def isAlphanumeric (c : Char) : Bool :=
  if c.toNat < 0x80 then isAsciiLetter c || isAsciiDigit c
  else CharTable.has CharTable.alphabetic c || CharTable.has CharTable.decimalDigit c ||
    CharTable.has CharTable.otherNumber c

/-- A word character: a letter, a combining mark, a decimal digit, a connector such as the
underscore, or one of the two joiners. -/
def isWord (c : Char) : Bool :=
  if c.toNat < 0x80 then isAsciiLetter c || isAsciiDigit c || c.toNat == 0x5F
  else CharTable.has CharTable.alphabetic c || CharTable.has CharTable.mark c ||
    CharTable.has CharTable.decimalDigit c || CharTable.has CharTable.connector c ||
    c.toNat == 0x200C || c.toNat == 0x200D

/-- Attaches to the character before it, so that it cannot be shown alone. -/
def extendsGrapheme (c : Char) : Bool :=
  0x80 ≤ c.toNat && CharTable.has CharTable.graphemeExtend c

/-- Can be shown as it is: the space, or a character that is neither a control nor a separator nor
unassigned. -/
def isPrintable (c : Char) : Bool :=
  if c.toNat < 0x80 then 0x20 ≤ c.toNat && c.toNat < 0x7F else CharTable.has CharTable.graphic c

end DoRunner
