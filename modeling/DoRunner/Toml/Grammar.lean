import DoRunner.Toml.Value

/-!
# The grammar of TOML

A parser takes a text and gives what it has read from its front with the rest of the text, or
nothing. There is one parser for each rule of the grammar of TOML 1.0, from single characters up to
the expressions that a document is made of.

Repetition ends because `many` goes on only while the rest gets shorter, and values inside values
end because they may nest only `deepest` deep.
-/

namespace DoRunner.Toml

/-- Reads something from the front of a text. -/
abbrev Parser (α : Type) := Text → Option (α × Text)

namespace Parser

/-- Reads nothing. -/
def done {α : Type} (a : α) : Parser α := fun t => some (a, t)

/-- Reads one thing and then another that may depend on it. -/
def andThen {α β : Type} (p : Parser α) (q : α → Parser β) : Parser β := fun t =>
  match p t with
  | some (a, rest) => q a rest
  | none => none

instance : Monad Parser where
  pure := done
  bind := andThen

/-- Reads one thing or, where that is not there, another. -/
def orElse {α : Type} (p q : Parser α) : Parser α := fun t =>
  match p t with
  | some read => some read
  | none => q t

/-- Reads what is there of the alternatives, the first that is. -/
def oneOf {α : Type} : List (Parser α) → Parser α
  | [] => fun _ => none
  | p :: more => orElse p (oneOf more)

/-- Reads something if it is there. -/
def optional {α : Type} (p : Parser α) : Parser (Option α) := fun t =>
  match p t with
  | some (a, rest) => some (some a, rest)
  | none => some (none, t)

/-- Reads something as often as it is there, as long as that shortens the text. -/
def many {α : Type} (p : Parser α) : Parser (List α) := fun t =>
  match p t with
  | none => some ([], t)
  | some (a, rest) =>
    if rest.length < t.length then
      match many p rest with
      | some (more, last) => some (a :: more, last)
      | none => none
    else some ([a], rest)
termination_by t => t.length

/-- Reads a character of a class. -/
def charIf (admits : Char → Bool) : Parser Char
  | c :: t => if admits c then some (c, t) else none
  | [] => none

/-- Reads the given text. -/
def exactly (expected : Text) : Parser Unit := fun t =>
  (Text.after? expected t).map fun rest => ((), rest)

/-- Reads the characters of a class, as many as there are. -/
def run (admits : Char → Bool) : Parser Text := fun t =>
  some (t.takeWhile admits, t.dropWhile admits)

/-- Reads the given number of characters of a class. -/
def count (admits : Char → Bool) : Nat → Parser Text
  | 0 => done []
  | n + 1 => do
    let c ← charIf admits
    let more ← count admits n
    return c :: more

/-- Goes on only if something holds of what was read. -/
def ensure (holds : Bool) : Parser Unit := fun t => if holds then some ((), t) else none

end Parser

open DoRunner.Toml.Parser

/-! ## Blanks, line ends and comments -/

/-- A space or a tab. -/
def isSpace (c : Char) : Bool := c == ' ' || c == '\t'

/-- Spaces and tabs, perhaps none. -/
def spaces : Parser Text := run isSpace

/-- The end of a line. -/
def lineEnd : Parser Unit := oneOf [exactly ['\n'], exactly ['\r', '\n']]

/-- A character that may stand in a comment or, quotes and backslashes apart, in a string: a tab or
what is no control character. -/
def isProper (c : Char) : Bool := c == '\t' || (0x20 ≤ c.toNat && c.toNat != 0x7F)

/-- A comment up to the end of its line. -/
def comment : Parser Unit := do
  exactly ['#']
  let _ ← run isProper

/-- Blanks, line ends and comments, as they may stand between the values of an array. -/
def gap : Parser Unit := do
  let _ ← spaces
  let _ ← many do
    let _ ← optional comment
    lineEnd
    let _ ← spaces

/-- What may follow an expression on its line. -/
def restOfLine : Parser Unit := do
  let _ ← spaces
  let _ ← optional comment

/-! ## Strings -/

/-- A hexadecimal digit. -/
def isHexDigit (c : Char) : Bool :=
  isAsciiDigit c || ('a' ≤ c && c ≤ 'f') || ('A' ≤ c && c ≤ 'F')

/-- The value of a digit in any base up to sixteen. -/
def digitValue (c : Char) : Nat :=
  if isAsciiDigit c then c.toNat - 0x30
  else if 'a' ≤ c then c.toNat - 0x57
  else c.toNat - 0x37

/-- The number that digits write in a base. -/
def numberIn (base : Nat) (digits : Text) : Nat :=
  digits.foldl (fun n c => base * n + digitValue c) 0

/-- The character of a code point written with so many hexadecimal digits. -/
def codePoint (digits : Nat) : Parser Char := do
  let written ← count isHexDigit digits
  let n := numberIn 16 written
  ensure (n < 0xD800 || (0xDFFF < n && n < 0x110000))
  return Char.ofNat n

/-- The character that an escape sequence stands for. -/
def escaped : Parser Char := do
  exactly ['\\']
  let c ← charIf fun _ => true
  match c with
  | 'b' => return '\x08'
  | 't' => return '\t'
  | 'n' => return '\n'
  | 'f' => return '\x0C'
  | 'r' => return '\r'
  | '"' => return '"'
  | '\\' => return '\\'
  | 'u' => codePoint 4
  | 'U' => codePoint 8
  | _ => fun _ => none

/-- A character of a string in double quotes. -/
def basicChar : Parser Char :=
  orElse (charIf fun c => isProper c && c != '"' && c != '\\') escaped

/-- A string in double quotes. -/
def basicString : Parser Text := do
  exactly ['"']
  let t ← many basicChar
  exactly ['"']
  return t

/-- A string in apostrophes, in which nothing is escaped. -/
def literalString : Parser Text := do
  exactly ['\'']
  let t ← run fun c => isProper c && c != '\''
  exactly ['\'']
  return t

/-- One or two quotes inside a string that three of them close: they are followed by something else
than a third, or by the three that close it. -/
def innerQuotes (quote : Char) : Parser Text := fun t =>
  match (t.takeWhile (· == quote)).length with
  | 1 => some ([quote], t.drop 1)
  | 2 => some ([quote, quote], t.drop 2)
  | 4 => some ([quote], t.drop 1)
  | 5 => some ([quote, quote], t.drop 2)
  | _ => none

/-- A backslash at the end of a line, which takes all blanks and line ends after it away. -/
def lineJoin : Parser Text := do
  exactly ['\\']
  let _ ← spaces
  lineEnd
  let _ ← many (orElse lineEnd (do let _ ← charIf isSpace))
  return []

/-- A string of several lines in three double quotes. -/
def longBasicString : Parser Text := do
  exactly ['"', '"', '"']
  let _ ← optional lineEnd
  let parts ← many (oneOf [
    (do let c ← charIf fun c => isProper c && c != '"' && c != '\\'; return [c]),
    (do lineEnd; return ['\n']),
    lineJoin,
    (do let c ← escaped; return [c]),
    innerQuotes '"'])
  exactly ['"', '"', '"']
  return parts.flatten

/-- A string of several lines in three apostrophes, in which nothing is escaped. -/
def longLiteralString : Parser Text := do
  exactly ['\'', '\'', '\'']
  let _ ← optional lineEnd
  let parts ← many (oneOf [
    (do let c ← charIf fun c => isProper c && c != '\''; return [c]),
    (do lineEnd; return ['\n']),
    innerQuotes '\''])
  exactly ['\'', '\'', '\'']
  return parts.flatten

/-- A string of any form. -/
def anyString : Parser Text :=
  oneOf [longBasicString, basicString, longLiteralString, literalString]

/-! ## Keys -/

/-- A character of a key without quotes. -/
def isBareKeyChar (c : Char) : Bool :=
  isAsciiLetter c || isAsciiDigit c || c == '-' || c == '_'

/-- One part of a key. -/
def simpleKey : Parser Text :=
  oneOf [basicString, literalString, do
    let t ← run isBareKeyChar
    ensure (t ≠ [])
    return t]

/-- How deep values nest, and how many parts a key has, at most. -/
def deepest : Nat := 79

/-- A key of one or more parts with points between them. -/
def dottedKey : Parser (List Text) := do
  let part : Parser Text := do
    let _ ← spaces
    let t ← simpleKey
    let _ ← spaces
    return t
  let first ← part
  let more ← many (do exactly ['.']; part)
  ensure (more.length < deepest)
  return first :: more

/-! ## Numbers -/

/-- Digits after the first, each of which an underscore may precede. -/
def moreDigits (isDigit : Char → Bool) : Parser Text := many do
  let _ ← optional (exactly ['_'])
  charIf isDigit

/-- One or more digits with underscores between them. -/
def spacedDigits (isDigit : Char → Bool) : Parser Text := do
  let first ← charIf isDigit
  let more ← moreDigits isDigit
  return first :: more

/-- A sign, if there is one: whether it is a minus. -/
def sign : Parser Bool := oneOf [
  (do exactly ['-']; return true), (do exactly ['+']; return false), done false]

/-- A decimal number without needless zeros in front: whether it is negative, and its digits. -/
def decimal : Parser (Bool × Text) := do
  let negative ← sign
  let first ← charIf isAsciiDigit
  if first = '0' then return (negative, ['0'])
  else do
    let more ← moreDigits isAsciiDigit
    return (negative, first :: more)

/-- The greatest integer of 64 bits. -/
def greatestInteger : Nat := 0x7FFFFFFFFFFFFFFF

/-- A number in another base. -/
def inBase (mark : Char) (base : Nat) (isDigit : Char → Bool) : Parser Int := do
  exactly ['0', mark]
  let digits ← spacedDigits isDigit
  let n := numberIn base digits
  ensure (n ≤ greatestInteger)
  return n

/-- An integer of 64 bits. -/
def integer : Parser Int := oneOf [
  inBase 'x' 16 isHexDigit,
  inBase 'o' 8 (fun c => '0' ≤ c && c ≤ '7'),
  inBase 'b' 2 (fun c => c == '0' || c == '1'),
  do
    let (negative, digits) ← decimal
    let n := numberIn 10 digits
    ensure (if negative then n ≤ greatestInteger + 1 else n ≤ greatestInteger)
    return if negative then -n else n]

/-- The exponent of a floating point number. -/
def exponent : Parser Int := do
  let _ ← charIf fun c => c == 'e' || c == 'E'
  let negative ← sign
  let digits ← spacedDigits isAsciiDigit
  let n := numberIn 10 digits
  return if negative then -n else n

/-- A floating point number: a decimal number with a fraction, an exponent or both. One that is
too great is refused; one that is too small counts as an infinity. -/
def finiteFloat : Parser Binary64 := do
  let (negative, digits) ← decimal
  let fraction ← optional (do exactly ['.']; spacedDigits isAsciiDigit)
  let power ← optional exponent
  ensure (fraction.isSome || power.isSome)
  let places := fraction.getD []
  let x := Binary64.ofDecimal negative (numberIn 10 (digits ++ places))
    (power.getD 0 - places.length)
  ensure (x.value != .infinite false)
  return x

/-- An infinity, or what is no number. -/
def specialFloat : Parser Binary64 := do
  let negative ← sign
  oneOf [
    (do exactly "inf".toList; return Binary64.infinity negative),
    (do exactly "nan".toList; return Binary64.nan)]

/-! ## Dates and times -/

/-- A number written with so many digits, within bounds. -/
def field (digits least greatest : Nat) : Parser Nat := do
  let written ← count isAsciiDigit digits
  let n := numberIn 10 written
  ensure (least ≤ n && n ≤ greatest)
  return n

/-- The number of days of a month. -/
def daysOf (year month : Nat) : Nat :=
  if month = 2 then
    if year % 4 = 0 ∧ (year % 100 ≠ 0 ∨ year % 400 = 0) then 29 else 28
  else if month = 4 ∨ month = 6 ∨ month = 9 ∨ month = 11 then 30
  else 31

/-- A date. -/
def date : Parser Unit := do
  let year ← field 4 0 9999
  exactly ['-']
  let month ← field 2 1 12
  exactly ['-']
  let _ ← field 2 1 (daysOf year month)

/-- A time of day, perhaps with a fraction of a second. -/
def time : Parser Unit := do
  let _ ← field 2 0 23
  exactly [':']
  let _ ← field 2 0 59
  exactly [':']
  let _ ← field 2 0 60
  let _ ← optional do
    exactly ['.']
    let _ ← charIf isAsciiDigit
    let _ ← run isAsciiDigit

/-- The distance of a time from universal time. -/
def offset : Parser Unit := orElse (do let _ ← charIf fun c => c == 'Z' || c == 'z') do
  let _ ← charIf fun c => c == '+' || c == '-'
  let _ ← field 2 0 23
  exactly [':']
  let _ ← field 2 0 59

/-- A date, a time, or a date with a time. -/
def datetime : Parser Unit := orElse
  (do
    date
    let _ ← optional do
      let _ ← charIf fun c => c == 'T' || c == 't' || c == ' '
      time
      let _ ← optional offset)
  time

/-! ## Values -/

/-- A value that holds no other. -/
def scalar : Parser Value := oneOf [
  (do let t ← anyString; return .string t),
  -- longer forms first: the year of a date and the whole part of a fraction are integers too
  (do datetime; return .datetime),
  (do let x ← orElse finiteFloat specialFloat; return .float x),
  (do let n ← integer; return .integer n),
  (do exactly "true".toList; return .boolean true),
  (do exactly "false".toList; return .boolean false)]

/-- One or more items with commas between them. -/
def separated {α : Type} (item : Parser α) : Parser (List α) := do
  let first ← item
  let more ← many (do exactly [',']; item)
  return first :: more

/-- Values in brackets, with commas between them and perhaps one after the last. -/
def array (element : Parser Value) : Parser (List Value) := do
  let spaced : Parser Value := do
    gap
    let v ← element
    gap
    return v
  let filled : Parser (List Value) := do
    let values ← separated spaced
    let _ ← optional (exactly [','])
    return values
  exactly ['[']
  let values ← optional filled
  gap
  exactly [']']
  return values.getD []

/-- A key with its value. -/
def keyValue (value : Parser Value) : Parser (List Text × Value) := do
  let key ← dottedKey
  exactly ['=']
  let _ ← spaces
  let v ← value
  return (key, v)

/-- Adds a key of one or more parts. -/
def addParts (entries : Entries) (parts : List Text) (value : Value) : Option Entries :=
  match parts.getLast? with
  | some key => addKey entries parts.dropLast key value
  | none => none

/-- A table in braces, on one line and without a comma after the last entry. -/
def braces (value : Parser Value) : Parser Entries := do
  let spaced : Parser (List Text × Value) := do
    let entry ← keyValue value
    let _ ← spaces
    return entry
  exactly ['\x7b']
  let _ ← spaces
  let written ← optional (separated spaced)
  exactly ['\x7d']
  let table := (written.getD []).foldlM (fun entries (key, v) => addParts entries key v) []
  fun t => table.map fun entries => (entries, t)

/-- A value in which others nest up to `depth` deep. -/
def value : Nat → Parser Value
  | 0 => scalar
  | depth + 1 => oneOf [
    scalar,
    (do let values ← array (value depth); return .array values),
    (do let entries ← braces (value depth); return .table .braces entries)]

/-! ## Documents -/

/-- What a line of a document may hold. -/
inductive Expression where
  /-- Nothing but a comment, if that. -/
  | nothing
  /-- A key with its value. -/
  | entry (key : List Text) (value : Value)
  /-- The header of a table. -/
  | header (name : List Text)
  /-- The header of one more table of a name. -/
  | nextHeader (name : List Text)
deriving Repr

/-- What a line of a document holds, up to its end. -/
def expression : Parser Expression := do
  let _ ← spaces
  let read ← oneOf [
    (do
      exactly ['[', '[']
      let name ← dottedKey
      exactly [']', ']']
      return .nextHeader name),
    (do
      exactly ['[']
      let name ← dottedKey
      exactly [']']
      return .header name),
    (do
      let (key, v) ← keyValue (value deepest)
      return .entry key v),
    done .nothing]
  restOfLine
  return read

/-- A document while its lines are read: the entries so far, and the name of the table that the
latest header opened. -/
structure Document where
  /-- The entries so far. -/
  entries : Entries
  /-- Where further keys belong. -/
  current : List Text
deriving Repr

/-- Changes the table that contains the last part of a name. -/
def atParent (d : Document) (name : List Text) (change : Text → Entries → Option Entries) :
    Option Document :=
  match name.getLast? with
  | some last =>
    (changeAt (change last) d.entries name.dropLast).map fun entries => ⟨entries, name⟩
  | none => none

/-- The document with one more expression. -/
def Document.add (d : Document) : Expression → Option Document
  | .nothing => some d
  | .entry key v =>
    (changeAt (fun table => addParts table key v) d.entries d.current).map fun entries =>
      { d with entries }
  | .header name => atParent d name openTable
  | .nextHeader name => atParent d name openNext

/-- The text after the mark that may stand in front of it to tell the order of bytes. -/
def afterByteOrderMark : Text → Text
  | '\uFEFF' :: t => t
  | t => t

/-- The entries of a document. None when it breaks a rule of the grammar or defines something
twice. -/
def parse? (t : Text) : Option Entries :=
  let lines : Parser (List Expression) := do
    let first ← expression
    let more ← many (do lineEnd; expression)
    return first :: more
  match lines (afterByteOrderMark t) with
  | some (expressions, []) =>
    (expressions.foldlM Document.add ⟨[], []⟩).map (·.entries)
  | _ => none

end DoRunner.Toml
