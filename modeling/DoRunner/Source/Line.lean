import DoRunner.Text.Basic

/-!
# What a physical line says

Four questions are asked of a line as a whole: is it a delimiter directive, does it open a mata
region, does its first word close a block, does it open a block that such a word closes. Command
words may be abbreviated, but what follows the abbreviation decides: after as many letters of the
full word as are there, the next character must not go on with a word.
-/

namespace DoRunner.Line

/-- The text without the longest beginning it shares with `word`. -/
def skipLetters : Text → Text → Text
  | w :: word, c :: t => if w = c then skipLetters word t else c :: t
  | _, t => t

/-- Whether no word goes on here: the text is over or its next character is no word character. -/
def wordEnds : Text → Bool
  | [] => true
  | c :: _ => !isWord c

/-- What a delimiter directive asks for. -/
inductive Directive where
  /-- Statements end at a semicolon from here on. -/
  | explicit
  /-- Statements end with their lines from here on. -/
  | newline
deriving DecidableEq, Repr

/-- What follows the word of a delimiter directive: `#d`, or any longer beginning of `#delimit`. -/
def afterDelimit? (line : Text) : Option Text :=
  (Text.after? "#d".toList (Text.trimStart line)).map (skipLetters "elimit".toList)

/-- The directive that a line is, if it is one: the directive's word, then a semicolon or, set off
by blanks, `cr`, and nothing more than blanks after it. -/
def directive? (line : Text) : Option Directive :=
  match afterDelimit? line with
  | none => none
  | some rest =>
    match Text.after? [';'] (Text.trimStart rest) with
    | some more => if Text.blank more then some .explicit else none
    | none =>
      match Text.after? "cr".toList (Text.trimStart rest) with
      | some more =>
        if Text.blank more ∧ rest.head?.any isBlank then some .newline else none
      | none => none

/-- Whether the line is a bare `mata`, with or without a colon. -/
def opensMata (line : Text) : Bool :=
  match Text.after? "mata".toList (Text.trimStart line) with
  | none => false
  | some rest =>
    match Text.trimStart rest with
    | ':' :: more => Text.blank more
    | more => Text.blank more

/-- Whether the first word of the line is `end`. A point does not end that word. -/
def closesBlock (line : Text) : Bool :=
  match Text.after? "end".toList (Text.trimStart line) with
  | none => false
  | some rest => wordEnds rest && rest.head? != some '.'

/-- The word that follows `program` or a beginning of it down to `pr`, set off by spaces or tabs. -/
def programWord? (line : Text) : Option Text :=
  match (Text.after? "pr".toList (Text.trimStart line)).map (skipLetters "ogram".toList) with
  | none => none
  | some rest =>
    let word := (rest.dropWhile fun c => c == ' ' || c == '\t').takeWhile fun c => !isBlank c
    if rest.head?.any (fun c => c == ' ' || c == '\t') ∧ word ≠ [] then some word else none

/-- Whether the first word of the line is `input` or a beginning of it down to `inp`. -/
def opensInput (line : Text) : Bool :=
  match Text.after? "inp".toList (Text.trimStart line) with
  | none => false
  | some rest => wordEnds (skipLetters "ut".toList rest)

/-- Whether the line opens a block that an end line closes: it defines a program, reads data from
the lines that follow, or starts mata. Listing and dropping programs opens nothing. -/
def opensEndBlock (line : Text) : Bool :=
  match programWord? line with
  | some word =>
    !(Text.startsWith "di".toList word || Text.startsWith "dr".toList word ||
      Text.startsWith "l".toList word)
  | none => opensInput line || opensMata line

end DoRunner.Line
