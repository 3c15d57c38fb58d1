import DoRunner.Echo.Terminal

/-!
# Echoes of submitted lines

The output repeats each submitted line behind a marker: the prompt, the number of a line in a
block, or the sign of a continued line. `echoContent?` takes the marker off, and `matchEcho` says
how strongly what is left is tied to a line: it may equal the line, or only share its beginning,
as blocks do that are echoed in a form of their own.

Echoes longer than the output is wide are wrapped onto continuation lines; `joinWrapped` puts them
together again.
-/

namespace DoRunner.Echo

/-- What follows the number of a numbered echo: blanks, digits, a point, one or two blanks, and then
the line. -/
def numberedContent? (line : Text) : Option Text :=
  let start := Text.trimStart line
  match start.takeWhile isDigit, start.dropWhile isDigit with
  | _ :: _, '.' :: c :: rest =>
    if isBlank c then
      let content := match rest with
        | d :: more => if isBlank d then more else rest
        | [] => []
      if '\n' ∈ content then none else some content
    else none
  | _, _ => none

/-- What follows the marker of an echo, if the line has one. -/
def echoContent? (line : Text) : Option Text :=
  match line with
  | '.' :: ' ' :: ' ' :: rest => some rest
  | '.' :: ' ' :: rest => some rest
  | '.' :: _ => none
  | '>' :: ' ' :: rest => some rest
  | ':' :: ' ' :: rest => some rest
  | _ => numberedContent? line

/-- How strongly an output line is tied to a submitted one. -/
inductive MatchQuality where
  /-- What is echoed is the submitted line. -/
  | exact
  /-- One of the two only begins with the other. -/
  | heuristic
deriving DecidableEq, Repr

/-- How strongly an output line is tied to a submitted line, if it is at all. Blanks at either end
do not count. -/
def matchEcho (line submitted : Text) : Option MatchQuality :=
  match echoContent? line with
  | none => none
  | some content =>
    let content := Text.trim content
    let submitted := Text.trim submitted
    if content = submitted then some .exact
    else if content ≠ [] ∧
        (Text.startsWith content submitted ∨ Text.startsWith submitted content) then
      some .heuristic
    else none

/-! ## Wrapped echoes -/

/-- Whether a line looks like an echo that may be wrapped. -/
def looksLikeEcho (line : Text) : Bool :=
  Text.startsWith ". ".toList line || line == ['.'] || (numberedContent? line).isSome

/-- Lines after `previous`, with the continuations of an echo joined onto it. -/
def joinOnto (previous : Text) : List Text → List Text
  | [] => [previous]
  | line :: more =>
    match Text.after? "> ".toList line with
    | some rest =>
      if looksLikeEcho previous then joinOnto (previous ++ rest) more
      else previous :: joinOnto line more
    | none => previous :: joinOnto line more

/-- The lines of a text, with wrapped echoes joined. -/
def joinWrapped (t : Text) : List Text :=
  match Text.lines t with
  | [] => []
  | line :: more => joinOnto line more

end DoRunner.Echo
