import DoRunner.Text.Basic

/-!
# Notes about graph files

Exporting a graph prints a note with the path of the file. Only notes about numbered graph files are
of interest here, those that an injected export line writes.
-/

namespace DoRunner.GraphNote

/-- The name of a numbered graph file at the start of a text, with the slash before it, if one of
the `endings` follows it. -/
def graphName? (endings : List Text) (t : Text) : Option Text :=
  match Text.after? "/graph".toList t with
  | none => none
  | some rest =>
    let number := rest.takeWhile isDigit
    match rest.dropWhile isDigit with
    | '.' :: rest =>
      let extension := rest.takeWhile isWord
      if number ≠ [] ∧ extension ≠ [] ∧
          endings.any fun ending => Text.startsWith ending (rest.dropWhile isWord) then
        some ("/graph".toList ++ number ++ '.' :: extension)
      else none
    | _ => none

/-- The path at the start of a text: one or more characters, as few as can be, and then the name of
a graph file that one of the `endings` follows. -/
def path? (endings : List Text) : Text → Option Text
  | [] => none
  | c :: t =>
    if c = '\n' then none
    else match graphName? endings t with
      | some name => some (c :: name)
      | none => (path? endings t).map (c :: ·)

/-- The text after an optional opening parenthesis. -/
def afterParenthesis : Text → Text
  | '(' :: t => t
  | t => t

/-- The path in a note about a graph file that ends in one of the given ways. -/
def notePath? (endings : List Text) (line : Text) : Option Text :=
  let line := afterParenthesis line
  let line := (Text.after? "note: ".toList line).getD line
  (Text.after? "file ".toList line).bind (path? endings)

/-- The path of a graph file that a line reports as written. -/
def written? (line : Text) : Option Text :=
  notePath? [" written".toList, " saved".toList] line

/-- The path of a graph file that a line reports as not there before. -/
def notFound? (line : Text) : Option Text := notePath? [" not found".toList] line

end DoRunner.GraphNote
