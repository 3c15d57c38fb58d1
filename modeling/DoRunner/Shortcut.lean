import DoRunner.Text.Basic

/-!
# Shortcuts

Two forms of a buffer are not do-file code at all. A buffer that starts with a percent sign is a
**meta command** for whoever holds the session: it is handed back and nothing is run. A buffer that
is a question mark and a topic asks for help and stands for a `help` command.
-/

namespace DoRunner

/-- A command to the holder of the session, written with a percent sign. -/
structure MetaCommand where
  /-- The word after the percent sign. -/
  name : Text
  /-- What follows the word, without blanks at either end. -/
  args : Text
deriving DecidableEq, Repr

namespace MetaCommand

/-- The meta command that a buffer is, if it is one: the sign, with a word right after it. -/
def ofCode? (code : Text) : Option MetaCommand :=
  match Text.trim code with
  | '%' :: rest =>
    match rest.takeWhile fun c => !isBlank c with
    | [] => none
    | name => some ⟨name, Text.trim (rest.dropWhile fun c => !isBlank c)⟩
  | _ => none

end MetaCommand

/-- The help command that a buffer stands for: a question mark, then a topic on one line. -/
def helpCommand? (code : Text) : Option Text :=
  match Text.trim code with
  | '?' :: rest =>
    let topic := Text.trim rest
    if topic = [] ∨ '\n' ∈ topic then none else some ("help ".toList ++ topic)
  | _ => none

end DoRunner
