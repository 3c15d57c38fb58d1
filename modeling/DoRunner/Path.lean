import DoRunner.Text.Basic

/-!
# Paths

Paths are texts in which slashes separate components. Joining puts exactly one slash between a
directory and what is in it, and a path that starts with a slash stands for itself wherever it is
joined.
-/

namespace DoRunner.Path

/-- Whether the path starts at the root of the file system. -/
def isAbsolute (path : Text) : Bool := path.head? == some '/'

/-- The path of `inner` seen from the directory `directory`. -/
def join (directory inner : Text) : Text :=
  if isAbsolute inner then inner
  else if directory = [] ∨ directory.getLast? = some '/' then directory ++ inner
  else directory ++ '/' :: inner

/-- The names between the slashes of a path. Empty names and the name of the same directory mean
nothing, except that a path may start with the latter. -/
def components (path : Text) : List Text :=
  match Text.splitAt '/' path with
  | ['.'] :: more => ['.'] :: more.filter fun name => name != [] && name != ['.']
  | names => names.filter fun name => name != [] && name != ['.']

/-- The last component of a path, unless it leads to the directory above or is the path's own
directory. -/
def fileName? (path : Text) : Option Text :=
  match (components path).getLast? with
  | some name => if name = ['.', '.'] ∨ name = ['.'] then none else some name
  | none => none

/-- A path as it is written in commands: backslashes become slashes. -/
def forCommands (path : Text) : Text := path.map fun c => if c = '\\' then '/' else c

/-- The text without the slashes, and the components that mean nothing, at its start. -/
def dropEmptyComponents : Text → Text
  | '/' :: t => dropEmptyComponents t
  | ['.'] => []
  | '.' :: '/' :: t => dropEmptyComponents t
  | t => t

/-- The text without the slashes, and the components that mean nothing, at either end. -/
def trimComponents (t : Text) : Text :=
  (dropEmptyComponents (dropEmptyComponents t).reverse).reverse

/-- What follows the first component of a path, if that component is `name`. -/
def afterFirst? (name path : Text) : Option Text :=
  match Text.after? name path with
  | some [] => some []
  | some ('/' :: rest) => some (trimComponents rest)
  | _ => none

/-- A path whose first component, if it is a tilde, is replaced by the home directory. Without a
home directory, the path stays as it is. -/
def expandHome (home : Option Text) (path : Text) : Text :=
  match afterFirst? ['~'] path, home with
  | some rest, some home => join home rest
  | _, _ => path

end DoRunner.Path
