import DoRunner.Path

/-!
# The disk

A session shares a disk with the program it drives: it writes the include script there, and the
program writes its log. The disk is a value, a list of what was put at each place with the latest
first, so that what an operation does to it can be said and compared.

Operations fail where a component on the way is missing or is a file. They do not say why, since no
answer depends on it.
-/

namespace DoRunner

/-- What is at a place. -/
inductive DiskEntry where
  /-- A directory. -/
  | directory
  /-- A file with its bytes. -/
  | file (bytes : List UInt8)
deriving DecidableEq, Repr

/-- The names that lead to a place from the root of the disk, the last one first. -/
abbrev Place := List Text

/-- A disk, seen from a working directory. -/
structure Disk where
  /-- What was put at places or removed from them, the latest first. -/
  changes : List (Place × Option DiskEntry)
  /-- The directory that relative paths start in. -/
  workingDirectory : Place
deriving DecidableEq, Repr

namespace Disk

/-- What is at a place. The root is always a directory. -/
def entryAt (d : Disk) (place : Place) : Option DiskEntry :=
  if place = [] then some .directory
  else ((d.changes.find? fun change => change.1 == place).map (·.2)).getD none

/-- Puts something at a place, or nothing. -/
def put (d : Disk) (place : Place) (entry : Option DiskEntry) : Disk :=
  { d with changes := (place, entry) :: d.changes }

/-- The place that a name leads to. -/
def stepTo (here : Place) (name : Text) : Place :=
  if name = [] ∨ name = ['.'] then here
  else if name = ['.', '.'] then here.tail
  else name :: here

/-- The place that names lead to, each but the last through a directory. -/
def follow (d : Disk) (here : Place) : List Text → Option Place
  | [] => some here
  | name :: names =>
    if d.entryAt here = some .directory then follow d (stepTo here name) names else none

/-- Where a path starts. -/
def startOf (d : Disk) (path : Text) : Place :=
  if Path.isAbsolute path then [] else d.workingDirectory

/-- The place of a path; an empty path has none. -/
def locate (d : Disk) (path : Text) : Option Place :=
  if path = [] then none else follow d (startOf d path) (Text.splitAt '/' path)

/-- The bytes of a file. -/
def read (d : Disk) (path : Text) : Option (List UInt8) :=
  match (d.locate path).bind d.entryAt with
  | some (.file bytes) => some bytes
  | _ => none

/-- The disk with a file written, whether it was there before or not. -/
def write (d : Disk) (path : Text) (bytes : List UInt8) : Option Disk :=
  match d.locate path with
  | none => none
  | some place =>
    if d.entryAt place = some .directory then none else some (d.put place (some (.file bytes)))

/-- The disk with bytes added to a file that is there. -/
def append (d : Disk) (path : Text) (bytes : List UInt8) : Option Disk :=
  match d.locate path with
  | none => none
  | some place =>
    match d.entryAt place with
    | some (.file earlier) => some (d.put place (some (.file (earlier ++ bytes))))
    | _ => none

/-- The disk without a file that was there. -/
def remove (d : Disk) (path : Text) : Option Disk :=
  match d.locate path with
  | none => none
  | some place =>
    match d.entryAt place with
    | some (.file _) => some (d.put place none)
    | _ => none

/-- The disk with directories made along names where nothing is there. -/
def makeAlong (d : Disk) (here : Place) : List Text → Option Disk
  | [] => some d
  | name :: names =>
    let next := stepTo here name
    match d.entryAt next with
    | some .directory => makeAlong d next names
    | some (.file _) => none
    | none => makeAlong (d.put next (some .directory)) next names

/-- The disk with a directory and all those that lead to it. -/
def createDirectories (d : Disk) (path : Text) : Option Disk :=
  if path = [] then some d else makeAlong d (startOf d path) (Text.splitAt '/' path)

/-- A disk with nothing on it but an empty working directory. -/
def empty : Disk := ⟨[(["work".toList], some .directory)], ["work".toList]⟩

/-- What is put at a place is there. -/
theorem entryAt_put_same (d : Disk) {place : Place} (h : place ≠ []) (entry : Option DiskEntry) :
    (d.put place entry).entryAt place = entry := by
  simp [entryAt, put, h]

/-- Putting something at a place changes no other place. -/
theorem entryAt_put_of_ne (d : Disk) {place other : Place} (h : other ≠ place)
    (entry : Option DiskEntry) : (d.put place entry).entryAt other = d.entryAt other := by
  simp [entryAt, put, Ne.symm h]

end Disk

end DoRunner
