import DoRunner.Config.Binary64
import DoRunner.Text.Basic

/-!
# Values of a TOML document

A document is a table. Besides its entries a table remembers how it came about, since that decides
what may still be added to it: a table with a header of its own, or one written in braces, is
closed to dotted keys, while tables that a longer header or a dotted key only passes through stay
open in their own way.
-/

namespace DoRunner.Toml

/-- How a table came about. -/
inductive TableOrigin where
  /-- It is written in braces. -/
  | braces
  /-- It has a header of its own, or is the document. -/
  | header
  /-- The header of a table inside it passes through it. -/
  | passedByHeader
  /-- A dotted key passes through it. -/
  | passedByKey
deriving DecidableEq, Repr

/-- A value. Dates and times carry nothing, since no setting has one. -/
inductive Value where
  /-- A text. -/
  | string (t : Text)
  /-- An integer of 64 bits. -/
  | integer (n : Int)
  /-- A floating point number. -/
  | float (x : Binary64)
  /-- A truth value. -/
  | boolean (b : Bool)
  /-- A date, a time or both. -/
  | datetime
  /-- Values in brackets. -/
  | array (values : List Value)
  /-- A table with its entries in order. -/
  | table (origin : TableOrigin) (entries : List (Text × Value))
  /-- Tables whose headers have double brackets, the latest first. -/
  | tables (entries : List (List (Text × Value)))
deriving Repr

/-- The entries of a table. -/
abbrev Entries := List (Text × Value)

namespace Entries

/-- The value of a key. -/
def get? (entries : Entries) (key : Text) : Option Value :=
  (entries.find? fun entry => entry.1 == key).map (·.2)

/-- The entries with another value for a key that is there, or with one more key. -/
def set (entries : Entries) (key : Text) (value : Value) : Entries :=
  if (get? entries key).isSome then
    entries.map fun entry => if entry.1 = key then (key, value) else entry
  else entries ++ [(key, value)]

end Entries

/-! ## Building tables -/

/-- Adds a key with its value, reached by a dotted path. Tables on the path are made where they are
missing, and the last of them must be one that dotted keys have made. There is no result when the
path goes through something closed to it, or when the key is there already. -/
def addKey (entries : Entries) : List Text → Text → Value → Option Entries
  | [], key, value =>
    if (entries.get? key).isSome then none else some (entries ++ [(key, value)])
  | name :: path, key, value =>
    match (entries.get? name).getD (.table .passedByKey []) with
    | .table .passedByKey inner =>
      (addKey inner path key value).map fun inner =>
        entries.set name (.table .passedByKey inner)
    | .table .passedByHeader inner =>
      if path = [] then none
      else (addKey inner path key value).map fun inner =>
        entries.set name (.table .passedByHeader inner)
    | .tables (last :: earlier) =>
      if path = [] then none
      else (addKey last path key value).map fun last =>
        entries.set name (.tables (last :: earlier))
    | _ => none

/-- Changes the entries of the table that headers lead to, which are made where they are missing. A
header leads to the latest of several tables of one name. -/
def changeAt (change : Entries → Option Entries) (entries : Entries) :
    List Text → Option Entries
  | [] => change entries
  | name :: path =>
    match (entries.get? name).getD (.table .passedByHeader []) with
    | .table .braces _ => none
    | .table origin inner =>
      (changeAt change inner path).map fun inner => entries.set name (.table origin inner)
    | .tables (last :: earlier) =>
      (changeAt change last path).map fun last => entries.set name (.tables (last :: earlier))
    | _ => none

/-- Opens the table of a header. A table can be opened once; one that only headers have passed
through is not open yet. -/
def openTable (name : Text) (entries : Entries) : Option Entries :=
  match entries.get? name with
  | none => some (entries ++ [(name, .table .header [])])
  | some (.table .passedByHeader inner) => some (entries.set name (.table .header inner))
  | some _ => none

/-- Opens one more table of a header with double brackets. -/
def openNext (name : Text) (entries : Entries) : Option Entries :=
  match entries.get? name with
  | none => some (entries ++ [(name, .tables [[]])])
  | some (.tables earlier) => some (entries.set name (.tables ([] :: earlier)))
  | some _ => none

end DoRunner.Toml
