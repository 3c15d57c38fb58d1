import DoRunner.Text.Basic

/-!
# Return codes in the output

A statement that fails ends its output with a line that carries a return code. The first such line
of an output decides, even when its code is not one that can be used.
-/

namespace DoRunner.ReturnCode

/-- The digits of the return code that a line starts with. -/
def digits? (line : Text) : Option Text :=
  match Text.after? "r(".toList line with
  | none => none
  | some rest =>
    let digits := rest.takeWhile isDigit
    if digits ≠ [] ∧ Text.startsWith ");".toList (rest.dropWhile isDigit) then some digits else none

/-- The greatest return code. -/
def greatest : Nat := 2147483647

/-- The first return code in an output, if it is written in ASCII digits and has 32 bits. -/
def first? (raw : Text) : Option Int :=
  match (Text.lines raw).findSome? digits? with
  | none => none
  | some digits =>
    match Text.toNat? digits with
    | some n => if n ≤ greatest then some n else none
    | none => none

end DoRunner.ReturnCode
