import DoRunner.Source.Mode
import DoRunner.Source.Past

/-!
# String literals

Plain strings stand between double quotes and end with their line at the latest. Compound strings
open with a backquote and a double quote, close with a double quote and an apostrophe, and nest.
Both passes read strings alike, so the rules stand here once.

A step always reads one character; where it reads a longer quote, it says how many more.
-/

namespace DoRunner.Quote

/-- The string mode that opens where `rest` begins, and how many characters the opening quote has
beyond one. A double quote after a backquote opens nothing: it belongs to a compound quote. -/
def opens? (past : Past) (rest : Text) : Option (Mode × Nat) :=
  match rest with
  | '\x60' :: '"' :: _ => some (.compoundString 1, 1)
  | '"' :: _ => if past.afterBackquote then none else some (.plainString, 0)
  | _ => none

/-- Whether a plain string closes here: at a double quote, unless an apostrophe follows it. -/
def closesPlain (rest : Text) : Bool :=
  match rest with
  | '"' :: '\'' :: _ => false
  | '"' :: _ => true
  | _ => false

/-- One step inside the string on top of the stack: the stack after it, and how many characters it
reads beyond one. -/
def step (modes : ModeStack) (rest : Text) : ModeStack × Nat :=
  match modes.top with
  | .compoundString _ =>
    match rest with
    | '\x60' :: '"' :: _ => (modes.push (.compoundString 1), 1)
    | '"' :: '\'' :: _ => (modes.pop, 1)
    | _ => (modes, 0)
  | _ => (if closesPlain rest then modes.pop else modes, 0)

end DoRunner.Quote
