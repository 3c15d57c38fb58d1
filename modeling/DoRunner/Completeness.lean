import DoRunner.Shortcut
import DoRunner.Source.Analysis

/-!
# Deciding when a buffer can be run

`checkComplete` answers for a whole buffer whether it can be run and which delimiter mode the
session is in afterwards. `Accumulator` asks it after each line that comes in and hands a buffer
over as soon as it is complete, so that input typed line by line is cut where it can be run.
-/

namespace DoRunner

/-- The verdict on a buffer. -/
structure Completeness where
  /-- Why the buffer cannot be run yet; none when it can. -/
  incomplete : Option IncompleteReason
  /-- The delimiter mode of the session after the buffer has run. -/
  nextMode : DelimiterMode
deriving DecidableEq, Repr

/-- Whether the buffer can be run. -/
def Completeness.isComplete (c : Completeness) : Bool := c.incomplete.isNone

/-- The verdict on `code` in a session whose delimiter mode is `mode`. A shortcut is always complete
and leaves the mode as it is. -/
def checkComplete (code : Text) (mode : DelimiterMode) : Completeness :=
  if (MetaCommand.ofCode? code).isSome ∨ (helpCommand? code).isSome then ⟨none, mode⟩
  else
    let analysis := Analysis.ofCode code mode
    ⟨analysis.incomplete?, analysis.finalMode⟩

/-- The verdict on code that is no shortcut comes from both passes. -/
theorem checkComplete_of_noShortcut {code : Text} (noMeta : MetaCommand.ofCode? code = none)
    (noHelp : helpCommand? code = none) (mode : DelimiterMode) :
    checkComplete code mode
      = ⟨(Analysis.ofCode code mode).incomplete?, (Analysis.ofCode code mode).finalMode⟩ := by
  rw [checkComplete, noMeta, noHelp, if_neg (by decide)]

/-! ## Collecting lines -/

/-- Lines collected until they can be run. -/
structure Accumulator where
  /-- The lines collected so far, with line feeds between them. -/
  pending : Text
  /-- The delimiter mode that the next buffer starts in. -/
  mode : DelimiterMode
deriving DecidableEq, Repr

/-- What became of a line. -/
inductive Accumulated where
  /-- The buffer is complete and is no longer pending. -/
  | complete (code : Text) (nextMode : DelimiterMode)
  /-- More lines are needed. -/
  | needMore (reason : IncompleteReason)
deriving DecidableEq, Repr

namespace Accumulator

/-- Nothing collected yet. -/
def initial (mode : DelimiterMode) : Accumulator := ⟨[], mode⟩

/-- The pending text with one more line. -/
def joined (a : Accumulator) (line : Text) : Text :=
  let line := Text.trimEndWhile (fun c => c == '\r' || c == '\n') line
  if a.pending = [] then line else a.pending ++ '\n' :: line

/-- Takes one more line and decides on what is pending then. -/
def pushLine (a : Accumulator) (line : Text) : Accumulated × Accumulator :=
  let code := a.joined line
  let verdict := checkComplete code a.mode
  match verdict.incomplete with
  | some reason => (.needMore reason, { a with pending := code })
  | none => (.complete code verdict.nextMode, ⟨[], verdict.nextMode⟩)

/-- Drops what is pending. -/
def clear (a : Accumulator) : Accumulator := { a with pending := [] }

end Accumulator

end DoRunner
