import DoRunner.Chunk.Assembly
import DoRunner.Disk

/-!
# Moving a chunk through the program

A **transport** submits the lines of a chunk to the statistics program and captures what the program
prints for them. There are two, for the two ways in which the program can be reached; what they have
in common stands here: how they can fail, what they capture, and what surrounds them.

Neither transport is alone. Beside it is a disk, which it shares with the program; whatever acts
beside a disk is a **guest** of a `Host`, and an `Action` is what it does there. An action that
fails leaves its host as it was when the failure came, so nothing that happened before is forgotten.

Time is counted in microseconds and only as far as somebody waits: what waits says how long it took.
-/

namespace DoRunner

/-! ## Failures -/

/-- Why talking to the program failed. -/
inductive TransportError where
  /-- The time for the call was over. -/
  | timeout (waitingFor : String)
  /-- The program has ended its output. -/
  | closed
  /-- The output has ended where the prompt should have come. -/
  | missingPrompt
  /-- An operation on a file or a program failed. -/
  | io (context : Text)
  /-- The terminal failed. -/
  | pty (context message : Text)
  /-- A command to the application failed. -/
  | automation (command message : Text)
  /-- None of the logs could be opened. -/
  | logUnavailable (directory : Text) (attempts : Nat)
deriving DecidableEq, Repr

/-- The wording of the failure. -/
def TransportError.message : TransportError → String
  | timeout waitingFor => "timed out waiting for " ++ waitingFor
  | closed => "process channel closed"
  | missingPrompt => "ready prompt not found in process output"
  | io context => "I/O error while " ++ String.ofList context
  | pty context message =>
    "pty error while " ++ String.ofList context ++ ": " ++ String.ofList message
  | automation command message =>
    "automation command `" ++ String.ofList command ++ "` failed: " ++ String.ofList message
  | logUnavailable directory attempts =>
    "could not open a session log in " ++ String.ofList directory ++ " after " ++
      toString attempts ++ " attempts"

/-! ## What surrounds a transport -/

/-- A guest and the disk beside it. -/
structure Host (α : Type) where
  /-- What acts here. -/
  guest : α
  /-- The disk that it shares with others. -/
  disk : Disk
deriving Repr

/-- What a guest does. It may fail, and the host is what it has become in either case. -/
abbrev Action (α β : Type) := EStateM TransportError (Host α) β

/-- What a part of a guest does, as something that the guest does. -/
def Action.within {α γ β : Type} (part : α → γ) (withPart : α → γ → α) (action : Action γ β) :
    Action α β := fun h =>
  match action ⟨part h.guest, h.disk⟩ with
  | .ok b h' => .ok b ⟨withPart h.guest h'.guest, h'.disk⟩
  | .error e h' => .error e ⟨withPart h.guest h'.guest, h'.disk⟩

/-- A result with the time in microseconds that it took. -/
structure Timed (α : Type) where
  /-- The result. -/
  value : α
  /-- The time it took. -/
  took : Nat
deriving Repr

/-! ## What is captured -/

/-- A line that was sent, with the raw output that it produced. -/
structure TranscriptEntry where
  /-- The line. -/
  sent : Text
  /-- The raw output. -/
  raw : Text
deriving DecidableEq, Repr

/-- What was captured for a chunk. -/
structure RawCapture where
  /-- The output as a log has it: each echo behind a prompt, then what the line printed. -/
  text : Text
  /-- The return code of the first line that failed, or zero. -/
  returnCode : Int
  /-- The lines sent, in order. -/
  transcript : List TranscriptEntry
deriving DecidableEq, Repr

namespace RawCapture

/-- Nothing captured. -/
def empty : RawCapture := ⟨[], 0, []⟩

/-- The capture with one more entry in its transcript. -/
def record (c : RawCapture) (sent raw : Text) : RawCapture :=
  { c with transcript := c.transcript ++ [⟨sent, raw⟩] }

/-- The capture with more text. -/
def extend (c : RawCapture) (t : Text) : RawCapture := { c with text := c.text ++ t }

end RawCapture

/-- How running a chunk ended: what was captured, all of it or up to a failure. -/
structure RunOutcome where
  /-- What was captured. -/
  capture : RawCapture
  /-- What failed, if something did. -/
  failure : Option TransportError
deriving DecidableEq, Repr

/-! ## Deadlines -/

/-- The time left of a limit, or the failure to have got what was waited for. -/
def timeLeft (limit elapsed : Nat) (waitingFor : String) : Except TransportError Nat :=
  if limit ≤ elapsed then .error (.timeout waitingFor) else .ok (limit - elapsed)

/-- Microseconds in a millisecond. -/
def perMillisecond : Nat := 1000

/-- Moves chunks through the statistics program. -/
class Transport (τ : Type) where
  /-- Submits a chunk and captures its output. The script of an indirect chunk is on the disk
  already. -/
  run : Chunk → Host τ → RunOutcome × Host τ
  /-- Forgets what is left over from a call that failed. -/
  reset : Host τ → Host τ
  /-- Ends the program. -/
  shutdown : Action τ Unit

end DoRunner
