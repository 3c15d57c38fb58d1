import DoRunner.Chunk.Assembly
import DoRunner.Echo.GraphNote
import DoRunner.Echo.Line

/-!
# Lining output up with what was submitted

The captured output of a chunk holds the echo of every submitted line, then that of the sentinel,
with the output of the statements in between. `reconcile` walks over its lines once. Each line is
either the echo of the next expected line, in which case it is dropped; or a note about an exported
graph, which becomes an artifact; or output, which is kept once the first echo has been seen.

Only lines under a silencing prefix may be passed over without an echo. A statement that is sent on
its own must be echoed exactly: a match that only shares a beginning is accepted, but reported. When
the chunk failed, the echoes end where it failed, and missing ones are no error.
-/

namespace DoRunner

/-- What does not fit between the output and the submitted lines. -/
inductive ReconcileError where
  /-- A line that must echo has no echo. -/
  | echoNotFound (line : Text)
  /-- An echo is tied to a line only by a shared beginning, and the line is not part of a block. -/
  | ambiguous (line echo : Text)
  /-- The echo of the sentinel is missing. -/
  | sentinelMissing (sentinel : Text)
deriving DecidableEq, Repr

/-- The wording of the error. -/
def ReconcileError.message : ReconcileError → String
  | echoNotFound line => "echo of `" ++ String.ofList line ++ "` not found in output"
  | ambiguous line echo =>
    "echo of `" ++ String.ofList line ++ "` matched only heuristically by `" ++
      String.ofList echo ++ "`"
  | sentinelMissing sentinel =>
    "completion sentinel `" ++ String.ofList sentinel ++ "` not found in output"

/-- What was recovered from the output of a chunk. -/
structure Reconciled where
  /-- The output between the first echo and that of the sentinel, blank lines at its ends left
  out. -/
  output : Text
  /-- The graph files reported as written. -/
  artifacts : List Text
  /-- The number of expected lines whose echo was found. -/
  matched : Nat
  /-- Whether the echo of the sentinel was found. -/
  sentinelSeen : Bool
  /-- The first thing that does not fit. -/
  error : Option ReconcileError
deriving DecidableEq, Repr

namespace Reconcile

/-- The expected line that an output line echoes, how strongly it is tied to it, and the lines
expected after it. Only silent lines are passed over. -/
def claim? (line : Text) :
    List ExpectedLine → Option (ExpectedLine × Echo.MatchQuality × List ExpectedLine)
  | [] => none
  | expected :: more =>
    match Echo.matchEcho line expected.text with
    | some quality => some (expected, quality, more)
    | none => if expected.kind = .silent then claim? line more else none

/-- The state of the walk between two lines. Kept lines and artifacts are listed latest first. -/
structure State where
  /-- The lines still expected. -/
  expected : List ExpectedLine
  /-- The number of echoes found. -/
  matched : Nat
  /-- The lines of output kept. -/
  output : List Text
  /-- The graph files reported as written. -/
  artifacts : List Text
  /-- The first echo that was tied too loosely. -/
  error : Option ReconcileError
deriving DecidableEq, Repr

/-- The walk before its first line. -/
def State.initial (expected : List ExpectedLine) : State := ⟨expected, 0, [], [], none⟩

/-- What a line that echoes nothing adds. -/
def keep (cacheRoot : Text) (s : State) (line : Text) : State :=
  match (GraphNote.written? line).filter (Text.startsWith cacheRoot) with
  | some path => { s with artifacts := path :: s.artifacts }
  | none =>
    if (GraphNote.notFound? line).any (Text.startsWith cacheRoot) then s
    else if s.matched = 0 then s
    else { s with output := line :: s.output }

/-- One line of the walk. -/
def step (cacheRoot : Text) (s : State) (line : Text) : State :=
  match claim? line s.expected with
  | some (expected, quality, more) =>
    let loose := quality = .heuristic ∧ expected.kind ≠ .block
    { s with
      expected := more
      matched := s.matched + 1
      error := if loose then s.error <|> some (.ambiguous expected.text line) else s.error }
  | none => keep cacheRoot s line

/-- Whether a line is the echo of the sentinel. -/
def echoesSentinel (sentinel line : Text) : Bool := Echo.matchEcho line sentinel == some .exact

/-- The walk over lines: its last state, and whether it met the echo of the sentinel, with which it
ends. -/
def walk (cacheRoot sentinel : Text) (s : State) : List Text → State × Bool
  | [] => (s, false)
  | line :: more =>
    if echoesSentinel sentinel line then (s, true)
    else walk cacheRoot sentinel (step cacheRoot s line) more

/-- Lines without the blank ones at either end. -/
def trimBlankLines (lines : List Text) : List Text :=
  ((lines.dropWhile Text.blank).reverse.dropWhile Text.blank).reverse

/-- The error to report: the one met on the way, else, when the chunk did not fail, a line without
an echo or the missing echo of the sentinel. -/
def verdict (returnCode : Int) (sentinel : Text) (s : State) (sentinelSeen : Bool) :
    Option ReconcileError :=
  if returnCode ≠ 0 then s.error
  else s.error <|>
    ((s.expected.find? fun line => line.kind != .silent).map fun line =>
      .echoNotFound line.text) <|>
    if sentinelSeen then none else some (.sentinelMissing sentinel)

end Reconcile

/-- Recovers from captured output what the statements printed, given the lines whose echoes are
expected, the sentinel, and the return code of the chunk. -/
def reconcile (raw : Text) (expected : List ExpectedLine) (sentinel : Text) (returnCode : Int)
    (cache : CachePaths) : Reconciled :=
  let lines := Echo.joinWrapped (Terminal.plain raw)
  let (s, sentinelSeen) :=
    Reconcile.walk cache.rootForCommands sentinel (.initial expected) lines
  { output := Text.unlines (Reconcile.trimBlankLines s.output.reverse)
    artifacts := s.artifacts.reverse
    matched := s.matched
    sentinelSeen
    error := Reconcile.verdict returnCode sentinel s sentinelSeen }

end DoRunner
