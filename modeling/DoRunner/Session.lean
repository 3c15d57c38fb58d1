import DoRunner.Completeness
import DoRunner.Config.Basic
import DoRunner.Echo.Reconcile
import DoRunner.Transport.Automation

/-!
# Sessions

A session holds one transport and what is carried from buffer to buffer: the delimiter mode and the
count of graphs. It decides whether a buffer can be run, assembles its chunk, has the transport run
it, and recovers the output from what was captured.

Whatever happens to a chunk, its return code and output are reported together with what went wrong.
A failure of the transport has a return code of its own, and the output is then what had been
captured until then.
-/

namespace DoRunner

/-- Why a buffer was not run, or not to the end, or not as expected. -/
inductive ExecutionError where
  /-- The buffer is not complete. -/
  | incomplete (reason : IncompleteReason)
  /-- The transport failed. -/
  | transport (e : TransportError)
  /-- The output does not fit the submitted lines. -/
  | reconcile (e : ReconcileError)
deriving DecidableEq, Repr

/-- The wording of the error. -/
def ExecutionError.message : ExecutionError → String
  | incomplete reason => "input is incomplete: " ++ reason.name
  | transport e => e.message
  | reconcile e => e.message

/-- Why a session did not start. -/
inductive SessionError where
  /-- The configuration cannot be used. -/
  | config (e : ConfigError)
  /-- The program could not be reached. -/
  | transport (e : TransportError)
  /-- The chunk that sets the session up failed. -/
  | init (returnCode : Int) (output : Text)
deriving DecidableEq, Repr

/-- The wording of the error. -/
def SessionError.message : SessionError → String
  | config e => e.message
  | transport e => e.message
  | init returnCode _ =>
    "session initialization failed with return code " ++ toString returnCode

/-- What came of executing a buffer. -/
structure ExecutionResult where
  /-- The return code of the first statement that failed, or zero, or the code of a failed
  transport. -/
  returnCode : Int
  /-- The output, without echoes. -/
  output : Text
  /-- The graph files written. -/
  artifacts : List Text
  /-- What went wrong. -/
  error : Option ExecutionError
  /-- A meta command, which is handed back and not run. -/
  metaCommand : Option MetaCommand
  /-- The lines sent, with the raw output of each. -/
  transcript : List TranscriptEntry
deriving DecidableEq, Repr

namespace ExecutionResult

/-- The return code when the transport failed. -/
def transportFailureCode : Int := -1

/-- Nothing ran and nothing went wrong. -/
def nothing : ExecutionResult := ⟨0, [], [], none, none, []⟩

/-- Whether all went well. -/
def isSuccess (r : ExecutionResult) : Bool := r.returnCode == 0 && r.error.isNone

end ExecutionResult

/-- A session with the program. -/
structure Session (τ : Type) where
  /-- The way to the program. -/
  transport : τ
  /-- What assembling needs. -/
  settings : AssemblySettings
  /-- What is carried from buffer to buffer. -/
  context : SessionContext
  /-- The width of output lines. -/
  linesize : Nat
deriving Repr

namespace Session

variable {τ : Type}

/-- A session that has run nothing yet. -/
def ofTransport (transport : τ) (config : SessionConfig) : Session τ :=
  ⟨transport, config.assemblySettings, .initial, config.linesize⟩

/-- The verdict on a buffer in the state the session is in. -/
def isComplete (s : Session τ) (code : Text) : Completeness :=
  checkComplete code s.context.mode

/-- The chunk of a buffer, without running it. An incomplete buffer changes nothing. -/
def prepare (s : Session τ) (code : Text) : Except ExecutionError Chunk × Session τ :=
  let analysis := Analysis.ofCode code s.context.mode
  match analysis.incomplete? with
  | some reason => (.error (.incomplete reason), s)
  | none =>
    let (chunk, context) := assemble analysis s.settings s.context
    (.ok chunk, { s with context })

/-! ## Executing -/

/-- The result of a chunk that was run: what reconciling its capture recovers, under the failure of
the transport if there was one. -/
def resultOf (s : Session τ) (chunk : Chunk) (outcome : RunOutcome) : ExecutionResult :=
  let capture := outcome.capture
  let reconciled := reconcile capture.text chunk.exclusion chunk.sentinel capture.returnCode
    s.settings.cache
  { returnCode := match outcome.failure with
      | some _ => ExecutionResult.transportFailureCode
      | none => capture.returnCode
    output := reconciled.output
    artifacts := reconciled.artifacts
    error := match outcome.failure with
      | some e => some (.transport e)
      | none => reconciled.error.map .reconcile
    metaCommand := none
    transcript := capture.transcript }

/-- The result when the transport failed before it captured anything. -/
def failed (e : TransportError) : ExecutionResult :=
  { ExecutionResult.nothing with
    returnCode := ExecutionResult.transportFailureCode
    error := some (.transport e) }

/-- The disk with the script of a chunk, where it needs one. -/
def writeScript (s : Session τ) (chunk : Chunk) (disk : Disk) : Except TransportError Disk :=
  if chunk.indirect then
    let path := s.settings.cache.includeScript
    match disk.write path (Utf8.encode chunk.scriptText) with
    | some disk => .ok disk
    | none => .error (.io ("writing ".toList ++ path))
  else .ok disk

variable [Transport τ]

/-- Has the transport run a chunk. A transport that failed is reset before it is used again. -/
def runChunk (chunk : Chunk) (h : Host (Session τ)) : ExecutionResult × Host (Session τ) :=
  let s := h.guest
  let (outcome, after) := Transport.run chunk (⟨s.transport, h.disk⟩ : Host τ)
  let after := if outcome.failure.isSome then Transport.reset after else after
  (s.resultOf chunk outcome, ⟨{ s with transport := after.guest }, after.disk⟩)

/-- Executes code that is no shortcut. -/
def executeCode (code : Text) (h : Host (Session τ)) : ExecutionResult × Host (Session τ) :=
  let (prepared, s) := h.guest.prepare code
  match prepared with
  | .error e => ({ ExecutionResult.nothing with error := some e }, ⟨s, h.disk⟩)
  | .ok chunk =>
    if chunk.isEmpty then (.nothing, ⟨s, h.disk⟩)
    else match s.writeScript chunk h.disk with
      | .error e => (failed e, ⟨s, h.disk⟩)
      | .ok disk => runChunk chunk ⟨s, disk⟩

/-- Executes a buffer. A meta command is handed back, and a request for help is run as the command
it stands for. -/
def execute (code : Text) (h : Host (Session τ)) : ExecutionResult × Host (Session τ) :=
  match MetaCommand.ofCode? code with
  | some command => ({ ExecutionResult.nothing with metaCommand := some command }, h)
  | none => executeCode ((helpCommand? code).getD code) h

/-! ## Starting and ending -/

/-- The code that sets a session up. -/
def initCode (linesize : Nat) : Text :=
  "set more off\nset linesize ".toList ++ Text.ofNat linesize ++ "\nglobal ".toList ++
    graphCounter ++ " = 0".toList

/-- The disk with the cache directory on it. -/
def withCacheDirectory (cache : CachePaths) (disk : Disk) : Except TransportError Disk :=
  match disk.createDirectories cache.root with
  | some disk => .ok disk
  | none => .error (.io ("creating cache directory ".toList ++ cache.root))

/-- Sets the session up: makes its cache directory, runs the code that prepares the program, and
counts graphs from zero. -/
def start (h : Host (Session τ)) : Except SessionError Unit × Host (Session τ) :=
  match withCacheDirectory h.guest.settings.cache h.disk with
  | .error e => (.error (.transport e), h)
  | .ok disk =>
    let (result, h) := execute (initCode h.guest.linesize) ⟨h.guest, disk⟩
    match result.error with
    | some (.transport e) => (.error (.transport e), h)
    | _ =>
      if result.returnCode ≠ 0 then (.error (.init result.returnCode result.output), h)
      else
        let context := { h.guest.context with plotCounter := 0 }
        (.ok (), { h with guest := { h.guest with context } })

/-- Ends the program. The session is of no use afterwards. -/
def shutdown : Action (Session τ) Unit :=
  Action.within (·.transport) (fun s transport => { s with transport }) Transport.shutdown

end Session

/-! ## Connecting to an application -/

namespace Session

variable {α : Type} [Application α]

/-- A transport to an application whose log is opened in the cache directory. When that fails, the
application is given back as it is then. -/
def openAutomation (config : SessionConfig) (h : Host α) :
    Except (TransportError × Host α) (Host (Automation α)) :=
  let timeout := config.timeoutMs * perMillisecond
  let pollInterval := config.pollIntervalMs * perMillisecond
  match Automation.openSessionLog config.cachePaths pollInterval h with
  | .ok log after => .ok ⟨.ofApplication after.guest log timeout pollInterval, after.disk⟩
  | .error e after => .error (e, after)

/-- Connects to an application and sets a session up. -/
def connectAutomation (config : SessionConfig) (h : Host α) :
    Except (SessionError × Host α) (Host (Session (Automation α))) :=
  match config.validate with
  | .error e => .error (.config e, h)
  | .ok () =>
    match withCacheDirectory config.cachePaths h.disk with
    | .error e => .error (.transport e, h)
    | .ok disk =>
      match openAutomation config ⟨h.guest, disk⟩ with
      | .error (e, after) => .error (.transport e, after)
      | .ok opened =>
        match start ⟨ofTransport opened.guest config, opened.disk⟩ with
        | (.error e, after) =>
          .error (e, ⟨after.guest.transport.application, after.disk⟩)
        | (.ok (), after) => .ok after

end Session

end DoRunner
