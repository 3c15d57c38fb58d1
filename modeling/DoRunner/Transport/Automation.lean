import DoRunner.Echo.Line
import DoRunner.Echo.Terminal
import DoRunner.Text.Utf8
import DoRunner.Transport.Basic

/-!
# An application that writes a log

The application runs commands and reports return codes; what the commands print goes to a log on the
disk. The transport submits the lines of a chunk one by one and reads, after each, what the log has
gained. The log may lag behind, so after the last line it reads on until the log shows the echo of
the sentinel.

The log is read from where the last read ended, and bytes that begin a character at its end are held
back until the rest of the character is there. Waiting is bounded by the time that is left of the
call; every sleep uses up some of it.
-/

namespace DoRunner

/-- The commands of an application. -/
class Application (α : Type) where
  /-- Runs a command to its end and gives its return code. -/
  submitAndWait : Text → Action α (Timed Int)
  /-- Starts a command. -/
  submitAsync : Text → Action α Unit
  /-- Whether a command is still running. -/
  pollBusy : Action α (Timed Bool)
  /-- The return code of the command that was last started. -/
  lastErrorCode : Action α Int
  /-- Waits until nothing is running, for as many microseconds at most, and gives the time it took.
  Nothing comes back from an application that cannot wait. -/
  waitUntilIdle : Nat → Action α (Option Nat)
  /-- What becomes of the application and the disk in a time in which nothing is asked of it. -/
  pass : Nat → Host α → Host α

/-- An application with its log. -/
structure Automation (α : Type) where
  /-- The application. -/
  application : α
  /-- Where the log is. -/
  logPath : Text
  /-- The number of bytes of the log that have been read. -/
  logOffset : Nat
  /-- What has been read of a character that is not complete. -/
  decoder : Utf8.Carry
  /-- The time that one call may take, in microseconds. -/
  timeout : Nat
  /-- The time between two looks at the application, in microseconds. -/
  pollInterval : Nat
deriving Repr

namespace Automation

/-! ## Commands -/

/-- The name of the log within the application. -/
def logName : Text := "stata_kernel_log".toList

/-- The number of logs that are tried. -/
def logAttempts : Nat := 15

/-- The command that closes the log, if it is open. -/
def closeLogCommand : Text := "cap log close ".toList ++ logName

/-- The command that opens a log. -/
def openLogCommand (path : Text) : Text :=
  "log using \x60\"".toList ++ Path.forCommands path ++ "\"', replace text name(".toList ++
    logName ++ [')']

/-- The command that ends the application. -/
def exitCommand : Text := "exit, clear".toList

/-- The shortest time that a sleep takes, in microseconds. -/
def shortestSleep : Nat := 50

/-! ## One call -/

/-- A call while it goes on. -/
structure Call (α : Type) where
  /-- The application and the disk. -/
  host : Host α
  /-- Where the log is. -/
  logPath : Text
  /-- The number of bytes of the log that have been read. -/
  logOffset : Nat
  /-- What has been read of a character that is not complete. -/
  decoder : Utf8.Carry
  /-- The time between two looks. -/
  pollInterval : Nat
  /-- The time that the call may take. -/
  limit : Nat
  /-- The time that it has taken. -/
  elapsed : Nat
  /-- What was captured. -/
  capture : RawCapture
deriving Repr

/-- A step of a call. -/
abbrev Step (α β : Type) := EStateM TransportError (Call α) β

variable {α : Type} [Application α]

namespace Call

omit [Application α] in
/-- The time left of the call. -/
def left (c : Call α) : Nat := c.limit - c.elapsed

/-- What the application does, as a step. -/
def lift {β : Type} (action : Action α β) : Step α β := fun c =>
  match action c.host with
  | .ok b host => .ok b { c with host }
  | .error e host => .error e { c with host }

/-- What the application does in some time, as a step. -/
def liftTimed {β : Type} (action : Action α (Timed β)) : Step α β := fun c =>
  match action c.host with
  | .ok b host => .ok b.value { c with host, elapsed := c.elapsed + b.took }
  | .error e host => .error e { c with host }

/-- The call after a sleep: until it is time to look again, or as long as the call may still
take. -/
def slept (c : Call α) (left : Nat) : Call α :=
  let time := min c.pollInterval left
  { c with host := Application.pass time c.host, elapsed := c.elapsed + max shortestSleep time }

/-- Fails when the time of the call is over. -/
def checkTime (waitingFor : String) : Step α Nat := fun c =>
  match timeLeft c.limit c.elapsed waitingFor with
  | .ok left => .ok left c
  | .error e => .error e c

/-- Changes what is captured. -/
def captured (change : RawCapture → RawCapture) : Step α Unit := fun c =>
  .ok () { c with capture := change c.capture }

/-- Reads what the log has gained since it was last read. -/
def readLog : Step α Text := fun c =>
  match c.host.disk.read c.logPath with
  | none => .error (.io "opening session log".toList) c
  | some bytes =>
    let gained := bytes.drop c.logOffset
    let (text, decoder) := c.decoder.decode gained
    .ok text { c with decoder, logOffset := c.logOffset + gained.length }

end Call

omit [Application α] in
theorem left_pos {c : Call α} {waitingFor : String} {n : Nat}
    (h : timeLeft c.limit c.elapsed waitingFor = .ok n) : 0 < c.left := by
  unfold timeLeft at h
  split at h
  · simp at h
  · simp only [Call.left]; omega

theorem left_slept_lt {c : Call α} (left : Nat) (h : 0 < c.left) :
    (c.slept left).left < c.left := by
  simp only [Call.left, Call.slept, shortestSleep] at h ⊢
  omega

omit [Application α] in
theorem left_liftTimed_le {β : Type} {action : Action α (Timed β)} {c c' : Call α} {b : β}
    (h : Call.liftTimed action c = .ok b c') : c'.left ≤ c.left := by
  unfold Call.liftTimed at h
  split at h
  · simp only [EStateM.Result.ok.injEq] at h
    obtain ⟨-, rfl⟩ := h
    simp only [Call.left]
    omega
  · simp at h

omit [Application α] in
theorem left_readLog {c c' : Call α} {t : Text} (h : Call.readLog c = .ok t c') :
    c'.limit = c.limit ∧ c'.elapsed = c.elapsed := by
  unfold Call.readLog at h
  split at h
  · simp at h
  · simp only [EStateM.Result.ok.injEq] at h
    obtain ⟨-, rfl⟩ := h
    exact ⟨rfl, rfl⟩

/-! ## Waiting -/

/-- Looks again and again until nothing is running. -/
def pollUntilIdle (c : Call α) : EStateM.Result TransportError (Call α) Unit :=
  match _ : Call.liftTimed Application.pollBusy c with
  | .error e c' => .error e c'
  | .ok false c' => .ok () c'
  | .ok true c' =>
    match _ : timeLeft c'.limit c'.elapsed "idle application" with
    | .error e => .error e c'
    | .ok left => pollUntilIdle (c'.slept left)
termination_by c.left
decreasing_by
  have polled := left_liftTimed_le (by assumption)
  have slept := left_slept_lt left (left_pos (by assumption))
  omega

/-- Waits until nothing is running, in the application where it can do that. -/
def waitIdle : Step α Unit := do
  let left ← Call.checkTime "idle application"
  match ← Call.lift (Application.waitUntilIdle left) with
  | some took => fun c => .ok () { c with elapsed := c.elapsed + took }
  | none => pollUntilIdle

/-- Whether a line of the log is the echo of what was submitted. Blanks do not count. -/
def echoes (line submitted : Text) : Bool :=
  match line with
  | '.' :: rest => Text.trim rest == Text.trim submitted
  | _ => false

/-- Whether a text of the log shows the echo of the sentinel, wrapped or not. -/
def showsSentinel (sentinel collected : Text) : Bool :=
  (Echo.joinWrapped (Terminal.dropCarriageReturns collected)).any fun line =>
    echoes line sentinel

/-- Reads the log until it shows the echo of the sentinel, and gives all that was read after
`collected`. -/
def tailUntil (sentinel collected : Text) (c : Call α) :
    EStateM.Result TransportError (Call α) Text :=
  match _ : Call.readLog c with
  | .error e c' => .error e c'
  | .ok gained c' =>
    if showsSentinel sentinel (collected ++ gained) then .ok (collected ++ gained) c'
    else
      match _ : timeLeft c'.limit c'.elapsed "sentinel echo" with
      | .error e => .error e c'
      | .ok left => tailUntil sentinel (collected ++ gained) (c'.slept left)
termination_by c.left
decreasing_by
  have read := left_readLog (by assumption)
  have slept := left_slept_lt left (left_pos (by assumption))
  simp only [Call.left] at read slept ⊢
  omega

/-! ## Running a chunk -/

/-- Submits a line and gives its return code. A line that includes the script is started and waited
for, since it may run long. -/
def submit (indirect : Bool) (line : Text) : Step α Int := do
  if indirect then
    Call.lift (Application.submitAsync line)
    waitIdle
    Call.lift Application.lastErrorCode
  else Call.liftTimed (Application.submitAndWait line)

/-- Adds to what is captured what a line made the log gain. -/
def capture (line raw : Text) : Step α Unit :=
  Call.captured fun capture => (capture.extend raw).record line raw

/-- Submits lines one after another, up to the first that fails. -/
def submitAll (indirect : Bool) : List Text → Step α Unit
  | [] => return ()
  | line :: lines => do
    let code ← submit indirect line
    capture line (← Call.readLog)
    if code = 0 then submitAll indirect lines
    else Call.captured fun capture => { capture with returnCode := code }

/-- Submits the lines of a chunk, the sentinel last. The sentinel is submitted after a failure too,
so that the log is known to be complete up to there. -/
def runLines (indirect : Bool) (lines : List Text) : Step α Unit :=
  match lines.getLast? with
  | none => return ()
  | some sentinel => do
    submitAll indirect lines.dropLast
    Call.lift (Application.submitAsync sentinel)
    let tail ← tailUntil sentinel []
    capture sentinel tail

/-! ## The transport -/

omit [Application α] in
/-- A call that has taken no time yet. -/
def Call.ofHost (h : Host (Automation α)) : Call α :=
  { host := ⟨h.guest.application, h.disk⟩
    logPath := h.guest.logPath
    logOffset := h.guest.logOffset
    decoder := h.guest.decoder
    pollInterval := h.guest.pollInterval
    limit := h.guest.timeout
    elapsed := 0
    capture := .empty }

omit [Application α] in
/-- What is left of a call when it is over. -/
def Call.toHost (c : Call α) : Host (Automation α) :=
  ⟨⟨c.host.guest, c.logPath, c.logOffset, c.decoder, c.limit, c.pollInterval⟩, c.host.disk⟩

/-- Submits a chunk line by line. -/
def run (chunk : Chunk) (h : Host (Automation α)) : RunOutcome × Host (Automation α) :=
  match runLines chunk.indirect chunk.submissionLines (Call.ofHost h) with
  | .ok () c => (⟨c.capture, none⟩, c.toHost)
  | .error e c => (⟨c.capture, some e⟩, c.toHost)

omit [Application α] in
/-- Passes over what the log has gained. -/
def reset (h : Host (Automation α)) : Host (Automation α) :=
  let logOffset := match h.disk.read h.guest.logPath with
    | some bytes => bytes.length
    | none => h.guest.logOffset
  { h with guest := { h.guest with logOffset, decoder := .empty } }

omit [Application α] in
/-- What the application does, as something that it does with its log. -/
def onApplication {β : Type} (action : Action α β) : Action (Automation α) β :=
  action.within (·.application) fun automation application => { automation with application }

/-- Closes the log and ends the application. -/
def shutdown : Action (Automation α) Unit := do
  let _ ← onApplication (Application.submitAndWait closeLogCommand)
  onApplication (Application.submitAsync exitCommand)

instance : Transport (Automation α) := ⟨run, reset, shutdown⟩

/-! ## Opening the log -/

/-- Tries numbered logs, as another application may hold one of them, and gives the first that can
be opened. -/
def openLog (cache : CachePaths) (pollInterval : Nat) : Nat → Nat → Action α (Option Text)
  | 0, _ => return none
  | attempts + 1, index => do
    let path := cache.logFile index
    let code ← Application.submitAndWait (openLogCommand path)
    if code.value = 0 then return some path
    else
      modify (Application.pass pollInterval)
      openLog cache pollInterval attempts (index + 1)

/-- A log that was opened. -/
structure OpenedLog where
  /-- Where it is. -/
  path : Text
  /-- The number of bytes in it. -/
  length : Nat
deriving DecidableEq, Repr

omit [Application α] in
/-- A log at a path, if it is on the disk. -/
def openedAt (path : Text) : Action α OpenedLog := fun h =>
  match h.disk.read path with
  | some bytes => .ok ⟨path, bytes.length⟩ h
  | none => .error (.io "reading log metadata".toList) h

/-- Closes the log that the application may have open, and opens one. -/
def openSessionLog (cache : CachePaths) (pollInterval : Nat) : Action α OpenedLog := do
  let _ ← Application.submitAndWait closeLogCommand
  match ← openLog cache pollInterval logAttempts 0 with
  | some path => openedAt path
  | none => throw (.logUnavailable cache.root logAttempts)

omit [Application α] in
/-- An application with a log just opened. What the log holds already is not read. -/
def ofApplication (application : α) (log : OpenedLog) (timeout pollInterval : Nat) :
    Automation α :=
  ⟨application, log.path, log.length, .empty, timeout, pollInterval⟩

end Automation

end DoRunner
