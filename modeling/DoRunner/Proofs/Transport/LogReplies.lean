import DoRunner.Proofs.Disk
import DoRunner.Proofs.Echo.Prompts
import DoRunner.Proofs.Text.Decoding
import DoRunner.Proofs.Transport.Exchange
import DoRunner.Proofs.Transport.LogAccounts
import DoRunner.Transport.Recorded

/-!
# An application that logs

An application answers a line when it runs the line, reports the return code that the answer carries
or zero, and the log gains the answer behind a prompt. `Logs` says this of one line after another.
How long the application is busy, and whether it can say when it is done, does not matter, as long
as it is done in time.

A call to such an application captures what the log has gained. Like a call over a console it stops
at the first line that fails; but it submits the sentinel in any case, and looks for its echo.
-/

namespace DoRunner.Automation

variable {α : Type} [Application α]

/-! ## Running a line -/

/-- Looking again and again finds the application idle. The numbers are the time left before and
after. -/
inductive Polls (pollInterval : Nat) : Nat → Host α → Nat → Host α → Prop where
  /-- It is idle. -/
  | idle {left took : Nat} {h h' : Host α} (free : Application.pollBusy h = .ok ⟨false, took⟩ h') :
      Polls pollInterval left h (left - took) h'
  /-- It is busy, and there is time to look again. -/
  | busy {left took left' : Nat} {h h₁ h' : Host α}
      (busy : Application.pollBusy h = .ok ⟨true, took⟩ h₁) (pos : took < left)
      (rest : Polls pollInterval
        (left - took - max shortestSleep (min pollInterval (left - took)))
        (Application.pass (min pollInterval (left - took)) h₁) left' h') :
      Polls pollInterval left h left' h'

/-- The application becomes idle in time. -/
inductive Idles (pollInterval : Nat) : Nat → Host α → Nat → Host α → Prop where
  /-- It can wait, and says so. -/
  | told {left took : Nat} {h h' : Host α} (pos : 0 < left)
      (told : Application.waitUntilIdle left h = .ok (some took) h') :
      Idles pollInterval left h (left - took) h'
  /-- It cannot wait, and is looked at. -/
  | polled {left left' : Nat} {h h₁ h' : Host α} (pos : 0 < left)
      (cannot : Application.waitUntilIdle left h = .ok none h₁)
      (polls : Polls pollInterval left h₁ left' h') : Idles pollInterval left h left' h'

/-- The application runs a line and reports a return code. -/
inductive Runs (pollInterval : Nat) : Bool → Text → Int → Nat → Host α → Nat → Host α → Prop where
  /-- A statement is run to its end. -/
  | statement {line : Text} {code : Int} {left took : Nat} {h h' : Host α}
      (done : Application.submitAndWait line h = .ok ⟨code, took⟩ h') :
      Runs pollInterval false line code left h (left - took) h'
  /-- A line that includes the script is started, and waited for. -/
  | script {line : Text} {code : Int} {left left' : Nat} {h h₁ h₂ h' : Host α}
      (started : Application.submitAsync line h = .ok () h₁)
      (idles : Idles pollInterval left h₁ left' h₂)
      (reported : Application.lastErrorCode h₂ = .ok code h') :
      Runs pollInterval true line code left h left' h'

/-- The log at a path gains a text. -/
def Gains (path : Text) (h h' : Host α) (t : Text) : Prop :=
  ∃ before, h.disk.read path = some before ∧ h'.disk.read path = some (before ++ Utf8.encode t)

/-- What the log shows for an exchange. -/
def entry (x : Exchange) : Text := ". ".toList ++ x.answer

/-- The application answers lines, one after another. -/
inductive Logs (path : Text) (pollInterval : Nat) (indirect : Bool) :
    List Exchange → Nat → Host α → Nat → Host α → Prop where
  /-- No lines are submitted. -/
  | nil {left : Nat} {h : Host α} : Logs path pollInterval indirect [] left h left h
  /-- A line is run, and logged. -/
  | cons {x : Exchange} {xs : List Exchange} {left left₁ left' : Nat} {h h₁ h' : Host α}
      (runs : Runs pollInterval indirect x.line (x.code?.getD 0) left h left₁ h₁)
      (gains : Gains path h h₁ (entry x))
      (rest : Logs path pollInterval indirect xs left₁ h₁ left' h') :
      Logs path pollInterval indirect (x :: xs) left h left' h'

/-- The application takes the last line, and logs it. -/
structure Closes (path : Text) (z : Exchange) (h h' : Host α) : Prop where
  /-- It takes the line. -/
  started : Application.submitAsync z.line h = .ok () h'
  /-- The log gains its echo. -/
  gains : Gains path h h' (entry z)

/-! ## Waiting -/

theorem timeLeft_of_pos {limit elapsed : Nat} (h : 0 < limit - elapsed) (waitingFor : String) :
    timeLeft limit elapsed waitingFor = .ok (limit - elapsed) := by
  rw [timeLeft, if_neg (by omega)]

theorem pollUntilIdle_of_polls {left' : Nat} {h' : Host α} {c : Call α}
    (polls : Polls c.pollInterval c.left c.host left' h') :
    ∃ elapsed, pollUntilIdle c = .ok () { c with host := h', elapsed } ∧
      c.limit - elapsed = left' := by
  obtain ⟨interval, hinterval⟩ : ∃ interval, c.pollInterval = interval := ⟨_, rfl⟩
  rw [hinterval] at polls
  generalize hleft : c.left = left at polls
  generalize hhost : c.host = host at polls
  induction polls generalizing c with
  | @idle left took host h' free =>
    have polled : Call.liftTimed Application.pollBusy c
        = .ok false { c with host := h', elapsed := c.elapsed + took } := by
      rw [Call.liftTimed, hhost, free]
    refine ⟨c.elapsed + took, ?_, ?_⟩
    · rw [pollUntilIdle, polled]
    · rw [← hleft, Call.left]
      omega
  | @busy left took left' host h₁ h' busy pos rest ih =>
    have polled : Call.liftTimed Application.pollBusy c
        = .ok true { c with host := h₁, elapsed := c.elapsed + took } := by
      rw [Call.liftTimed, hhost, busy]
    have hleft' : c.limit - c.elapsed = left := hleft
    let c₁ : Call α := { c with host := h₁, elapsed := c.elapsed + took }
    have time : timeLeft c₁.limit c₁.elapsed "idle application" = .ok (left - took) := by
      rw [timeLeft_of_pos (by show 0 < c.limit - (c.elapsed + took); omega)]
      show Except.ok (c.limit - (c.elapsed + took)) = _
      congr 1
      omega
    obtain ⟨elapsed, hpoll, htime⟩ := ih (c := c₁.slept (left - took)) hinterval
      (by
        show c.limit - (c.elapsed + took + max shortestSleep (min c.pollInterval (left - took))) = _
        rw [hinterval]
        omega)
      (by
        show Application.pass (min c.pollInterval (left - took)) h₁ = _
        rw [hinterval])
    refine ⟨elapsed, ?_, htime⟩
    rw [pollUntilIdle, polled]
    dsimp only
    split
    · rename_i e he
      exact absurd (time.symm.trans he) (by simp)
    · rename_i left₁ he
      obtain rfl := Except.ok.inj (time.symm.trans he)
      exact hpoll

/-- **An application that becomes idle in time is waited for.** -/
theorem waitIdle_of_idles {left' : Nat} {h' : Host α} {c : Call α}
    (idles : Idles c.pollInterval c.left c.host left' h') :
    ∃ elapsed, waitIdle c = .ok () { c with host := h', elapsed } ∧ c.limit - elapsed = left' := by
  have checked : 0 < c.left → Call.checkTime "idle application" c = .ok c.left c := by
    intro pos
    rw [Call.checkTime, timeLeft_of_pos pos]
    rfl
  cases idles with
  | @told took _ _ pos told =>
    refine ⟨c.elapsed + took, ?_, by unfold Call.left; omega⟩
    have lifted : Call.lift (Application.waitUntilIdle c.left) c
        = .ok (some took) { c with host := h' } := by
      rw [Call.lift, told]
    unfold waitIdle
    simp only [bind, EStateM.bind, checked pos, lifted]
  | @polled _ _ h₁ _ pos cannot polls =>
    have lifted : Call.lift (Application.waitUntilIdle c.left) c
        = .ok none { c with host := h₁ } := by
      rw [Call.lift, cannot]
    obtain ⟨elapsed, hpoll, htime⟩ :=
      pollUntilIdle_of_polls (c := { c with host := h₁ }) polls
    refine ⟨elapsed, ?_, htime⟩
    unfold waitIdle
    simp only [bind, EStateM.bind, checked pos, lifted]
    exact hpoll

/-- **A line that is run** is submitted, and its return code is the one reported. -/
theorem submit_of_runs {indirect : Bool} {line : Text} {code : Int} {left' : Nat} {h' : Host α}
    {c : Call α} (runs : Runs c.pollInterval indirect line code c.left c.host left' h') :
    ∃ elapsed, submit indirect line c = .ok code { c with host := h', elapsed } ∧
      c.limit - elapsed = left' := by
  cases runs with
  | @statement _ _ _ took _ _ done =>
    refine ⟨c.elapsed + took, ?_, by unfold Call.left; omega⟩
    rw [submit, if_neg (by decide), Call.liftTimed, done]
  | @script _ _ _ _ _ h₁ h₂ _ started idles reported =>
    have sent : Call.lift (Application.submitAsync line) c = .ok () { c with host := h₁ } := by
      rw [Call.lift, started]
    obtain ⟨elapsed, hwait, htime⟩ := waitIdle_of_idles (c := { c with host := h₁ }) idles
    have told : Call.lift Application.lastErrorCode { c with host := h₂, elapsed }
        = .ok code { c with host := h', elapsed } := by
      rw [Call.lift, reported]
    refine ⟨elapsed, ?_, htime⟩
    rw [submit, if_pos rfl]
    dsimp only at hwait
    simp only [bind, EStateM.bind, sent, hwait, told]

/-! ## Reading the log -/

/-- The log has been read to its end, and no character is left open. -/
def ReadToEnd (c : Call α) : Prop :=
  ∃ bytes, c.host.disk.read c.logPath = some bytes ∧ c.logOffset = bytes.length ∧
    c.decoder = .empty

omit [Application α] in
/-- **What the log gains is read.** -/
theorem readLog_of_gains {c : Call α} {h : Host α} {t : Text} (read : ReadToEnd { c with host := h })
    (gains : Gains c.logPath h c.host t) :
    ∃ logOffset, Call.readLog c = .ok t { c with logOffset } ∧ ReadToEnd { c with logOffset } := by
  obtain ⟨before, hread, hoffset, hdecoder⟩ := read
  obtain ⟨before', hbefore, hafter⟩ := gains
  obtain rfl := Option.some.inj (hread.symm.trans hbefore)
  have hdecoder' : c.decoder = .empty := hdecoder
  have hoffset' : c.logOffset = before.length := hoffset
  have gained : (before ++ Utf8.encode t).drop c.logOffset = Utf8.encode t := by
    rw [hoffset', List.drop_left]
  refine ⟨c.logOffset + (Utf8.encode t).length, ?_, before ++ Utf8.encode t, hafter, ?_, hdecoder'⟩
  · rw [Call.readLog, hafter]
    dsimp only
    rw [gained, hdecoder', Utf8.Carry.decode_encode]
  · rw [List.length_append, hoffset']

/-! ## A call -/

/-- The capture with exchanges added to it. -/
def logged (capture : RawCapture) (xs : List Exchange) : RawCapture :=
  { capture with
    text := capture.text ++ xs.flatMap entry
    transcript := capture.transcript ++ xs.map fun x => ⟨x.line, entry x⟩ }

theorem logged_cons (capture : RawCapture) (x : Exchange) (xs : List Exchange) :
    logged (logged capture [x]) xs = logged capture (x :: xs) := by
  simp [logged]

/-- **Lines that are logged** are submitted up to the first that fails, and captured with what the
log has gained. -/
theorem submitAll_of_logs {indirect : Bool} {xs : List Exchange}
    (nonzero : ∀ x ∈ xs, x.code? ≠ some 0) {left' : Nat} {h' : Host α} {c : Call α}
    (read : ReadToEnd c)
    (logs : Logs c.logPath c.pollInterval indirect (Exchange.upToFailure xs) c.left c.host left' h') :
    ∃ elapsed logOffset, submitAll indirect (xs.map (·.line)) c
        = .ok () { c with
            host := h'
            elapsed
            logOffset
            capture := { logged c.capture (Exchange.upToFailure xs) with
              returnCode := (Exchange.failure? xs).getD c.capture.returnCode } } ∧
      c.limit - elapsed = left' ∧ ReadToEnd { c with host := h', elapsed, logOffset } := by
  induction xs generalizing c with
  | nil =>
    cases logs
    refine ⟨c.elapsed, c.logOffset, ?_, rfl, read⟩
    simp [submitAll, Exchange.upToFailure, Exchange.failure?, logged, pure, EStateM.pure]
  | cons x xs ih =>
    rw [Exchange.upToFailure] at logs
    cases logs with
    | cons runs gains rest =>
      rename_i left₁ h₁
      obtain ⟨elapsed, hsubmit, htime⟩ := submit_of_runs runs
      obtain ⟨logOffset, hread, read₁⟩ :=
        readLog_of_gains (c := { c with host := h₁, elapsed }) (h := c.host) read gains
      dsimp only at hread
      have hcapture : capture x.line (entry x) { c with host := h₁, elapsed, logOffset }
          = .ok () { c with host := h₁, elapsed, logOffset, capture := logged c.capture [x] } := by
        simp [capture, Call.captured, RawCapture.extend, RawCapture.record, logged]
      rw [Exchange.failure?, List.findSome?_cons, Exchange.upToFailure]
      cases hcode : x.code? with
      | some code =>
        have failed : code ≠ 0 := fun h => nonzero x List.mem_cons_self (by rw [hcode, h])
        rw [hcode] at rest hsubmit
        rw [if_pos (by rfl)] at rest
        cases rest
        refine ⟨elapsed, logOffset, ?_, htime, read₁⟩
        simp only [List.map_cons, submitAll, bind, EStateM.bind, hsubmit, hread, hcapture,
          Option.getD_some, if_neg failed, Call.captured]
        rfl
      | none =>
        rw [hcode] at rest hsubmit
        rw [if_neg (by decide), ← htime] at rest
        obtain ⟨elapsed', logOffset', hall, htime', read'⟩ :=
          ih (fun y m => nonzero y (List.mem_cons_of_mem _ m))
            (c := { c with host := h₁, elapsed, logOffset, capture := logged c.capture [x] })
            read₁ rest
        refine ⟨elapsed', logOffset', ?_, htime', read'⟩
        rw [logged_cons] at hall
        simp only [List.map_cons, submitAll, bind, EStateM.bind, hsubmit, hread, hcapture,
          Option.getD_none, if_pos, hall]
        rfl

/-- The echo of the sentinel is recognised. -/
theorem showsSentinel_entry {z : Exchange} (quiet : z.printed = []) (clean : '\r' ∉ z.line) :
    showsSentinel z.line (entry z) = true := by
  have text : entry z = Echo.prompted z.line ++ '\n' :: [] := by
    rw [entry, Exchange.answer, quiet]
    rfl
  have returns : '\r' ∉ entry z := by
    intro m
    rw [text] at m
    rcases List.mem_append.mp m with m | m
    · exact Echo.notMem_prompted (by decide) clean m
    · exact absurd m (by decide)
  have lines : Text.lines (entry z) = [Echo.prompted z.line, []] := by
    rw [text, Text.lines_line_append (Echo.notMem_prompted (by decide) z.oneLine)]
    rfl
  have fresh : ∀ l ∈ Text.lines (entry z), ¬ Echo.Continues l := by
    intro l m
    rw [lines] at m
    rcases List.mem_cons.mp m with rfl | m
    · exact Echo.not_continues_prompted _
    · rw [List.mem_singleton.mp m]
      exact Echo.not_continues_of_echoContent? rfl
  have echoed : echoes (Echo.prompted z.line) z.line = true := by
    rw [Echo.prompted, echoes, Text.trim_cons_of_isBlank (by decide), beq_self_eq_true]
  rw [showsSentinel, Terminal.dropCarriageReturns_of_notMem returns,
    Echo.joinWrapped_of_fresh fresh, lines, List.any_cons, echoed, Bool.true_or]

/-- **A chunk whose lines are logged.** The lines up to the first that fails are captured, and the
sentinel in any case. -/
theorem run_of_logs {chunk : Chunk} {xs : List Exchange} {z : Exchange}
    (lines : chunk.submissionLines = xs.map (·.line) ++ [z.line])
    (nonzero : ∀ x ∈ xs, x.code? ≠ some 0) (quiet : z.printed = []) (clean : '\r' ∉ z.line)
    {h : Host (Automation α)} (read : ReadToEnd (Call.ofHost h)) {left : Nat} {h₁ h' : Host α}
    (logs : Logs h.guest.logPath h.guest.pollInterval chunk.indirect (Exchange.upToFailure xs)
      h.guest.timeout ⟨h.guest.application, h.disk⟩ left h₁)
    (closes : Closes h.guest.logPath z h₁ h') :
    ∃ after, run chunk h =
        (⟨{ logged .empty (Exchange.upToFailure xs ++ [z]) with
              returnCode := (Exchange.failure? xs).getD 0 }, none⟩, after) ∧
      after.guest.application = h'.guest ∧ after.disk = h'.disk := by
  have last : (xs.map (·.line) ++ [z.line]).getLast? = some z.line := by
    rw [List.getLast?_append]
    rfl
  have front : (xs.map (·.line) ++ [z.line]).dropLast = xs.map (·.line) := List.dropLast_concat
  obtain ⟨elapsed, logOffset, hall, -, read₁⟩ :=
    submitAll_of_logs nonzero (c := Call.ofHost h) read logs
  generalize hcapture : ({ logged (Call.ofHost h).capture (Exchange.upToFailure xs) with
    returnCode := (Exchange.failure? xs).getD (Call.ofHost h).capture.returnCode } : RawCapture)
      = captured at hall
  have sent : Call.lift (Application.submitAsync z.line)
      { Call.ofHost h with host := h₁, elapsed, logOffset, capture := captured }
        = .ok () { Call.ofHost h with host := h', elapsed, logOffset, capture := captured } := by
    rw [Call.lift, closes.started]
  obtain ⟨logOffset', hread, -⟩ := readLog_of_gains
    (c := { Call.ofHost h with host := h', elapsed, logOffset, capture := captured }) (h := h₁)
    read₁ closes.gains
  have tailed : tailUntil z.line []
      { Call.ofHost h with host := h', elapsed, logOffset, capture := captured }
        = .ok (entry z)
          { Call.ofHost h with host := h', elapsed, logOffset := logOffset', capture := captured } :=
    tailUntil_of_shown hread (showsSentinel_entry quiet clean)
  refine ⟨Call.toHost { Call.ofHost h with
    host := h', elapsed, logOffset := logOffset', capture := captured }, ?_, rfl, rfl⟩
  have closed : (captured.extend (entry z)).record z.line (entry z)
      = { logged .empty (Exchange.upToFailure xs ++ [z]) with
            returnCode := (Exchange.failure? xs).getD 0 } := by
    rw [← hcapture]
    simp [logged, RawCapture.extend, RawCapture.record, Call.ofHost, RawCapture.empty]
  dsimp only at sent tailed
  rw [run, lines, runLines, last, front]
  simp only [bind, EStateM.bind, hall, sent, tailed, capture, Call.captured, closed]
  rfl

/-! ## What the application was asked -/

/-- The line that a call submits, if it submits one. -/
def submission? : PeerCall → Option Text
  | .submitAndWait line => some line
  | .submitAsync line => some line
  | _ => none

section Recorded

/-- An application that is recorded, with what it was asked. -/
def recordedAs (h : Host α) (calls : List PeerCall) : Host (Recorded α) :=
  ⟨⟨h.guest, calls⟩, h.disk⟩

theorem Polls.recorded {pollInterval left left' : Nat} {h h' : Host α}
    (polls : Polls pollInterval left h left' h') (calls : List PeerCall) :
    ∃ calls', Polls pollInterval left (recordedAs h calls) left' (recordedAs h' calls') ∧
      calls'.filterMap submission? = calls.filterMap submission? := by
  have polled : ∀ {b : Timed Bool} {h₁ h₂ : Host α} (calls : List PeerCall),
      Application.pollBusy h₁ = .ok b h₂ →
      Application.pollBusy (recordedAs h₁ calls) = .ok b (recordedAs h₂ (.pollBusy :: calls)) := by
    intro b h₁ h₂ calls hp
    simp only [recordedAs, Application.pollBusy, Recorded.noting, Recorded.note,
      Recorded.silently, Action.within, bind, EStateM.bind, hp]
  induction polls generalizing calls with
  | idle free => exact ⟨.pollBusy :: calls, .idle (polled calls free), rfl⟩
  | busy busy pos _ ih =>
    obtain ⟨calls', rest, same⟩ := ih (.pollBusy :: calls)
    exact ⟨calls', .busy (polled calls busy) pos rest, same⟩

theorem Idles.recorded {pollInterval left left' : Nat} {h h' : Host α}
    (idles : Idles pollInterval left h left' h') (calls : List PeerCall) :
    ∃ calls', Idles pollInterval left (recordedAs h calls) left' (recordedAs h' calls') ∧
      calls'.filterMap submission? = calls.filterMap submission? := by
  cases idles with
  | told pos told =>
    refine ⟨.waitUntilIdle :: calls, .told pos ?_, rfl⟩
    simp only [recordedAs, Application.waitUntilIdle, Recorded.waitUntilIdle, Recorded.silently,
      Action.within, told, Recorded.note, bind, EStateM.bind, pure, EStateM.pure]
  | @polled _ _ h₁ _ pos cannot polls =>
    obtain ⟨calls', rest, same⟩ := polls.recorded calls
    have refused : Application.waitUntilIdle left (recordedAs h calls)
        = .ok none (recordedAs h₁ calls) := by
      simp only [recordedAs, Application.waitUntilIdle, Recorded.waitUntilIdle,
        Recorded.silently, Action.within, cannot]
    exact ⟨calls', .polled pos refused rest, same⟩

theorem Runs.recorded {pollInterval : Nat} {indirect : Bool} {line : Text} {code : Int}
    {left left' : Nat} {h h' : Host α} (runs : Runs pollInterval indirect line code left h left' h')
    (calls : List PeerCall) :
    ∃ calls', Runs pollInterval indirect line code left (recordedAs h calls) left'
        (recordedAs h' calls') ∧
      calls'.filterMap submission? = line :: calls.filterMap submission? := by
  cases runs with
  | statement done =>
    refine ⟨.submitAndWait line :: calls, .statement ?_, rfl⟩
    simp only [recordedAs, Application.submitAndWait, Recorded.noting, Recorded.note,
      Recorded.silently, Action.within, bind, EStateM.bind, done]
  | @script _ _ _ _ _ h₁ h₂ _ started idles reported =>
    have sent : Application.submitAsync line (recordedAs h calls)
        = .ok () (recordedAs h₁ (.submitAsync line :: calls)) := by
      simp only [recordedAs, Application.submitAsync, Recorded.noting, Recorded.note,
        Recorded.silently, Action.within, bind, EStateM.bind, started]
    obtain ⟨calls', idles', same⟩ := idles.recorded (.submitAsync line :: calls)
    have told : Application.lastErrorCode (recordedAs h₂ calls')
        = .ok code (recordedAs h' (.lastErrorCode :: calls')) := by
      simp only [recordedAs, Application.lastErrorCode, Recorded.noting, Recorded.note,
        Recorded.silently, Action.within, bind, EStateM.bind, reported]
    exact ⟨.lastErrorCode :: calls', .script sent idles' told, same⟩

/-- **An application that logs lines is submitted those lines and no others.** -/
theorem Logs.recorded {path : Text} {pollInterval : Nat} {indirect : Bool} {xs : List Exchange}
    {left left' : Nat} {h h' : Host α}
    (logs : Logs path pollInterval indirect xs left h left' h') (calls : List PeerCall) :
    ∃ calls', Logs path pollInterval indirect xs left (recordedAs h calls) left'
        (recordedAs h' calls') ∧
      calls'.filterMap submission? = (xs.map (·.line)).reverse ++ calls.filterMap submission? := by
  induction logs generalizing calls with
  | nil => exact ⟨calls, .nil, rfl⟩
  | cons runs gains _ ih =>
    obtain ⟨calls₁, runs', first⟩ := runs.recorded calls
    obtain ⟨calls₂, rest, more⟩ := ih calls₁
    refine ⟨calls₂, .cons runs' gains rest, ?_⟩
    rw [more, first, List.map_cons, List.reverse_cons, List.append_assoc]
    rfl

theorem Closes.recorded {path : Text} {z : Exchange} {h h' : Host α} (closes : Closes path z h h')
    (calls : List PeerCall) :
    Closes path z (recordedAs h calls) (recordedAs h' (.submitAsync z.line :: calls)) := by
  refine ⟨?_, closes.gains⟩
  simp only [recordedAs, Application.submitAsync, Recorded.noting, Recorded.note,
    Recorded.silently, Action.within, bind, EStateM.bind, closes.started]

end Recorded

end DoRunner.Automation

/-! ## An application that logs -/

namespace DoRunner

/-- An application that logs given lines for the lines submitted to it, and is never busy. -/
structure Scribe where
  /-- Where its log is. -/
  path : Text
  /-- What is printed for the lines still to come. -/
  script : List (List Text)
  /-- The return code of the line last submitted. -/
  code : Int

namespace Scribe

/-- What the log shows for a line. -/
def entry (line : Text) (printed : List Text) : Text :=
  ". ".toList ++ (line ++ '\n' :: Text.ended printed)

/-- Logs a line with what is printed for it. -/
def log (line : Text) : Action Scribe Int := fun h =>
  let printed := h.guest.script.headD []
  match h.disk.append h.guest.path (Utf8.encode (entry line printed)) with
  | some disk =>
    let code := (ReturnCode.first? (line ++ '\n' :: Text.ended printed)).getD 0
    .ok code ⟨⟨h.guest.path, h.guest.script.tail, code⟩, disk⟩
  | none => .error (.automation line "the log is gone".toList) h

instance : Application Scribe where
  submitAndWait line := do return ⟨← log line, 0⟩
  submitAsync line := do let _ ← log line
  pollBusy := return ⟨false, 0⟩
  lastErrorCode h := .ok h.guest.code h
  waitUntilIdle _ := return none
  pass _ h := h

theorem exists_log {disk : Disk} {path : Text} {bytes : List UInt8}
    (holds : disk.read path = some bytes) (x : Exchange) (more : List (List Text)) (code : Int) :
    ∃ disk', log x.line ⟨⟨path, x.printed :: more, code⟩, disk⟩
        = .ok (x.code?.getD 0) ⟨⟨path, more, x.code?.getD 0⟩, disk'⟩ ∧
      disk'.read path = some (bytes ++ Utf8.encode (Automation.entry x)) := by
  obtain ⟨disk', happend, hread⟩ := Disk.exists_append holds (Utf8.encode (Automation.entry x))
  refine ⟨disk', ?_, hread⟩
  have logged : disk.append path (Utf8.encode (entry x.line x.printed)) = some disk' := happend
  unfold log
  dsimp only [List.headD_cons, List.tail_cons]
  rw [logged]
  rfl

/-- **A scribe answers,** as long as there is time to look at it. -/
theorem logs (xs : List Exchange) (more : List (List Text)) (pollInterval : Nat) (indirect : Bool)
    {left : Nat} (time : 0 < left) {disk : Disk} {path : Text} {bytes : List UInt8}
    (holds : disk.read path = some bytes) (code : Int) :
    ∃ disk' code', Automation.Logs path pollInterval indirect xs left
        (⟨⟨path, xs.map (·.printed) ++ more, code⟩, disk⟩ : Host Scribe) left
        ⟨⟨path, more, code'⟩, disk'⟩ ∧
      ∃ bytes', disk'.read path = some bytes' := by
  induction xs generalizing disk bytes code with
  | nil => exact ⟨disk, code, .nil, bytes, holds⟩
  | cons x xs ih =>
    obtain ⟨disk₁, hlog, holds₁⟩ := exists_log holds x (xs.map (·.printed) ++ more) code
    obtain ⟨disk', code', rest, holds'⟩ := ih holds₁ (x.code?.getD 0)
    refine ⟨disk', code', .cons ?_ ⟨bytes, holds, holds₁⟩ rest, holds'⟩
    cases indirect with
    | false =>
      have done : Application.submitAndWait x.line
          (⟨⟨path, x.printed :: (xs.map (·.printed) ++ more), code⟩, disk⟩ : Host Scribe)
            = .ok ⟨x.code?.getD 0, 0⟩
              ⟨⟨path, xs.map (·.printed) ++ more, x.code?.getD 0⟩, disk₁⟩ := by
        simp only [Application.submitAndWait, bind, EStateM.bind, hlog, pure, EStateM.pure]
      have runs := @Automation.Runs.statement Scribe _ pollInterval _ _ left _ _ _ done
      exact runs
    | true =>
      have started : Application.submitAsync x.line
          (⟨⟨path, x.printed :: (xs.map (·.printed) ++ more), code⟩, disk⟩ : Host Scribe)
            = .ok () ⟨⟨path, xs.map (·.printed) ++ more, x.code?.getD 0⟩, disk₁⟩ := by
        simp only [Application.submitAsync, bind, EStateM.bind, hlog, pure, EStateM.pure]
      have idles : Automation.Idles pollInterval left
          (⟨⟨path, xs.map (·.printed) ++ more, x.code?.getD 0⟩, disk₁⟩ : Host Scribe) left
          ⟨⟨path, xs.map (·.printed) ++ more, x.code?.getD 0⟩, disk₁⟩ :=
        .polled time rfl (@Automation.Polls.idle Scribe _ pollInterval left 0 _ _ rfl)
      exact .script started idles rfl

theorem closes {disk : Disk} {path : Text} {bytes : List UInt8}
    (holds : disk.read path = some bytes) (z : Exchange) (more : List (List Text)) (code : Int) :
    ∃ h', Automation.Closes path z (⟨⟨path, z.printed :: more, code⟩, disk⟩ : Host Scribe) h' := by
  obtain ⟨disk₁, hlog, holds₁⟩ := exists_log holds z more code
  refine ⟨⟨⟨path, more, z.code?.getD 0⟩, disk₁⟩, ?_, bytes, holds, holds₁⟩
  simp only [Application.submitAsync, bind, EStateM.bind, hlog, pure, EStateM.pure]

end Scribe

end DoRunner
