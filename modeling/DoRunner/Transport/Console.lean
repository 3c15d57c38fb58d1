import DoRunner.Echo.Terminal
import DoRunner.Echo.ReturnCode
import DoRunner.Transport.Basic

/-!
# A console process

The console prints a prompt when it is ready for a line. The transport sends a line, reads until the
prompt is back, and sends the next. What is read in between is the **reply** to the line.

Three things complicate this. Output can look like a prompt, so a prompt counts only when nothing
more has arrived behind it. The pager can hold output back; while a chunk runs the transport then
breaks the program off, takes the rest of the output, and sends the sentinel so that its echo closes
the capture. And the process may stay silent or end, so every wait is bounded by the time that is
left of the call.

Reading ends: a read that waits uses up some of the time that is left, and a read that does not wait
can deliver only what has arrived already, which is finite (`LineChannel.backlog`).
-/

namespace DoRunner

/-- A channel of text to and from a console process.

The backlog serves only to show that reading ends (`Console.readReply`, `Console.drain`), and no
result says how great it is. It leaves out no run that ends: such a run has read without waiting
finitely often, so that it is also the run of a channel that delivers these pieces and then nothing
more, whose backlog is the number of pieces left. A channel that always has one more piece ready has
no backlog, but nothing that empties it ends either. -/
class LineChannel (σ : Type) where
  /-- Sends a line. -/
  sendLine : Text → Action σ Unit
  /-- Interrupts what the process is doing. -/
  sendBreak : Action σ Unit
  /-- Waits for output, for as many microseconds at most. Nothing may have arrived in that time. -/
  read : Nat → Action σ (Timed (Option Text))
  /-- Ends the process. -/
  close : Action σ Unit
  /-- A bound on how often a read without waiting can deliver output. -/
  backlog : σ → Nat
  /-- What such a read delivers is no longer waiting. -/
  backlog_lt : ∀ {h h' : Host σ} {piece : Text} {took : Nat},
    read 0 h = .ok ⟨some piece, took⟩ h' → backlog h'.guest < backlog h.guest

/-- A console and the output read from it that no reply has taken yet. -/
structure Console (σ : Type) where
  /-- The way to the process. -/
  channel : σ
  /-- The time that one call may take, in microseconds. -/
  timeout : Nat
  /-- The output not yet taken. -/
  buffer : Text
deriving Repr

namespace Console

/-- A console from which nothing has been read. -/
def ofChannel {σ : Type} (channel : σ) (timeout : Nat) : Console σ := ⟨channel, timeout, []⟩

/-! ## Prompts and pagers -/

/-- What the output ends with when the console is ready. -/
def readyPrompt : Text := "\n. ".toList

/-- What the pager shows while it holds output back. -/
def moreMarker : Text := "--more--".toList

/-- The longest single wait, in microseconds. -/
def readSlice : Nat := 250 * perMillisecond

/-- The return code of a chunk that was broken off, when the console reports none. -/
def breakCode : Int := 1

/-- Whether the output ends with the prompt. -/
def atPrompt (buffer : Text) : Bool := Text.endsWith readyPrompt buffer

/-- Whether the last line shown is the mark of the pager. -/
def atPager (buffer : Text) : Bool :=
  Text.trimStart ((Text.lines (Text.trimEnd buffer)).getLastD []) == moreMarker

theorem atPrompt_nil : atPrompt [] = false := by decide

theorem atPager_nil : atPager [] = false := by decide

theorem ne_nil_of_atPrompt {buffer : Text} (h : atPrompt buffer = true) : buffer ≠ [] := by
  rintro rfl
  rw [atPrompt_nil] at h
  exact absurd h (by decide)

theorem ne_nil_of_atPager {buffer : Text} (h : atPager buffer = true) : buffer ≠ [] := by
  rintro rfl
  rw [atPager_nil] at h
  exact absurd h (by decide)

/-- The output without the prompt at its end. The line feed before the prompt belongs to the
output. -/
def withoutPrompt (buffer : Text) : Text := buffer.take (buffer.length - 2)

/-- The output with more of it. -/
def appended (buffer piece : Text) : Text := Terminal.dropCarriageReturns (buffer ++ piece)

/-! ## One call -/

/-- A call while it goes on. -/
structure Call (σ : Type) where
  /-- The channel and the disk. -/
  host : Host σ
  /-- The output not yet taken. -/
  buffer : Text
  /-- The time that the call may take. -/
  limit : Nat
  /-- The time that it has taken. -/
  elapsed : Nat
  /-- What was captured. -/
  capture : RawCapture
deriving Repr

/-- A step of a call. -/
abbrev Step (σ α : Type) := EStateM TransportError (Call σ) α

namespace Call

variable {σ : Type} [LineChannel σ]

/-- The time left of the call. -/
def left (c : Call σ) : Nat := c.limit - c.elapsed

/-- The call after what the channel did in some time. -/
def after (c : Call σ) (host : Host σ) (took : Nat) : Call σ :=
  { c with host, elapsed := c.elapsed + took }

/-- The call with more output. -/
def append (c : Call σ) (piece : Text) : Call σ := { c with buffer := appended c.buffer piece }

/-- The call with its output taken. -/
def taken (c : Call σ) : Call σ := { c with buffer := [] }

/-- What the channel does, as a step. -/
def lift {α : Type} (action : Action σ α) : Step σ α := fun c =>
  match action c.host with
  | .ok a host => .ok a { c with host }
  | .error e host => .error e { c with host }

/-- Reads what arrives within a time. Each read takes some time. -/
def read (wait : Nat) : Step σ (Option Text) := fun c =>
  match LineChannel.read wait c.host with
  | .ok piece host => .ok piece.value (c.after host (max 1 piece.took))
  | .error e host => .error e { c with host }

theorem left_read {wait : Nat} {c c' : Call σ} {piece : Option Text}
    (h : read wait c = .ok piece c') : c'.left ≤ c.left ∧ (0 < c.left → c'.left < c.left) := by
  unfold read at h
  split at h
  · rename_i piece' host hr
    simp only [EStateM.Result.ok.injEq] at h
    obtain ⟨-, rfl⟩ := h
    simp only [left, after]
    omega
  · simp at h

theorem backlog_read {c c' : Call σ} {piece : Text} (h : read 0 c = .ok (some piece) c') :
    LineChannel.backlog c'.host.guest < LineChannel.backlog c.host.guest := by
  unfold read at h
  split at h
  · rename_i piece' host hr
    simp only [EStateM.Result.ok.injEq] at h
    obtain ⟨hp, rfl⟩ := h
    obtain ⟨value, took⟩ := piece'
    simp only at hp
    subst hp
    exact LineChannel.backlog_lt hr
  · simp at h

end Call

/-! ## Replies -/

/-- What ended a reply. -/
inductive Reply where
  /-- The prompt; the text is what came before it. -/
  | prompt (text : Text)
  /-- The pager; the text is what it has shown. -/
  | paged (text : Text)
deriving DecidableEq, Repr

section Reading

variable {σ : Type} [LineChannel σ]

omit [LineChannel σ] in
theorem left_pos {c : Call σ} {waitingFor : String} {n : Nat}
    (h : timeLeft c.limit c.elapsed waitingFor = .ok n) : 0 < c.left := by
  unfold timeLeft at h
  split at h
  · simp at h
  · simp only [Call.left]; omega

/-- Reads one reply. Output that ends in a prompt is a reply only when nothing more has arrived.
When the process ends, output without a prompt is a failure of its own. -/
def readReply (c : Call σ) : EStateM.Result TransportError (Call σ) Reply :=
  if atPrompt c.buffer then
    match _ : Call.read 0 c with
    | .ok (some piece) c' => readReply (c'.append piece)
    | .ok none c' => .ok (.prompt (withoutPrompt c'.buffer)) c'.taken
    | .error e c' => .error e c'
  else if atPager c.buffer then .ok (.paged c.buffer) c.taken
  else
    match _ : timeLeft c.limit c.elapsed "ready prompt" with
    | .error e => .error e c
    | .ok left =>
      match _ : Call.read (min left readSlice) c with
      | .ok (some piece) c' => readReply (c'.append piece)
      | .ok none c' => readReply c'
      | .error .closed c' =>
        .error (if c'.buffer = [] then .closed else .missingPrompt) c'
      | .error e c' => .error e c'
termination_by (c.left, LineChannel.backlog c.host.guest)
decreasing_by
  -- more had arrived behind the prompt: less is waiting now
  · have time := (Call.left_read (by assumption)).1
    have waiting := Call.backlog_read (by assumption)
    simp only [Call.append, Call.left, Prod.lex_def] at time ⊢
    omega
  -- output came after a wait: less time is left
  · have time := (Call.left_read (by assumption)).2 (left_pos (by assumption))
    simp only [Call.append, Call.left, Prod.lex_def] at time ⊢
    omega
  -- the wait was in vain: less time is left
  · have time := (Call.left_read (by assumption)).2 (left_pos (by assumption))
    simp only [Call.left, Prod.lex_def] at time ⊢
    omega

/-- After a pager stop the output is taken, and either there was some to begin with or time has
passed. -/
theorem progress_of_paged {c c' : Call σ} {shown : Text}
    (h : readReply c = .ok (.paged shown) c') :
    c'.buffer = [] ∧ c'.left ≤ c.left ∧ (c.buffer = [] → c'.left < c.left) := by
  fun_induction readReply c with
  | case1 c hp piece c₁ hr ih =>
    obtain ⟨taken, time, -⟩ := ih h
    refine ⟨taken, Nat.le_trans time (Call.left_read hr).1, fun empty => ?_⟩
    exact absurd empty (ne_nil_of_atPrompt hp)
  | case2 c hp c₁ hr => simp at h
  | case3 c hp e c₁ hr => simp at h
  -- the pager itself: what it has shown was in the buffer
  | case4 c hp hm =>
    simp only [EStateM.Result.ok.injEq] at h
    obtain ⟨-, rfl⟩ := h
    exact ⟨rfl, Nat.le_refl _, fun empty => absurd empty (ne_nil_of_atPager hm)⟩
  | case5 c hp hm e ht => simp at h
  | case6 c hp hm left ht piece c₁ hr ih =>
    obtain ⟨taken, time, -⟩ := ih h
    have less := (Call.left_read hr).2 (left_pos ht)
    exact ⟨taken, Nat.le_of_lt (Nat.lt_of_le_of_lt time less),
      fun _ => Nat.lt_of_le_of_lt time less⟩
  | case7 c hp hm left ht c₁ hr ih =>
    obtain ⟨taken, time, -⟩ := ih h
    have less := (Call.left_read hr).2 (left_pos ht)
    exact ⟨taken, Nat.le_of_lt (Nat.lt_of_le_of_lt time less),
      fun _ => Nat.lt_of_le_of_lt time less⟩
  | case8 c hp hm left ht c₁ hr => simp at h
  | case9 c hp hm left ht e c₁ hr he => simp at h

/-- Sends a line. -/
def send (line : Text) : Step σ Unit := Call.lift (LineChannel.sendLine line)

theorem left_send {line : Text} {c c' : Call σ} {u : Unit} (h : send line c = .ok u c') :
    c'.left = c.left ∧ c'.buffer = c.buffer := by
  unfold send Call.lift at h
  split at h
  · simp only [EStateM.Result.ok.injEq] at h
    obtain ⟨-, rfl⟩ := h
    exact ⟨rfl, rfl⟩
  · simp at h

/-- Reads until the prompt is back, past any number of pager stops, and gives all that was shown
after `shown`. -/
def readUntilPrompt (shown : Text) (c : Call σ) : EStateM.Result TransportError (Call σ) Text :=
  match _ : readReply c with
  | .error e c' => .error e c'
  | .ok (.prompt rest) c' => .ok (shown ++ rest) c'
  | .ok (.paged more) c' =>
    match _ : send ['q'] c' with
    | .error e c'' => .error e c''
    | .ok () c'' => readUntilPrompt (shown ++ more) c''
termination_by (c.left, c.buffer.length)
decreasing_by
  -- a pager stop takes a buffer that was not empty, or it took time to get there
  have paged := progress_of_paged (by assumption)
  have sent := left_send (by assumption)
  by_cases empty : c.buffer = []
  · have := paged.2.2 empty
    simp only [Prod.lex_def]
    omega
  · have := List.length_pos_iff.2 empty
    simp only [Prod.lex_def, sent.2, paged.1, List.length_nil]
    omega

/-! ## Starting -/

/-- The text without the marks of the pager at its end. -/
def withoutMarkers (t : Text) : Text :=
  match Text.before? moreMarker t with
  | some shorter => if shorter.length < t.length then withoutMarkers shorter else t
  | none => t
termination_by t.length

/-- Whether the output is a prompt or ends with one on a line of its own. -/
def startsReady (buffer : Text) : Bool := atPrompt buffer || buffer == ". ".toList

/-- Reads until the first prompt and gives all that came before it, after `banner`. A pager stop is
dismissed. -/
def readBanner (banner : Text) (c : Call σ) : EStateM.Result TransportError (Call σ) Text :=
  if startsReady c.buffer then .ok (banner ++ withoutPrompt c.buffer) c.taken
  else if _ : atPager c.buffer then
    match _ : send ['q'] c.taken with
    | .error e c' => .error e c'
    | .ok () c' => readBanner (banner ++ withoutMarkers (Text.trimEnd c.buffer)) c'
  else
    match _ : timeLeft c.limit c.elapsed "startup prompt" with
    | .error e => .error e c
    | .ok left =>
      match _ : Call.read (min left readSlice) c with
      | .error e c' => .error e c'
      | .ok (some piece) c' => readBanner banner (c'.append piece)
      | .ok none c' => readBanner banner c'
termination_by (c.left, c.buffer.length)
decreasing_by
  -- a pager stop empties the buffer
  · have sent := left_send (by assumption)
    have := List.length_pos_iff.2 (ne_nil_of_atPager (by assumption))
    simp only [Call.left, Call.taken, Prod.lex_def] at sent ⊢
    simp only [sent.2, List.length_nil]
    omega
  · have time := (Call.left_read (by assumption)).2 (left_pos (by assumption))
    simp only [Call.append, Call.left, Prod.lex_def] at time ⊢
    omega
  · have time := (Call.left_read (by assumption)).2 (left_pos (by assumption))
    simp only [Call.left, Prod.lex_def] at time ⊢
    omega

/-! ## Running a chunk -/

/-- A reply as it is captured: behind a prompt when it starts with an echo, and with a line feed at
its end. -/
def replyText (raw : Text) (echoed : Bool) : Text :=
  (if echoed then ". ".toList else []) ++ raw ++
    (if Text.endsWith ['\n'] raw then [] else ['\n'])

/-- Changes what is captured. -/
def captured (change : RawCapture → RawCapture) : Step σ Unit := fun c =>
  .ok () { c with capture := change c.capture }

/-- Captures a reply. -/
def capture (raw : Text) (echoed : Bool) : Step σ Unit :=
  captured fun capture => capture.extend (replyText raw echoed)

/-- Adds an entry to the transcript. -/
def record (sent raw : Text) : Step σ Unit := captured fun capture => capture.record sent raw

/-- Breaks off what the pager holds back: takes the rest of the output, and then the echo of the
sentinel. Gives the return code of the break. -/
def breakOff (sentinel : Text) : Step σ Int := do
  Call.lift LineChannel.sendBreak
  let broken ← readUntilPrompt []
  capture broken false
  send sentinel
  let tail ← readUntilPrompt []
  capture tail true
  record sentinel tail
  return (ReturnCode.first? broken).getD breakCode

/-- Sends a line and captures its reply. Gives the return code that the reply carries, if it carries
one. -/
def exchange (line sentinel : Text) : Step σ (Option Int) := do
  send line
  match ← readReply with
  | .prompt raw => do
    capture raw true
    record line raw
    return ReturnCode.first? raw
  | .paged shown => do
    capture shown true
    record line shown
    return some (← breakOff sentinel)

/-- Sends lines one after another, up to the first whose reply carries a return code, which it
gives. -/
def exchangeAll (sentinel : Text) : List Text → Step σ (Option Int)
  | [] => return none
  | line :: lines => do
    match ← exchange line sentinel with
    | some code => return some code
    | none => exchangeAll sentinel lines

/-- Sends the lines of a chunk, the sentinel last. A line that fails ends the chunk, and the
sentinel is then not sent any more. -/
def runLines (lines : List Text) : Step σ Unit :=
  match lines.getLast? with
  | none => return ()
  | some sentinel => do
    match ← exchangeAll sentinel lines.dropLast with
    | some code => captured fun capture => { capture with returnCode := code }
    | none => let _ ← exchange sentinel sentinel

/-! ## The transport -/

/-- A call that has taken no time yet. -/
def Call.ofHost (h : Host (Console σ)) : Call σ :=
  ⟨⟨h.guest.channel, h.disk⟩, h.guest.buffer, h.guest.timeout, 0, .empty⟩

/-- What is left of a call when it is over. -/
def Call.toHost (c : Call σ) : Host (Console σ) :=
  ⟨⟨c.host.guest, c.limit, c.buffer⟩, c.host.disk⟩

/-- Waits for the first prompt and gives the banner before it, without blanks at its ends. -/
def start : Action (Console σ) Text := fun h =>
  match readBanner [] (Call.ofHost h) with
  | .ok banner c => .ok (Text.trim banner) c.toHost
  | .error e c => .error e c.toHost

/-- Submits a chunk line by line. -/
def run (chunk : Chunk) (h : Host (Console σ)) : RunOutcome × Host (Console σ) :=
  match runLines chunk.submissionLines (Call.ofHost h) with
  | .ok () c => (⟨c.capture, none⟩, c.toHost)
  | .error e c => (⟨c.capture, some e⟩, c.toHost)

/-- Reads away what has arrived. -/
def drain (h : Host σ) : Host σ :=
  match _ : LineChannel.read 0 h with
  | .ok ⟨some _, _⟩ h' => drain h'
  | .ok ⟨none, _⟩ h' => h'
  | .error _ h' => h'
termination_by LineChannel.backlog h.guest
decreasing_by exact LineChannel.backlog_lt (by assumption)

/-- Forgets all output that has arrived. -/
def reset (h : Host (Console σ)) : Host (Console σ) :=
  let drained := drain ⟨h.guest.channel, h.disk⟩
  ⟨{ h.guest with channel := drained.guest, buffer := [] }, drained.disk⟩

/-- What the channel does, as something that the console does. -/
def onChannel {α : Type} (action : Action σ α) : Action (Console σ) α :=
  action.within (·.channel) fun console channel => { console with channel }

/-- Ends the process. -/
def shutdown : Action (Console σ) Unit := do
  onChannel (LineChannel.sendLine "exit, clear".toList)
  onChannel LineChannel.close

instance : Transport (Console σ) := ⟨run, reset, shutdown⟩

end Reading

end Console

end DoRunner
