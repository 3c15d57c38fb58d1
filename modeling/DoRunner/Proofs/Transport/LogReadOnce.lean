import DoRunner.Proofs.Disk
import DoRunner.Proofs.Text.Decoding
import DoRunner.Proofs.Transport.LogAccounts

/-!
# The log is read once

As long as an application only adds to its log, no byte of the log is read twice and none is passed
over: the bytes that calls read, one call after another, are those of the log from where it was
opened to where reading has got to. What the calls capture is therefore the text of that stretch of
the log, but for the bytes of a character that is not complete, which the decoder carries from look
to look and from call to call (`log_readOnce`).

What is carried along is `UpTo`: a stretch of bytes has been read, and the log still begins with it.
A look adds to the stretch what it reads (`UpTo.readLog`), and nothing else changes it, whenever the
application adds to the log (`UpTo.waited`).
-/

namespace DoRunner

/-- The text of a capture is what the lines sent have produced, one after another. -/
def RawCapture.Told (capture : RawCapture) : Prop :=
  capture.text = capture.transcript.flatMap (·.raw)

namespace Automation

variable {α : Type} [Application α] {path : Text} {lines : Text → Prop}

variable (α) in
/-- An application that only ever adds to the file at a path, when it is given these lines. -/
def OnlyAppends (path : Text) (lines : Text → Prop) : Prop :=
  ∀ h h' : Host α, Acts lines h h' → Disk.Grows path h.disk h'.disk

theorem OnlyAppends.grows (appends : OnlyAppends α path lines) {h h' : Host α}
    (acted : Relation.ReflTransGen (Acts lines) h h') : Disk.Grows path h.disk h'.disk := by
  induction acted with
  | refl => exact .refl path _
  | tail _ acts ih => exact ih.trans (appends _ _ acts)

/-! ## How far the log has been read -/

omit [Application α] in
/-- The log at a path has been read up to the end of `before`, and still begins with that. -/
structure UpTo (path : Text) (before : List UInt8) (c : Call α) : Prop where
  /-- It is where the log is. -/
  logPath : c.logPath = path
  /-- The next byte to be read is the one behind. -/
  offset : c.logOffset = before.length
  /-- The log goes on from there. -/
  goesOn : ∃ more, c.host.disk.read path = some (before ++ more)

namespace UpTo

variable {before : List UInt8} {c c' : Call α}

omit [Application α] in
/-- What is added to a log does not matter to what was read of it. -/
theorem grown (h : UpTo path before c) (logPath : c'.logPath = c.logPath)
    (offset : c'.logOffset = c.logOffset) (grows : Disk.Grows path c.host.disk c'.host.disk) :
    UpTo path before c' := by
  obtain ⟨more, held⟩ := h.goesOn
  obtain ⟨added, holds⟩ := grows _ held
  exact ⟨logPath.trans h.logPath, offset.trans h.offset, more ++ added,
    by rw [holds, List.append_assoc]⟩

theorem waited (appends : OnlyAppends α path lines) (h : UpTo path before c)
    (w : Waited lines c c') : UpTo path before c' :=
  h.grown w.logPath w.offset (appends.grows w.acted)

omit [Application α] in
/-- **A look reads on from where the last one ended,** to the end of the log. -/
theorem readLog {text : Text} (h : UpTo path before c) (looks : Call.readLog c = .ok text c') :
    UpTo path (before ++ c.gain) c' := by
  obtain ⟨more, held⟩ := h.goesOn
  have gained : c.gain = more := by
    rw [Call.gain, h.logPath, held]
    dsimp only
    rw [h.offset, List.drop_left]
  rw [Call.readLog, h.logPath, held] at looks
  obtain ⟨-, rfl⟩ := EStateM.Result.ok.inj looks
  rw [gained]
  refine ⟨rfl, ?_, [], by rw [List.append_nil]; exact held⟩
  dsimp only
  rw [h.offset, List.drop_left, List.length_append]

end UpTo

/-! ## A call that succeeds -/

/-- Lines are submitted without a failure of the transport, up to the first that fails, and these
bytes are read behind them. -/
inductive Submits (indirect : Bool) :
    List Text → Call α → List UInt8 → Call α → Prop where
  /-- There is no line. -/
  | nil (c : Call α) : Submits indirect [] c [] c
  /-- A line succeeds. -/
  | cons {line raw : Text} {ls : List Text} {c c₁ c₂ c' : Call α} {bytes : List UInt8}
      (asked : submit indirect line c = .ok 0 c₁) (looks : Call.readLog c₁ = .ok raw c₂)
      (rest : Submits indirect ls (c₂.noted line raw) bytes c') :
      Submits indirect (line :: ls) c (c₁.gain ++ bytes) c'
  /-- A line fails, and the lines behind it are not submitted. -/
  | failed {line raw : Text} {ls : List Text} {c c₁ c₂ c' : Call α} {code : Int}
      (asked : submit indirect line c = .ok code c₁) (looks : Call.readLog c₁ = .ok raw c₂)
      (reported : Call.captured (fun capture => { capture with returnCode := code })
        (c₂.noted line raw) = .ok () c') :
      Submits indirect (line :: ls) c c₁.gain c'

section Succeeds

variable {indirect : Bool} {ls : List Text} {c c' : Call α}

theorem submits_of_ok (submitted : submitAll indirect ls c = .ok () c') :
    Submits indirect ls c (submitBytes indirect ls c) c' := by
  induction ls generalizing c with
  | nil =>
    obtain ⟨-, rfl⟩ := EStateM.Result.ok.inj submitted
    exact .nil c
  | cons line ls ih =>
    rw [submitAll_cons] at submitted
    rw [submitBytes]
    cases asked : submit indirect line c with
    | error e c₁ =>
      rw [asked] at submitted
      exact absurd submitted (by simp)
    | ok code c₁ =>
      rw [asked] at submitted
      dsimp only at submitted ⊢
      cases looks : Call.readLog c₁ with
      | error e c₂ =>
        rw [looks] at submitted
        exact absurd submitted (by simp)
      | ok raw c₂ =>
        rw [looks] at submitted
        dsimp only at submitted ⊢
        split at submitted
        · rename_i succeeded
          subst succeeded
          rw [if_pos rfl]
          exact .cons asked looks (ih submitted)
        · rename_i failed
          rw [if_neg failed, List.append_nil]
          exact .failed asked looks submitted

/-- **What a call does that succeeds.** It submits its lines but for the last, starts the last, and
reads the log until it shows the echo of that. -/
theorem runLines_ok (ran : runLines indirect ls c = .ok () c') :
    (ls = [] ∧ c' = c ∧ runBytes indirect ls c = []) ∨
    ∃ front sentinel bytes c₁ c₂ tail c₃, ls = front ++ [sentinel] ∧
      Submits indirect front c bytes c₁ ∧
      Call.lift (Application.submitAsync sentinel) c₁ = .ok () c₂ ∧
      tailUntil sentinel [] c₂ = .ok tail c₃ ∧ c' = c₃.noted sentinel tail ∧
      runBytes indirect ls c = bytes ++ tailBytes sentinel [] c₂ ∧
      submitAll indirect front c = .ok () c₁ := by
  unfold runLines at ran
  unfold runBytes
  rcases List.eq_nil_or_concat ls with rfl | ⟨front, sentinel, rfl⟩
  · obtain ⟨-, rfl⟩ := EStateM.Result.ok.inj ran
    exact .inl ⟨rfl, rfl, rfl⟩
  · rw [List.concat_eq_append, List.getLast?_concat, List.dropLast_concat] at ran ⊢
    simp only [bind, EStateM.bind] at ran
    cases submitted : submitAll indirect front c with
    | error e c₁ =>
      rw [submitted] at ran
      exact absurd ran (by simp)
    | ok u c₁ =>
      rw [submitted] at ran
      dsimp only at ran
      cases asked : Call.lift (Application.submitAsync sentinel) c₁ with
      | error e c₂ =>
        rw [asked] at ran
        exact absurd ran (by simp)
      | ok u c₂ =>
        rw [asked] at ran
        dsimp only at ran
        cases tailed : tailUntil sentinel [] c₂ with
        | error e c₃ =>
          rw [tailed] at ran
          exact absurd ran (by simp)
        | ok tail c₃ =>
          rw [tailed] at ran
          obtain ⟨-, rfl⟩ := EStateM.Result.ok.inj ran
          refine .inr ⟨front, sentinel, _, c₁, c₂, tail, c₃, rfl, submits_of_ok submitted, asked,
            tailed, rfl, ?_, submitted⟩
          dsimp only
          rw [asked]

/-! ### What it reads -/

variable {before : List UInt8}

theorem Submits.upTo (appends : OnlyAppends α path lines) (given : ∀ line ∈ ls, lines line)
    {bytes : List UInt8} (submits : Submits indirect ls c bytes c') (h : UpTo path before c) :
    UpTo path (before ++ bytes) c' := by
  have looked : ∀ {line raw : Text} {code : Int} {c c₁ c₂ : Call α} {before : List UInt8},
      lines line → submit indirect line c = .ok code c₁ → Call.readLog c₁ = .ok raw c₂ →
      UpTo path before c → UpTo path (before ++ c₁.gain) (c₂.noted line raw) := by
    intro line raw code c c₁ c₂ before given asked looks h
    have waited : Waited lines c (stateOf (submit indirect line c)) := .submit given indirect c
    rw [asked] at waited
    exact ((h.waited appends waited).readLog looks).grown rfl rfl (.refl path _)
  induction submits generalizing before with
  | nil => rwa [List.append_nil]
  | cons asked looks _ ih =>
    rw [← List.append_assoc]
    exact ih (fun l m => given l (List.mem_cons_of_mem _ m))
      (looked (given _ List.mem_cons_self) asked looks h)
  | failed asked looks reported =>
    obtain ⟨-, rfl⟩ := EStateM.Result.ok.inj reported
    exact (looked (given _ List.mem_cons_self) asked looks h).grown rfl rfl (.refl path _)

theorem tailUntil_upTo (appends : OnlyAppends α path lines) {sentinel collected all : Text}
    (h : UpTo path before c) (tailed : tailUntil sentinel collected c = .ok all c') :
    UpTo path (before ++ tailBytes sentinel collected c) c' := by
  fun_induction tailUntil sentinel collected c generalizing before with
  | case1 => exact absurd tailed (by simp)
  | case2 collected c gained c₁ looks found =>
    obtain ⟨-, rfl⟩ := EStateM.Result.ok.inj tailed
    rw [tailBytes_of_shown looks found]
    exact h.readLog looks
  | case3 => exact absurd tailed (by simp)
  | case4 collected c gained c₁ looks waits left inTime ih =>
    rw [tailBytes_of_waits looks waits inTime, ← List.append_assoc]
    exact ih ((h.readLog looks).waited appends (.slept c₁ left)) tailed

/-- **A call that succeeds reads on from where the last one ended,** without leaving anything out. -/
theorem runLines_upTo (appends : OnlyAppends α path lines) (given : ∀ line ∈ ls, lines line)
    (h : UpTo path before c) (ran : runLines indirect ls c = .ok () c') :
    UpTo path (before ++ runBytes indirect ls c) c' := by
  rcases runLines_ok ran with ⟨-, rfl, nothing⟩ |
    ⟨front, sentinel, bytes, c₁, c₂, tail, c₃, rfl, submits, asked, tailed, rfl, read, -⟩
  · rwa [nothing, List.append_nil]
  · have submitted := submits.upTo appends (fun l m => given l (List.mem_append_left _ m)) h
    have waited : Waited lines c₁ (stateOf (Call.lift (Application.submitAsync sentinel) c₁)) :=
      .lift (.submitAsync (given sentinel (List.mem_append_right _ List.mem_cons_self)) _)
    rw [asked] at waited
    rw [read, ← List.append_assoc]
    exact (tailUntil_upTo appends (submitted.waited appends waited) tailed).grown rfl rfl
      (.refl path _)

/-! ### What it captures -/

omit [Application α] in
theorem told_noted {captured : RawCapture} (told : captured.Told) (same : c.capture = captured)
    (line raw : Text) : (c.noted line raw).capture.Told := by
  unfold RawCapture.Told at told ⊢
  simp only [Call.noted, RawCapture.extend, RawCapture.record, List.flatMap_append,
    List.flatMap_singleton, same, told]

/-- Nothing is captured until a line that was submitted is noted. -/
theorem capture_submit {line raw : Text} {code : Int} {c₁ c₂ : Call α}
    (asked : submit indirect line c = .ok code c₁) (looks : Call.readLog c₁ = .ok raw c₂) :
    c₂.capture = c.capture := by
  have waited : Waited (fun _ => True) c (stateOf (submit indirect line c)) :=
    .submit trivial indirect c
  rw [asked] at waited
  exact (reads_readLog looks).2.trans waited.capture

/-- Nor is anything while the echo of the sentinel is waited for. -/
theorem capture_tailUntil {sentinel tail : Text} {c₁ c₂ : Call α}
    (asked : Call.lift (Application.submitAsync sentinel) c = .ok () c₁)
    (tailed : tailUntil sentinel [] c₁ = .ok tail c₂) : c₂.capture = c.capture := by
  have waited : Waited (fun _ => True) c
      (stateOf (Call.lift (Application.submitAsync sentinel) c)) :=
    .lift (.submitAsync trivial _)
  obtain ⟨-, -, same, -⟩ := tailUntil_accounted sentinel [] c₁
  rw [asked] at waited
  rw [tailed] at same
  exact same.trans waited.capture

theorem Submits.told {bytes : List UInt8} (submits : Submits indirect ls c bytes c')
    (told : c.capture.Told) : c'.capture.Told := by
  induction submits with
  | nil => exact told
  | cons asked looks _ ih => exact ih (told_noted told (capture_submit asked looks) _ _)
  | failed asked looks reported =>
    obtain ⟨-, rfl⟩ := EStateM.Result.ok.inj reported
    exact told_noted told (capture_submit asked looks) _ _

/-- **What a call captures** is what its lines have produced. -/
theorem runLines_told (told : c.capture.Told) (ran : runLines indirect ls c = .ok () c') :
    c'.capture.Told := by
  rcases runLines_ok ran with ⟨-, rfl, -⟩ |
    ⟨front, sentinel, bytes, c₁, c₂, tail, c₃, rfl, submits, asked, tailed, rfl, -, -⟩
  · exact told
  · exact told_noted (submits.told told) (capture_tailUntil asked tailed) sentinel tail

end Succeeds

/-! ## Calls in a row -/

/-- A call that has succeeded. -/
structure Called where
  /-- What it captured. -/
  capture : RawCapture
  /-- The bytes of the log that it read. -/
  bytes : List UInt8
deriving DecidableEq, Repr

/-- Calls one after another, all of which succeed. Only `lines` are submitted. Between two of them
the application and others may do what they like, as long as the log is only added to. -/
inductive Calls (path : Text) (lines : Text → Prop) :
    Host (Automation α) → List Called → Host (Automation α) → Prop where
  /-- There is no call. -/
  | nil (h : Host (Automation α)) : Calls path lines h [] h
  /-- A call succeeds. -/
  | run {chunk : Chunk} {capture : RawCapture} {calls : List Called}
      {h h₁ h' : Host (Automation α)} (given : ∀ line ∈ chunk.submissionLines, lines line)
      (ran : run chunk h = (⟨capture, none⟩, h₁)) (rest : Calls path lines h₁ calls h') :
      Calls path lines h
        (⟨capture, runBytes chunk.indirect chunk.submissionLines (.ofHost h)⟩ :: calls) h'
  /-- Something else happens. -/
  | meanwhile {application : α} {disk : Disk} {calls : List Called} {h h' : Host (Automation α)}
      (grows : Disk.Grows path h.disk disk)
      (rest : Calls path lines ⟨{ h.guest with application }, disk⟩ calls h') :
      Calls path lines h calls h'

/-- A call that succeeds reads on, and captures what it reads. -/
theorem run_upTo (appends : OnlyAppends α path lines) {chunk : Chunk} {capture : RawCapture}
    {h h' : Host (Automation α)} {before : List UInt8}
    (given : ∀ line ∈ chunk.submissionLines, lines line)
    (upTo : UpTo path before (.ofHost h)) (ran : run chunk h = (⟨capture, none⟩, h')) :
    let bytes := runBytes chunk.indirect chunk.submissionLines (.ofHost h)
    UpTo path (before ++ bytes) (.ofHost h') ∧
      h.guest.decoder.decode bytes = (capture.text, h'.guest.decoder) ∧ capture.Told := by
  unfold run at ran
  obtain ⟨text, lost, reads, grown, all⟩ :=
    runLines_accounted chunk.indirect chunk.submissionLines (.ofHost h)
  cases hr : runLines chunk.indirect chunk.submissionLines (.ofHost h) with
  | error e c =>
    rw [hr] at ran
    exact absurd ran (by simp)
  | ok u c =>
    rw [hr] at ran reads grown
    obtain ⟨outcome, rfl⟩ := Prod.mk.inj ran
    obtain ⟨rfl, -⟩ := RunOutcome.mk.inj outcome
    have shown : c.capture.text = text := grown
    have decoded := reads.decoded
    rw [all ⟨c, hr⟩, List.append_nil, ← shown] at decoded
    have after := runLines_upTo appends given upTo hr
    exact ⟨⟨after.logPath, after.offset, after.goesOn⟩, decoded, runLines_told (c := .ofHost h) rfl hr⟩

/-- **Calls in a row read on where the ones before have ended,** and what they capture together is
what their bytes decode to. -/
theorem Calls.upTo (appends : OnlyAppends α path lines) {h h' : Host (Automation α)}
    {calls : List Called} (calling : Calls path lines h calls h') {before : List UInt8}
    (upTo : UpTo path before (.ofHost h)) :
    UpTo path (before ++ calls.flatMap (·.bytes)) (.ofHost h') ∧
      h.guest.decoder.decode (calls.flatMap (·.bytes))
        = (calls.flatMap (·.capture.text), h'.guest.decoder) ∧
      ∀ called ∈ calls, called.capture.Told := by
  induction calling generalizing before with
  | nil h =>
    refine ⟨?_, rfl, fun called m => absurd m List.not_mem_nil⟩
    rwa [List.flatMap_nil, List.append_nil]
  | run given ran _ ih =>
    obtain ⟨first, decoded, told⟩ := run_upTo appends given upTo ran
    obtain ⟨rest, more, toldRest⟩ := ih first
    refine ⟨?_, ?_, ?_⟩
    · rwa [List.flatMap_cons, ← List.append_assoc]
    · rw [List.flatMap_cons, List.flatMap_cons, Utf8.Carry.decode_append, decoded, more]
    · intro called m
      rcases List.mem_cons.mp m with rfl | m
      · exact told
      · exact toldRest called m
  | meanwhile grows _ ih => exact ih (upTo.grown rfl rfl grows)

/-! ## From the opening of the log -/

omit [Application α] in
theorem read_of_openedAt {path : Text} {h h₀ : Host α} {log : OpenedLog}
    (opened : openedAt path h = .ok log h₀) :
    ∃ bytes, h₀.disk.read log.path = some bytes ∧ log.length = bytes.length := by
  rw [openedAt] at opened
  cases held : h.disk.read path with
  | none =>
    rw [held] at opened
    exact absurd opened (by simp)
  | some bytes =>
    rw [held] at opened
    obtain ⟨rfl, rfl⟩ := EStateM.Result.ok.inj opened
    exact ⟨bytes, held, rfl⟩

/-- A log that was opened is on the disk, with as many bytes as were found in it. -/
theorem read_of_opened {cache : CachePaths} {pollInterval : Nat} {h h₀ : Host α} {log : OpenedLog}
    (opened : openSessionLog cache pollInterval h = .ok log h₀) :
    ∃ bytes, h₀.disk.read log.path = some bytes ∧ log.length = bytes.length := by
  revert opened
  unfold openSessionLog
  refine bind_cases (Q := fun r => r = .ok log h₀ → _) (fun _ h₁ _ => ?_) (fun _ _ _ => nofun)
  refine bind_cases (Q := fun r => r = .ok log h₀ → _) (fun found h₂ _ => ?_) (fun _ _ _ => nofun)
  cases found with
  | none => nofun
  | some path => exact read_of_openedAt

/-- **The log is read exactly once.** Since a log was opened, its application has only added to it,
and every call has succeeded. Then the bytes that the calls have read are those of the log from
where it was opened up to the offset; decoded in one go, with a decoder that holds nothing, they give
what the calls have captured, and leave the decoder as it is. It holds back three bytes at most, and
what is captured is the text of all bytes before those. -/
theorem log_readOnce {cache : CachePaths} {timeout pollInterval : Nat} {h h₀ : Host α}
    {log : OpenedLog} {lines : Text → Prop} {calls : List Called} {h' : Host (Automation α)}
    (opened : openSessionLog cache pollInterval h = .ok log h₀)
    (appends : OnlyAppends α log.path lines)
    (calling : Calls log.path lines ⟨ofApplication h₀.guest log timeout pollInterval, h₀.disk⟩
      calls h') :
    (∀ called ∈ calls,
      called.capture.text = called.capture.transcript.flatMap fun entry => entry.raw) ∧
    ∃ bytes, h'.disk.read log.path = some bytes ∧
      log.length ≤ h'.guest.logOffset ∧ h'.guest.logOffset ≤ bytes.length ∧
      let stretch := (bytes.take h'.guest.logOffset).drop log.length
      let captured := calls.flatMap fun called => called.capture.text
      calls.flatMap (fun called => called.bytes) = stretch ∧
      Utf8.Carry.empty.decode stretch = (captured, h'.guest.decoder) ∧
      h'.guest.decoder.held.length ≤ 3 ∧
      ∃ whole, stretch = whole ++ h'.guest.decoder.held ∧ captured = Utf8.decodeLossy whole := by
  obtain ⟨before, held, length⟩ := read_of_opened opened
  have start : UpTo log.path before
      (.ofHost ⟨ofApplication h₀.guest log timeout pollInterval, h₀.disk⟩) :=
    ⟨rfl, length, [], by rw [List.append_nil]; exact held⟩
  obtain ⟨upTo, decoded, told⟩ := calling.upTo appends start
  obtain ⟨more, holds⟩ := upTo.goesOn
  have offset : h'.guest.logOffset = (before ++ calls.flatMap (·.bytes)).length := upTo.offset
  have stretch : ((before ++ calls.flatMap (·.bytes) ++ more).take h'.guest.logOffset).drop
      log.length = calls.flatMap (·.bytes) := by
    rw [offset, List.take_left, length, List.drop_left]
  refine ⟨told, before ++ calls.flatMap (·.bytes) ++ more, holds, ?_, ?_, ?_⟩
  · rw [offset, length, List.length_append]
    exact Nat.le_add_right _ _
  · rw [offset]
    exact (List.sublist_append_left _ _).length_le
  · dsimp only
    rw [stretch]
    exact ⟨rfl, decoded, Utf8.Carry.decode_empty decoded⟩

end Automation

/-! ## A log that gains piece after piece -/

/-- An application whose log gains a piece whenever the application is given a line or time
passes. A piece may end anywhere. -/
structure Trickle where
  /-- Where the log is. -/
  path : Text
  /-- The pieces still to come. -/
  pieces : List (List UInt8)

namespace Trickle

open Automation

/-- The log gains the next piece. -/
def gain (h : Host Trickle) : Host Trickle :=
  match h.disk.append h.guest.path (h.guest.pieces.headD []) with
  | some disk => ⟨{ h.guest with pieces := h.guest.pieces.tail }, disk⟩
  | none => h

instance : Application Trickle where
  submitAndWait _ h := .ok ⟨0, 0⟩ (gain h)
  submitAsync _ h := .ok () (gain h)
  pollBusy h := .ok ⟨false, 0⟩ h
  lastErrorCode h := .ok 0 h
  waitUntilIdle _ h := .ok none h
  pass _ h := gain h

/-- A log that gains pieces loses nothing. -/
theorem onlyAppends (path : Text) (lines : Text → Prop) : OnlyAppends Trickle path lines := by
  have gains (h : Host Trickle) : Disk.Grows path h.disk (gain h).disk := by
    unfold gain
    cases appended : h.disk.append h.guest.path (h.guest.pieces.headD []) with
    | none => exact .refl path _
    | some disk => exact Disk.grows_append appended path
  intro h h' acts
  cases acts with
  | submitAndWait | submitAsync | pass => exact gains h
  | pollBusy | lastErrorCode | waitUntilIdle => exact .refl path _

theorem exists_gain {path : Text} {disk : Disk} {bytes : List UInt8}
    (holds : disk.read path = some bytes) (piece : List UInt8) (more : List (List UInt8)) :
    ∃ disk', gain ⟨⟨path, piece :: more⟩, disk⟩ = (⟨⟨path, more⟩, disk'⟩ : Host Trickle) ∧
      disk'.read path = some (bytes ++ piece) := by
  obtain ⟨disk', appended, read⟩ := Disk.exists_append holds piece
  refine ⟨disk', ?_, read⟩
  unfold gain
  dsimp only [List.headD_cons, List.tail_cons]
  rw [appended]

/-- What a piece decodes to is what the look behind it gives. -/
theorem readLog_of_piece {c : Call Trickle} {piece bytes : List UInt8} {t : Text}
    {decoder : Utf8.Carry} (holds : c.host.disk.read c.logPath = some (bytes ++ piece))
    (offset : c.logOffset = bytes.length) (decoded : c.decoder.decode piece = (t, decoder)) :
    Call.readLog c = .ok t { c with decoder, logOffset := (bytes ++ piece).length } := by
  rw [Call.readLog, holds]
  dsimp only
  rw [offset, List.drop_left, decoded, List.length_append]

/-- **What a call captures** for a line and the sentinel, when there is a piece for each. -/
theorem run_of_pieces {chunk : Chunk} {line sentinel path : Text} {p q bytes : List UInt8}
    {disk : Disk} {decoder decoder₁ decoder₂ : Utf8.Carry} {t u : Text}
    (more : List (List UInt8)) (timeout pollInterval : Nat) (direct : chunk.indirect = false)
    (submission : chunk.submissionLines = [line, sentinel])
    (holds : disk.read path = some bytes) (first : decoder.decode p = (t, decoder₁))
    (second : decoder₁.decode q = (u, decoder₂)) (found : showsSentinel sentinel u = true) :
    ∃ disk', disk'.read path = some (bytes ++ p ++ q) ∧
      run chunk ⟨⟨⟨path, p :: q :: more⟩, path, bytes.length, decoder, timeout, pollInterval⟩, disk⟩
        = (⟨⟨t ++ u, 0, [⟨line, t⟩, ⟨sentinel, u⟩]⟩, none⟩,
          ⟨(⟨⟨path, more⟩, path, (bytes ++ p ++ q).length, decoder₂, timeout, pollInterval⟩ :
            Automation Trickle), disk'⟩) := by
  obtain ⟨disk₁, gained₁, holds₁⟩ := exists_gain holds p (q :: more)
  obtain ⟨disk₂, gained₂, holds₂⟩ := exists_gain holds₁ q more
  refine ⟨disk₂, holds₂, ?_⟩
  let h : Host (Automation Trickle) :=
    ⟨⟨⟨path, p :: q :: more⟩, path, bytes.length, decoder, timeout, pollInterval⟩, disk⟩
  let c : Call Trickle := .ofHost h
  let c₁ : Call Trickle :=
    ⟨⟨⟨path, q :: more⟩, disk₁⟩, path, (bytes ++ p).length, decoder₁, pollInterval, timeout, 0,
      ⟨t, 0, [⟨line, t⟩]⟩⟩
  have asked : submit false line c = .ok 0 { c with host := ⟨⟨path, q :: more⟩, disk₁⟩ } := by
    rw [← gained₁]
    rfl
  have looks := readLog_of_piece (c := { c with host := ⟨⟨path, q :: more⟩, disk₁⟩ }) holds₁ rfl
    first
  have submitted : submitAll false [line] c = .ok () c₁ := by
    rw [submitAll_cons, asked]
    dsimp only
    rw [looks]
    rfl
  have started : Call.lift (Application.submitAsync sentinel) c₁
      = .ok () { c₁ with host := ⟨⟨path, more⟩, disk₂⟩ } := by
    rw [← gained₂]
    rfl
  have looks₁ := readLog_of_piece (c := { c₁ with host := ⟨⟨path, more⟩, disk₂⟩ }) holds₂ rfl second
  have tailed : tailUntil sentinel [] _ = .ok u _ := tailUntil_of_shown looks₁ found
  let c₂ : Call Trickle := { c₁ with
    host := ⟨⟨path, more⟩, disk₂⟩, logOffset := (bytes ++ p ++ q).length, decoder := decoder₂ }
  have ran : runLines false [line, sentinel] c = .ok () (c₂.noted sentinel u) := by
    rw [runLines]
    simp only [List.getLast?_cons_cons, List.getLast?_singleton, List.dropLast_cons_cons,
      List.dropLast_singleton, bind, EStateM.bind]
    rw [submitted]
    dsimp only
    rw [started]
    dsimp only
    rw [tailed]
    rfl
  show run chunk h = _
  rw [run, direct, submission, ran]
  rfl

/-- A line and its sentinel. -/
def chunk : Chunk :=
  ⟨["di 1".toList], false, ['z'], "di 1\n".toList ++ sentinelOf ['z'], [], 0⟩

/-- A log that holds a byte and gains one before it is opened. Then come the pieces of two calls,
with `é` cut within the first call, `€` cut between the two, and another character cut at the end. -/
def start : Host Trickle :=
  let sentinel := Utf8.encode (". ".toList ++ sentinelOf ['z'])
  let echo := Utf8.encode ". di 1\n".toList
  ⟨⟨"log0.log".toList,
    [[], [0x62], echo ++ [0xC3], [0xA9, 0x0A] ++ sentinel ++ [0x0A, 0xE2, 0x82],
      [0xAC, 0x0A] ++ echo, sentinel ++ [0x0A, 0xF0, 0x9F, 0x98]]⟩,
    Disk.empty.put ["log0.log".toList, "work".toList] (some (.file [0x61]))⟩

/-- Two calls capture the text of what the log gains, with every character that is cut put together
again, and the last one held back. -/
theorem log_readOnce_cutCharacters :
    ∃ (log : OpenedLog) (h₀ : Host Trickle) (first second : Called)
      (h' : Host (Automation Trickle)) (bytes whole : List UInt8),
      openSessionLog ⟨[]⟩ 0 start = .ok log h₀ ∧ log.length = 2 ∧
      OnlyAppends Trickle log.path (fun _ => True) ∧
      Calls log.path (fun _ => True) ⟨ofApplication h₀.guest log 0 0, h₀.disk⟩ [first, second] h' ∧
      first.capture.text = ". di 1\né\n. ".toList ++ sentinelOf ['z'] ++ ['\n'] ∧
      second.capture.text = "€\n. di 1\n. ".toList ++ sentinelOf ['z'] ++ ['\n'] ∧
      h'.guest.decoder.held = [0xF0, 0x9F, 0x98] ∧
      h'.disk.read log.path = some bytes ∧
      first.bytes ++ second.bytes = (bytes.take h'.guest.logOffset).drop 2 ∧
      first.bytes ++ second.bytes = whole ++ h'.guest.decoder.held ∧
      first.capture.text ++ second.capture.text = Utf8.decodeLossy whole := by
  let log : OpenedLog := ⟨start.guest.path, 2⟩
  have opened : openSessionLog ⟨[]⟩ 0 start = .ok log (gain (gain start)) := rfl
  have appends := onlyAppends log.path fun _ => True
  have holds : (gain (gain start)).disk.read log.path = some [0x61, 0x62] := by decide +kernel
  let sentinel := Utf8.encode (". ".toList ++ sentinelOf ['z'])
  let echo := Utf8.encode ". di 1\n".toList
  have submission : chunk.submissionLines = ["di 1".toList, sentinelOf ['z']] := by decide +kernel
  have decodes : Utf8.Carry.empty.decode (echo ++ [0xC3]) = (". di 1\n".toList, ⟨[0xC3]⟩) ∧
      Utf8.Carry.decode ⟨[0xC3]⟩ ([0xA9, 0x0A] ++ sentinel ++ [0x0A, 0xE2, 0x82])
        = ("é\n. ".toList ++ sentinelOf ['z'] ++ ['\n'], ⟨[0xE2, 0x82]⟩) ∧
      Utf8.Carry.decode ⟨[0xE2, 0x82]⟩ ([0xAC, 0x0A] ++ echo) = ("€\n. di 1\n".toList, .empty) ∧
      Utf8.Carry.empty.decode (sentinel ++ [0x0A, 0xF0, 0x9F, 0x98])
        = (". ".toList ++ sentinelOf ['z'] ++ ['\n'], ⟨[0xF0, 0x9F, 0x98]⟩) := by
    decide +kernel
  have found : showsSentinel (sentinelOf ['z']) ("é\n. ".toList ++ sentinelOf ['z'] ++ ['\n']) ∧
      showsSentinel (sentinelOf ['z']) (". ".toList ++ sentinelOf ['z'] ++ ['\n']) := by
    decide +kernel
  obtain ⟨line₁, tail₁, line₂, tail₂⟩ := decodes
  obtain ⟨disk₁, holds₁, ran₁⟩ := run_of_pieces
    [[0xAC, 0x0A] ++ echo, sentinel ++ [0x0A, 0xF0, 0x9F, 0x98]] 0 0 rfl submission holds line₁
    tail₁ found.1
  obtain ⟨disk₂, holds₂, ran₂⟩ := run_of_pieces [] 0 0 rfl submission holds₁ line₂ tail₂ found.2
  have calling : Calls log.path (fun _ => True)
      ⟨ofApplication (gain (gain start)).guest log 0 0, (gain (gain start)).disk⟩ _ _ :=
    .run (fun _ _ => trivial) ran₁ (.run (fun _ _ => trivial) ran₂ (.nil _))
  obtain ⟨-, bytes, read, -, -, stretch, -, -, whole, split, text⟩ :=
    log_readOnce opened appends calling
  rw [← stretch] at split
  simp only [List.flatMap_cons, List.flatMap_nil, List.append_nil] at stretch split text
  exact ⟨log, _, _, _, _, bytes, whole, opened, rfl, appends, calling, rfl, rfl, rfl, read, stretch,
    split, text⟩

end Trickle

end DoRunner
