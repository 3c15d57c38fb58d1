import DoRunner.Proofs.Text.Decoding
import DoRunner.Proofs.Transport.Meanwhile

/-!
# What becomes of the log

Every look at the log reads the bytes that it has gained and decodes them, with the decoder keeping
the beginning of a character that is not complete. The bytes that a run reads are those of all its
looks, one after another (`runBytes`), and since decoding does not see where one look ends, they
decode to what is captured (`runLines_accounted`); but what is read while the echo of the sentinel is
waited for is captured only when that echo comes.
-/

namespace DoRunner

namespace Automation

variable {α : Type}

/-! ## The bytes read -/

/-- The bytes that a look at the log reads. -/
def Call.gain (c : Call α) : List UInt8 :=
  match c.host.disk.read c.logPath with
  | none => []
  | some bytes => bytes.drop c.logOffset

variable [Application α]

/-- The bytes read until the log shows the echo of the sentinel. -/
def tailBytes (sentinel collected : Text) (c : Call α) : List UInt8 :=
  match _ : Call.readLog c with
  | .error _ _ => []
  | .ok gained c' =>
    if showsSentinel sentinel (collected ++ gained) then c.gain
    else
      match _ : timeLeft c'.limit c'.elapsed "sentinel echo" with
      | .error _ => c.gain
      | .ok left => c.gain ++ tailBytes sentinel (collected ++ gained) (c'.slept left)
termination_by c.left
decreasing_by
  have read := left_readLog (by assumption)
  have slept := left_slept_lt left (left_pos (by assumption))
  simp only [Call.left] at read slept ⊢
  omega

/-- The call with what a line has added to the log. -/
def Call.noted (c : Call α) (line raw : Text) : Call α :=
  { c with capture := (c.capture.extend raw).record line raw }

/-- The bytes read while lines are submitted, one look behind each line. -/
def submitBytes (indirect : Bool) : List Text → Call α → List UInt8
  | [], _ => []
  | line :: lines, c =>
    match submit indirect line c with
    | .error _ _ => []
    | .ok code c₁ =>
      match Call.readLog c₁ with
      | .error _ _ => []
      | .ok raw c₂ =>
        c₁.gain ++ if code = 0 then submitBytes indirect lines (c₂.noted line raw) else []

/-- The bytes read in a run. -/
def runBytes (indirect : Bool) (lines : List Text) (c : Call α) : List UInt8 :=
  match lines.getLast? with
  | none => []
  | some sentinel =>
    submitBytes indirect lines.dropLast c ++
      match submitAll indirect lines.dropLast c with
      | .error _ _ => []
      | .ok () c₁ =>
        match Call.lift (Application.submitAsync sentinel) c₁ with
        | .error _ _ => []
        | .ok () c₂ => tailBytes sentinel [] c₂

/-! ## Reading -/

/-- From one call to another, these bytes were read, and they were decoded as a text. -/
structure Reads (c : Call α) (bytes : List UInt8) (text : Text) (c' : Call α) : Prop where
  /-- They are what the decoder was given. -/
  decoded : c.decoder.decode bytes = (text, c'.decoder)
  /-- They are counted. -/
  counted : c'.logOffset = c.logOffset + bytes.length

namespace Reads

variable {c c₁ c' : Call α}

omit [Application α] in
theorem nothing (decoder : c'.decoder = c.decoder) (offset : c'.logOffset = c.logOffset) :
    Reads c [] [] c' := by
  refine ⟨?_, offset⟩
  rw [decoder]
  rfl

omit [Application α] in
theorem trans {xs ys : List UInt8} {t u : Text} (h : Reads c xs t c₁) (more : Reads c₁ ys u c') :
    Reads c (xs ++ ys) (t ++ u) c' := by
  refine ⟨?_, ?_⟩
  · rw [Utf8.Carry.decode_append, h.decoded, more.decoded]
  · rw [more.counted, h.counted, List.length_append, Nat.add_assoc]

end Reads

omit [Application α] in
/-- A look reads what the log has gained. -/
theorem reads_readLog {c c' : Call α} {text : Text} (h : Call.readLog c = .ok text c') :
    Reads c c.gain text c' ∧ c'.capture = c.capture := by
  unfold Call.readLog at h
  unfold Call.gain
  cases hr : c.host.disk.read c.logPath with
  | none =>
    rw [hr] at h
    exact absurd h (by simp)
  | some bytes =>
    rw [hr] at h
    obtain ⟨rfl, rfl⟩ := EStateM.Result.ok.inj h
    exact ⟨⟨rfl, rfl⟩, rfl⟩

omit [Application α] in
theorem call_readLog {c c' : Call α} {e : TransportError} (h : Call.readLog c = .error e c') :
    c' = c := by
  unfold Call.readLog at h
  split at h
  · exact (EStateM.Result.error.inj h).2.symm
  · exact absurd h (by simp)

theorem submitAll_cons (indirect : Bool) (line : Text) (lines : List Text) (c : Call α) :
    submitAll indirect (line :: lines) c = match submit indirect line c with
      | .error e c₁ => .error e c₁
      | .ok code c₁ => match Call.readLog c₁ with
        | .error e c₂ => .error e c₂
        | .ok raw c₂ =>
          if code = 0 then submitAll indirect lines (c₂.noted line raw)
          else Call.captured (fun capture => { capture with returnCode := code })
            (c₂.noted line raw) := by
  simp only [submitAll, bind, EStateM.bind]
  cases submit indirect line c with
  | error e c₁ => rfl
  | ok code c₁ =>
    dsimp only
    cases Call.readLog c₁ with
    | error e c₂ => rfl
    | ok raw c₂ =>
      dsimp only [capture, Call.captured, Call.noted]
      split <;> rfl

/-- **While lines are submitted, all that is read is captured.** -/
theorem submitAll_accounted (indirect : Bool) (lines : List Text) (c : Call α) :
    ∃ text, Reads c (submitBytes indirect lines c) text (stateOf (submitAll indirect lines c)) ∧
      (stateOf (submitAll indirect lines c)).capture.text = c.capture.text ++ text := by
  induction lines generalizing c with
  | nil => exact ⟨[], .nothing rfl rfl, (List.append_nil _).symm⟩
  | cons line lines ih =>
    have submitted : Waited (fun _ => True) c (stateOf (submit indirect line c)) :=
      .submit trivial indirect c
    rw [submitAll_cons, submitBytes]
    -- submitting reads nothing, so the look behind it reads all that the line has added
    cases hs : submit indirect line c with
    | error e c₁ =>
      rw [hs] at submitted
      refine ⟨[], .nothing submitted.decoder submitted.offset, ?_⟩
      rw [List.append_nil]
      exact congrArg RawCapture.text submitted.capture
    | ok code c₁ =>
      rw [hs] at submitted
      have same := congrArg RawCapture.text submitted.capture
      have begins : Reads c [] [] c₁ := .nothing submitted.decoder submitted.offset
      dsimp only
      cases hr : Call.readLog c₁ with
      | error e c₂ =>
        obtain rfl := call_readLog hr
        exact ⟨[], begins, by rw [List.append_nil]; exact same⟩
      | ok raw c₂ =>
        obtain ⟨read, unchanged⟩ := reads_readLog hr
        have gained : Reads c₁ c₁.gain raw (c₂.noted line raw) := ⟨read.decoded, read.counted⟩
        have looked : Reads c c₁.gain raw (c₂.noted line raw) := begins.trans gained
        have text : (c₂.noted line raw).capture.text = c.capture.text ++ raw := by
          show c₂.capture.text ++ raw = _
          rw [unchanged, show c₁.capture.text = _ from same]
        dsimp only
        -- a line that fails is the last
        split
        · obtain ⟨more, rest, grown⟩ := ih (c₂.noted line raw)
          refine ⟨raw ++ more, looked.trans rest, ?_⟩
          rw [grown, text, List.append_assoc]
        · refine ⟨raw, ?_, text⟩
          rw [List.append_nil]
          exact ⟨looked.decoded, looked.counted⟩

section Tail

variable {sentinel collected gained : Text} {c c' : Call α} {left : Nat}

/-- Where a look shows the echo of the sentinel, it is the last. -/
theorem tailUntil_of_shown (looks : Call.readLog c = .ok gained c')
    (found : showsSentinel sentinel (collected ++ gained) = true) :
    tailUntil sentinel collected c = .ok (collected ++ gained) c' := by
  rw [tailUntil, looks]
  dsimp only
  rw [if_pos found]

theorem tailBytes_of_shown (looks : Call.readLog c = .ok gained c')
    (found : showsSentinel sentinel (collected ++ gained) = true) :
    tailBytes sentinel collected c = c.gain := by
  rw [tailBytes, looks]
  dsimp only
  rw [if_pos found]

/-- Where it does not, the log is looked at again as long as there is time. -/
theorem tailBytes_of_waits (looks : Call.readLog c = .ok gained c')
    (waits : ¬ showsSentinel sentinel (collected ++ gained) = true)
    (inTime : timeLeft c'.limit c'.elapsed "sentinel echo" = .ok left) :
    tailBytes sentinel collected c
      = c.gain ++ tailBytes sentinel (collected ++ gained) (c'.slept left) := by
  rw [tailBytes, looks]
  dsimp only
  rw [if_neg waits]
  split
  · rename_i e late
    exact absurd (late.symm.trans inTime) (by simp)
  · rename_i left' inTime'
    rw [Except.ok.inj (inTime.symm.trans inTime')]

end Tail

/-- While the echo of the sentinel is waited for, what is read is collected. -/
theorem tailUntil_accounted (sentinel collected : Text) (c : Call α) :
    ∃ text, Reads c (tailBytes sentinel collected c) text
        (stateOf (tailUntil sentinel collected c)) ∧
      (stateOf (tailUntil sentinel collected c)).capture = c.capture ∧
      ∀ all c', tailUntil sentinel collected c = .ok all c' → all = collected ++ text := by
  fun_induction tailUntil sentinel collected c with
  | case1 collected c e c' fails =>
    obtain rfl := call_readLog fails
    rw [tailBytes, fails]
    exact ⟨[], .nothing rfl rfl, rfl, nofun⟩
  | case2 collected c gained c' looks found =>
    obtain ⟨read, same⟩ := reads_readLog looks
    rw [tailBytes_of_shown looks found]
    refine ⟨gained, read, same, ?_⟩
    intro all c'' ended
    exact (EStateM.Result.ok.inj ended).1.symm
  | case3 collected c gained c' looks waits e late =>
    obtain ⟨read, same⟩ := reads_readLog looks
    have bytes : tailBytes sentinel collected c = c.gain := by
      rw [tailBytes, looks]
      dsimp only
      rw [if_neg waits]
      split
      · rfl
      · rename_i left inTime
        exact absurd (late.symm.trans inTime) (by simp)
    rw [bytes]
    exact ⟨gained, read, same, nofun⟩
  | case4 collected c gained c' looks waits left inTime ih =>
    obtain ⟨read, same⟩ := reads_readLog looks
    obtain ⟨more, rest, unchanged, collects⟩ := ih
    rw [tailBytes_of_waits looks waits inTime]
    have slept : Reads c c.gain gained (c'.slept left) := ⟨read.decoded, read.counted⟩
    refine ⟨gained ++ more, slept.trans rest, unchanged.trans same, ?_⟩
    intro all c'' ended
    rw [collects all c'' ended, List.append_assoc]

/-- **All that a run reads is captured,** but for what is read while the echo of the sentinel is
waited for in vain. -/
theorem runLines_accounted (indirect : Bool) (lines : List Text) (c : Call α) :
    ∃ text lost, Reads c (runBytes indirect lines c) (text ++ lost)
        (stateOf (runLines indirect lines c)) ∧
      (stateOf (runLines indirect lines c)).capture.text = c.capture.text ++ text ∧
      ((∃ c', runLines indirect lines c = .ok () c') → lost = []) := by
  unfold runLines runBytes
  cases lines.getLast? with
  | none => exact ⟨[], [], .nothing rfl rfl, (List.append_nil _).symm, fun _ => rfl⟩
  | some sentinel =>
    obtain ⟨text, submitted, grown⟩ := submitAll_accounted indirect lines.dropLast c
    simp only [bind, EStateM.bind]
    cases hs : submitAll indirect lines.dropLast c with
    | error e c₁ =>
      rw [hs, stateOf] at submitted grown
      refine ⟨text, [], ?_, grown, fun _ => rfl⟩
      rw [List.append_nil, List.append_nil]
      exact submitted
    | ok u c₁ =>
      rw [hs, stateOf] at submitted grown
      have asked : Waited (fun _ => True) c₁
          (stateOf (Call.lift (Application.submitAsync sentinel) c₁)) :=
        .lift (.submitAsync trivial _)
      dsimp only
      cases ha : Call.lift (Application.submitAsync sentinel) c₁ with
      | error e c₂ =>
        rw [ha, stateOf] at asked
        refine ⟨text, [], submitted.trans (.nothing asked.decoder asked.offset), ?_, fun _ => rfl⟩
        exact (congrArg RawCapture.text asked.capture).trans grown
      | ok u c₂ =>
        rw [ha, stateOf] at asked
        have begins := submitted.trans (.nothing asked.decoder asked.offset)
        rw [List.append_nil, List.append_nil] at begins
        obtain ⟨tail, read, same, collects⟩ := tailUntil_accounted sentinel [] c₂
        have text₂ := (congrArg RawCapture.text asked.capture).trans grown
        dsimp only
        cases ht : tailUntil sentinel [] c₂ with
        | error e c₃ =>
          -- here the tail is lost: it was collected, but it is captured only at the end
          rw [ht, stateOf] at read same
          refine ⟨text, tail, begins.trans read, ?_, nofun⟩
          exact (congrArg RawCapture.text same).trans text₂
        | ok all c₃ =>
          rw [ht, stateOf] at read same
          have gathered : all = tail := collects all c₃ ht
          have whole := begins.trans read
          refine ⟨text ++ tail, [], ?_, ?_, fun _ => rfl⟩
          · rw [List.append_nil]
            exact ⟨whole.decoded, whole.counted⟩
          · show c₃.capture.text ++ all = _
            rw [same, text₂, gathered, List.append_assoc]

end Automation

end DoRunner
