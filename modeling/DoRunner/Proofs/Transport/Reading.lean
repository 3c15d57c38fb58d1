import DoRunner.Proofs.Transport.Steps
import DoRunner.Transport.Console

/-!
# What reading keeps

A reply is read in many small reads, and any of them may be the last. What each read keeps is kept
up to the end of the reply, however it ends: that is the rule of `readReply` (`readReply_replied`),
and with the pager dismissed on the way that of `readUntilPrompt` (`readUntilPrompt_shown`). What a
call captures and sends is then a matter of the few steps between the replies.
-/

namespace DoRunner.Console

variable {σ : Type}

/-- The call with a reply captured. -/
def Call.extended (c : Call σ) (raw : Text) (echoed : Bool) : Call σ :=
  { c with capture := c.capture.extend (replyText raw echoed) }

theorem capture_bind {β : Type} (raw : Text) (echoed : Bool) (f : Unit → Step σ β) (c : Call σ) :
    (capture raw echoed >>= f) c = f () (c.extended raw echoed) := rfl

variable [LineChannel σ]

/-- A property of calls that every read keeps. -/
structure KeptByReads (I : Call σ → Prop) : Prop where
  piece : ∀ {wait : Nat} {c c' : Call σ} {piece : Text}, I c →
    Call.read wait c = .ok (some piece) c' → I (c'.append piece)
  nothing : ∀ {wait : Nat} {c c' : Call σ}, I c → Call.read wait c = .ok none c' → I c'
  failed : ∀ {wait : Nat} {c c' : Call σ} {e : TransportError}, I c →
    Call.read wait c = .error e c' → I c'

/-- What no read changes is kept. -/
theorem KeptByReads.of_same {β : Type} {part : Call σ → β}
    (same : ∀ wait c, part (stateOf (Call.read wait c)) = part c)
    (appended : ∀ c piece, part (Call.append c piece) = part c) (P : β → Prop) :
    KeptByReads fun c => P (part c) where
  piece := by
    intro wait c c' piece h arrives
    have unchanged := same wait c
    rw [arrives, stateOf] at unchanged
    rwa [appended, unchanged]
  nothing := by
    intro wait c c' h silence
    have unchanged := same wait c
    rw [silence, stateOf] at unchanged
    rwa [unchanged]
  failed := by
    intro wait c c' e h fails
    have unchanged := same wait c
    rw [fails, stateOf] at unchanged
    rwa [unchanged]

theorem KeptByReads.and {I I' : Call σ → Prop} (keep : KeptByReads I) (keep' : KeptByReads I') :
    KeptByReads fun c => I c ∧ I' c where
  piece h arrives := ⟨keep.piece h.1 arrives, keep'.piece h.2 arrives⟩
  nothing h silence := ⟨keep.nothing h.1 silence, keep'.nothing h.2 silence⟩
  failed h fails := ⟨keep.failed h.1 fails, keep'.failed h.2 fails⟩

/-! ## What is captured meanwhile -/

theorem capture_read (wait : Nat) (c : Call σ) :
    (stateOf (Call.read wait c)).capture = c.capture := by
  unfold Call.read
  cases LineChannel.read wait c.host <;> rfl

/-- Reading captures nothing. -/
theorem kept_capture (P : RawCapture → Prop) : KeptByReads fun c : Call σ => P c.capture :=
  .of_same capture_read (fun _ _ => rfl) P

omit [LineChannel σ] in
theorem capture_lift {α : Type} (action : Action σ α) (c : Call σ) :
    (stateOf (Call.lift action c)).capture = c.capture := by
  unfold Call.lift
  cases action c.host <;> rfl

theorem capture_send (line : Text) (c : Call σ) :
    (stateOf (send line c)).capture = c.capture := capture_lift _ c

/-! ## One reply -/

/-- How reading a reply ends, with a property that was kept up to the end. -/
inductive Replied (I : Call σ → Prop) : EStateM.Result TransportError (Call σ) Reply → Prop where
  | prompt {c : Call σ} (kept : I c) (ready : atPrompt c.buffer = true) :
    Replied I (.ok (.prompt (withoutPrompt c.buffer)) c.taken)
  | paged {c : Call σ} (kept : I c) (held : atPager c.buffer = true) :
    Replied I (.ok (.paged c.buffer) c.taken)
  | failed {c : Call σ} {e : TransportError} (kept : I c) : Replied I (.error e c)

/-- A read changes what has been read only by what arrives. -/
theorem buffer_read {wait : Nat} {c c' : Call σ} {piece : Option Text}
    (h : Call.read wait c = .ok piece c') : c'.buffer = c.buffer := by
  unfold Call.read at h
  split at h
  · obtain ⟨-, rfl⟩ := EStateM.Result.ok.inj h
    rfl
  · exact absurd h (by simp)

/-- **What every read keeps is kept to the end of a reply.** -/
theorem readReply_replied {I : Call σ → Prop} (keep : KeptByReads I) {c : Call σ} (h : I c) :
    Replied I (readReply c) := by
  fun_induction readReply c with
  | case1 c ready piece c' arrives ih => exact ih (keep.piece h arrives)
  | case2 c ready c' silence =>
    have same := buffer_read silence
    exact .prompt (keep.nothing h silence) (by rwa [same])
  | case3 c ready e c' fails => exact .failed (keep.failed h fails)
  | case4 c busy held => exact .paged h held
  | case5 c busy shown e late => exact .failed h
  | case6 c busy shown left inTime piece c' arrives ih => exact ih (keep.piece h arrives)
  | case7 c busy shown left inTime c' silence ih => exact ih (keep.nothing h silence)
  | case8 c busy shown left inTime c' fails => exact .failed (keep.failed h fails)
  | case9 c busy shown left inTime e c' other fails => exact .failed (keep.failed h fails)

/-! ## Past the pager -/

/-- How reading up to the prompt ends, with a property of what was shown and the call. -/
inductive Shown (I : Text → Call σ → Prop) : EStateM.Result TransportError (Call σ) Text → Prop where
  | prompt {shown : Text} {c : Call σ} (kept : I shown c) (ready : atPrompt c.buffer = true) :
    Shown I (.ok (shown ++ withoutPrompt c.buffer) c.taken)
  | failed {shown : Text} {c : Call σ} {e : TransportError} (kept : I shown c) : Shown I (.error e c)

/-- **What every read and every dismissal of the pager keeps is kept up to the prompt.** -/
theorem readUntilPrompt_shown {I : Text → Call σ → Prop} (keep : ∀ shown, KeptByReads (I shown))
    (dismiss : ∀ {shown : Text} {c : Call σ}, I shown c → atPager c.buffer = true →
      I (shown ++ c.buffer) (stateOf (send ['q'] c.taken)))
    {shown : Text} {c : Call σ} (h : I shown c) : Shown I (readUntilPrompt shown c) := by
  fun_induction readUntilPrompt shown c with
  | case1 shown c e c' fails =>
    have replied := readReply_replied (keep shown) h
    rw [fails] at replied
    cases replied with
    | failed kept => exact .failed kept
  | case2 shown c rest c' ends =>
    have replied := readReply_replied (keep shown) h
    rw [ends] at replied
    cases replied with
    | prompt kept ready => exact .prompt kept ready
  | case3 shown c more c' pages e c'' fails =>
    have replied := readReply_replied (keep shown) h
    rw [pages] at replied
    cases replied with
    | paged kept held =>
      have kept := dismiss kept held
      rw [fails] at kept
      exact .failed kept
  | case4 shown c more c' pages c'' dismissed ih =>
    have replied := readReply_replied (keep shown) h
    rw [pages] at replied
    cases replied with
    | paged kept held =>
      have kept := dismiss kept held
      rw [dismissed] at kept
      exact ih kept

end DoRunner.Console
