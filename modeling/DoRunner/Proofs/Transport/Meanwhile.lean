import Mathlib.Logic.Relation
import DoRunner.Proofs.Transport.Steps
import DoRunner.Transport.Automation

/-!
# While a line is submitted

To submit a line and to wait for it is to ask the application for one thing after another, and to
leave it alone in between. `Acts` lists all that can be asked, so what holds of each of these holds
of all that happens meanwhile; and of the call nothing changes but the time (`Waited.submit`).
-/

namespace DoRunner.Automation

variable {α : Type} [Application α] {lines : Text → Prop}

/-- What becomes of an application and its disk when the application is asked for something or left
alone. Of commands it is given only `lines`. -/
inductive Acts (lines : Text → Prop) : Host α → Host α → Prop where
  /-- It runs a line. -/
  | submitAndWait {line : Text} (given : lines line) (h : Host α) :
      Acts lines h (stateOf (Application.submitAndWait line h))
  /-- It starts a line. -/
  | submitAsync {line : Text} (given : lines line) (h : Host α) :
      Acts lines h (stateOf (Application.submitAsync line h))
  /-- It is looked at. -/
  | pollBusy (h : Host α) : Acts lines h (stateOf (Application.pollBusy h))
  /-- It is asked for a return code. -/
  | lastErrorCode (h : Host α) : Acts lines h (stateOf (Application.lastErrorCode h))
  /-- It is waited for. -/
  | waitUntilIdle (time : Nat) (h : Host α) :
      Acts lines h (stateOf (Application.waitUntilIdle time h))
  /-- Time passes. -/
  | pass (time : Nat) (h : Host α) : Acts lines h (Application.pass time h)

/-- From one call to another the application has acted, but its log was not looked at. -/
structure Waited (lines : Text → Prop) (c c' : Call α) : Prop where
  logPath : c'.logPath = c.logPath
  offset : c'.logOffset = c.logOffset
  decoder : c'.decoder = c.decoder
  capture : c'.capture = c.capture
  acted : Relation.ReflTransGen (Acts lines) c.host c'.host

namespace Waited

theorem trans {c c₁ c' : Call α} (h : Waited lines c c₁) (more : Waited lines c₁ c') :
    Waited lines c c' where
  logPath := more.logPath.trans h.logPath
  offset := more.offset.trans h.offset
  decoder := more.decoder.trans h.decoder
  capture := more.capture.trans h.capture
  acted := h.acted.trans more.acted

/-- Time counts, whatever is done. -/
theorem spent (c : Call α) (elapsed : Nat) : Waited lines c { c with elapsed } :=
  ⟨rfl, rfl, rfl, rfl, .refl⟩

theorem slept (c : Call α) (left : Nat) : Waited lines c (c.slept left) :=
  ⟨rfl, rfl, rfl, rfl, .single (.pass _ _)⟩

/-- What is waited for in two steps is waited for, wherever that fails. -/
theorem bind {β γ : Type} {x : Step α β} {f : β → Step α γ} {c : Call α}
    (first : Waited lines c (stateOf (x c)))
    (rest : ∀ b c', Waited lines c' (stateOf (f b c'))) :
    Waited lines c (stateOf ((x >>= f) c)) := by
  show Waited lines c (stateOf (EStateM.bind x f c))
  rw [EStateM.bind]
  cases hx : x c with
  | error e c₁ =>
    rw [hx] at first
    exact first
  | ok b c₁ =>
    rw [hx] at first
    exact first.trans (rest b c₁)

theorem lift {β : Type} {action : Action α β} {c : Call α}
    (acts : Acts lines c.host (stateOf (action c.host))) :
    Waited lines c (stateOf (Call.lift action c)) := by
  unfold Call.lift
  cases h : action c.host <;> rw [h] at acts <;> exact ⟨rfl, rfl, rfl, rfl, .single acts⟩

theorem liftTimed {β : Type} {action : Action α (Timed β)} {c : Call α}
    (acts : Acts lines c.host (stateOf (action c.host))) :
    Waited lines c (stateOf (Call.liftTimed action c)) := by
  unfold Call.liftTimed
  cases h : action c.host <;> rw [h] at acts <;> exact ⟨rfl, rfl, rfl, rfl, .single acts⟩

theorem checkTime (waitingFor : String) (c : Call α) :
    Waited lines c (stateOf (Call.checkTime waitingFor c)) := by
  unfold Call.checkTime
  cases timeLeft c.limit c.elapsed waitingFor <;> exact .spent c c.elapsed

theorem pollUntilIdle (c : Call α) : Waited lines c (stateOf (pollUntilIdle c)) := by
  have polled : Waited lines c (stateOf (Call.liftTimed Application.pollBusy c)) :=
    .liftTimed (.pollBusy _)
  fun_induction Automation.pollUntilIdle c with
  | case1 c e c' fails =>
    rw [fails] at polled
    exact polled
  | case2 c c' idle =>
    rw [idle] at polled
    exact polled
  | case3 c c' busy e late =>
    rw [busy] at polled
    exact polled
  | case4 c c' busy left inTime ih =>
    rw [busy] at polled
    exact (polled.trans (.slept c' left)).trans (ih (.liftTimed (.pollBusy _)))

theorem waitIdle (c : Call α) : Waited lines c (stateOf (waitIdle c)) := by
  apply bind (checkTime _ c)
  intro left c
  apply bind (lift (.waitUntilIdle left _))
  intro told c
  cases told with
  | none => exact pollUntilIdle c
  | some took => exact .spent c _

/-- **Submitting a line leaves the log to the application,** whether it fails or not. -/
theorem submit {line : Text} (given : lines line) (indirect : Bool) (c : Call α) :
    Waited lines c (stateOf (submit indirect line c)) := by
  cases indirect with
  | true =>
    exact bind (lift (.submitAsync given _)) fun _ c =>
      bind (waitIdle c) fun _ _ => lift (.lastErrorCode _)
  | false => exact liftTimed (.submitAndWait given _)

end Waited

end DoRunner.Automation
