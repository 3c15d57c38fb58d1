import DoRunner.Proofs.Transport.LogReadOnce
import DoRunner.Proofs.Transport.Runs

/-!
# Whether all lines were submitted

A run that does not fail and reports no return code should have submitted all its lines, and its
transcript is where one can see that. An application is held to it whatever it prints
(`Automation.thorough`). A console ends a run at the first reply with a return code, even if that
code is zero, and where the pager stops a line, so one has to look for these in the replies
(`Console.thorough`).
-/

namespace DoRunner

/-- The reply to a line that neither carries the return code zero nor was stopped by the pager. -/
structure TranscriptEntry.Smooth (entry : TranscriptEntry) : Prop where
  notZero : ReturnCode.first? entry.raw ≠ some 0
  notPaged : Console.atPager entry.raw = false

/-- A transport of which it can be seen that it has submitted all lines: nothing has failed, no
return code is reported, and no reply hides one. -/
def Transport.Thorough (τ : Type) [Transport τ] : Prop :=
  ∀ (chunk : Chunk) (h : Host τ), let outcome := (Transport.run chunk h).1
    outcome.failure = none → outcome.capture.returnCode = 0 →
      (∀ entry ∈ outcome.capture.transcript, entry.Smooth) →
      outcome.capture.transcript.map (·.sent) = chunk.submissionLines

/-! ## An application -/

namespace Automation

variable {α : Type} [Application α]

/-- Lines are submitted up to the first that fails, and then its return code is reported. -/
theorem sent_submitAll {indirect : Bool} {ls : List Text} {c c' : Call α}
    (submitted : submitAll indirect ls c = .ok () c') (succeeds : c'.capture.returnCode = 0) :
    c'.capture.transcript.map (·.sent) = c.capture.transcript.map (·.sent) ++ ls := by
  induction ls generalizing c with
  | nil =>
    obtain ⟨-, rfl⟩ := EStateM.Result.ok.inj submitted
    exact (List.append_nil _).symm
  | cons line ls ih =>
    rw [submitAll_cons] at submitted
    cases asked : submit indirect line c with
    | error e c₁ =>
      rw [asked] at submitted
      exact absurd submitted (by simp)
    | ok code c₁ =>
      rw [asked] at submitted
      dsimp only at submitted
      cases looks : Call.readLog c₁ with
      | error e c₂ =>
        rw [looks] at submitted
        exact absurd submitted (by simp)
      | ok raw c₂ =>
        rw [looks] at submitted
        dsimp only at submitted
        split at submitted
        · have listed : (c₂.noted line raw).capture.transcript
              = c.capture.transcript ++ [⟨line, raw⟩] := by
            rw [← capture_submit asked looks]
            rfl
          rw [ih submitted, listed, List.map_append, List.append_assoc]
          rfl
        · rename_i failed
          obtain ⟨-, rfl⟩ := EStateM.Result.ok.inj submitted
          exact absurd succeeds failed

/-- **An application is submitted all lines.** -/
theorem thorough : Transport.Thorough (Automation α) := by
  intro chunk h outcome succeeds noCode _
  have ran : outcome = (run chunk h).1 := rfl
  unfold run at ran
  cases hr : runLines chunk.indirect chunk.submissionLines (.ofHost h) with
  | error e c =>
    rw [hr] at ran
    rw [ran] at succeeds
    exact absurd succeeds (by simp)
  | ok u c =>
    rw [hr] at ran
    rw [ran] at noCode ⊢
    rcases runLines_ok hr with ⟨none, rfl, -⟩ |
      ⟨front, sentinel, bytes, c₁, c₂, tail, c₃, all, -, asked, tailed, rfl, -, submitted⟩
    · rw [none]
      rfl
    · have captured : c₃.capture = c₁.capture := capture_tailUntil asked tailed
      have code : c₁.capture.returnCode = 0 := by
        rw [← captured]
        exact noCode
      show (c₃.capture.transcript ++ [(⟨sentinel, tail⟩ : TranscriptEntry)]).map (·.sent) = _
      rw [captured, List.map_append, sent_submitAll submitted code, all]
      rfl

end Automation

/-! ## A console -/

namespace Console

variable {σ : Type} [LineChannel σ]

/-- What is listed stays listed. -/
theorem listed_stays (entry : TranscriptEntry) :
    RunInvariant fun _ (c : Call σ) => entry ∈ c.capture.transcript where
  reads _ := kept_capture fun capture => entry ∈ capture.transcript
  sends line h := by
    rw [capture_send]
    exact h
  breaks h := by
    rw [capture_lift]
    exact h
  prompt _ h _ := h
  page h := h
  dismissed h := h
  listed _ _ h := List.mem_append_left _ h
  coded _ h := h

/-- A line that is exchanged is listed with its reply, which says what its return code is; or the
pager has stopped it, and a return code is reported in any case. -/
theorem exchange_listed {line sentinel : Text} {c c' : Call σ} {code : Option Int}
    (exchanged : exchange line sentinel c = .ok code c') :
    (∃ raw, code = ReturnCode.first? raw ∧
      c'.capture.transcript = c.capture.transcript ++ [⟨line, raw⟩]) ∨
    (code.isSome = true ∧ ∃ entry ∈ c'.capture.transcript, atPager entry.raw = true) := by
  rw [exchange_eq] at exchanged
  unfold turnAt at exchanged
  have captured := capture_send line c
  cases hs : send line c with
  | error e c₁ =>
    rw [hs] at exchanged
    exact absurd exchanged (by simp)
  | ok u c₁ =>
    rw [hs] at exchanged captured
    have same : c₁.capture = c.capture := captured
    have replied := readReply_replied (kept_capture (· = c.capture)) same
    dsimp only at exchanged
    generalize readReply c₁ = reply at exchanged replied
    cases replied with
    | failed kept => exact absurd exchanged (by simp)
    | @prompt c₂ kept ready =>
      obtain ⟨rfl, rfl⟩ := EStateM.Result.ok.inj exchanged
      refine .inl ⟨_, rfl, ?_⟩
      rw [← kept]
      rfl
    | @paged c₂ kept held =>
      have last : (⟨line, c₂.buffer⟩ : TranscriptEntry)
          ∈ (c₂.taken.noted line c₂.buffer).capture.transcript :=
        List.mem_append_right _ List.mem_cons_self
      have stopped : Stopped (c₂.taken.noted line c₂.buffer).capture :=
        ⟨_, List.getLast?_concat, held⟩
      have stays := (listed_stays _).breakOff last stopped sentinel
      dsimp only at exchanged
      cases broken : breakOff sentinel (c₂.taken.noted line c₂.buffer) with
      | error e c₃ =>
        rw [broken] at exchanged
        exact absurd exchanged (by simp)
      | ok code c₃ =>
        rw [broken] at exchanged stays
        obtain ⟨rfl, rfl⟩ := EStateM.Result.ok.inj exchanged
        exact .inr ⟨rfl, _, stays, held⟩

/-- Lines are sent up to the first whose reply carries a return code. Where the replies are smooth,
that code is not zero. -/
theorem sent_exchangeAll {sentinel : Text} {ls : List Text} {c c' : Call σ} {code : Option Int}
    (exchanged : exchangeAll sentinel ls c = .ok code c')
    (smooth : ∀ entry ∈ c'.capture.transcript, entry.Smooth) :
    (code = none ∧
      c'.capture.transcript.map (·.sent) = c.capture.transcript.map (·.sent) ++ ls) ∨
    (code.isSome = true ∧ code ≠ some 0) := by
  induction ls generalizing c with
  | nil =>
    obtain ⟨rfl, rfl⟩ := EStateM.Result.ok.inj exchanged
    exact .inl ⟨rfl, (List.append_nil _).symm⟩
  | cons line ls ih =>
    rw [exchangeAll_cons] at exchanged
    cases first : exchange line sentinel c with
    | error e c₁ =>
      rw [first] at exchanged
      exact absurd exchanged (by simp)
    | ok code₁ c₁ =>
      have listed := exchange_listed first
      rw [first] at exchanged
      cases code₁ with
      | some n =>
        obtain ⟨rfl, rfl⟩ := EStateM.Result.ok.inj exchanged
        refine .inr ⟨rfl, ?_⟩
        rcases listed with ⟨raw, code, all⟩ | ⟨-, entry, m, held⟩
        · have m : (⟨line, raw⟩ : TranscriptEntry) ∈ c₁.capture.transcript := by
            rw [all]
            exact List.mem_append_right _ List.mem_cons_self
          rw [code]
          exact (smooth _ m).notZero
        · exact absurd (held.symm.trans (smooth entry m).notPaged) (by decide)
      | none =>
        rcases listed with ⟨raw, -, all⟩ | ⟨coded, -⟩
        · rcases ih exchanged with ⟨none, sent⟩ | failed
          · refine .inl ⟨none, ?_⟩
            rw [sent, all, List.map_append, List.append_assoc]
            rfl
          · exact .inr failed
        · exact absurd coded (by simp)

/-- What is reported of a whole run is the code of the line that ends it. The sentinel is sent only
when there is none, and then all lines are. -/
theorem sent_runLines {ls : List Text} {c c' : Call σ} (ran : runLines ls c = .ok () c')
    (succeeds : c'.capture.returnCode = 0)
    (smooth : ∀ entry ∈ c'.capture.transcript, entry.Smooth) :
    c'.capture.transcript.map (·.sent) = c.capture.transcript.map (·.sent) ++ ls := by
  unfold runLines at ran
  rcases List.eq_nil_or_concat ls with rfl | ⟨front, sentinel, rfl⟩
  · obtain ⟨-, rfl⟩ := EStateM.Result.ok.inj ran
    exact (List.append_nil _).symm
  rw [List.concat_eq_append, List.getLast?_concat, List.dropLast_concat] at ran
  rw [List.concat_eq_append]
  simp only [bind, EStateM.bind] at ran
  cases exchanged : exchangeAll sentinel front c with
  | error e c₁ =>
    rw [exchanged] at ran
    exact absurd ran (by simp)
  | ok code c₁ =>
    rw [exchanged] at ran
    cases code with
    | some code =>
      obtain ⟨-, rfl⟩ := EStateM.Result.ok.inj ran
      rcases sent_exchangeAll exchanged smooth with ⟨none, -⟩ | ⟨-, notZero⟩
      · exact absurd none (by simp)
      · exact absurd (congrArg some succeeds) notZero
    | none =>
      dsimp only [EStateM.bind] at ran
      cases last : exchange sentinel sentinel c₁ with
      | error e c₂ =>
        rw [last] at ran
        exact absurd ran (by simp)
      | ok code c₂ =>
        rw [last] at ran
        obtain ⟨-, rfl⟩ := EStateM.Result.ok.inj ran
        rcases exchange_listed last with ⟨raw, -, listed⟩ | ⟨-, entry, m, held⟩
        · have before : ∀ entry ∈ c₁.capture.transcript, entry.Smooth := by
            intro entry m
            refine smooth entry ?_
            rw [listed]
            exact List.mem_append_left _ m
          rcases sent_exchangeAll exchanged before with ⟨-, sent⟩ | ⟨coded, -⟩
          · rw [listed, List.map_append, sent, List.append_assoc]
            rfl
          · exact absurd coded (by simp)
        · exact absurd (held.symm.trans (smooth entry m).notPaged) (by decide)

/-- **A console is sent all lines,** if its replies are smooth. -/
theorem thorough : Transport.Thorough (Console σ) := by
  intro chunk h outcome succeeds noCode smooth
  have ran : outcome = (run chunk h).1 := rfl
  unfold run at ran
  cases hr : runLines chunk.submissionLines (.ofHost h) with
  | error e c =>
    rw [hr] at ran
    rw [ran] at succeeds
    exact absurd succeeds (by simp)
  | ok u c =>
    rw [hr] at ran
    rw [ran] at noCode smooth ⊢
    exact sent_runLines hr noCode smooth

end Console

end DoRunner
