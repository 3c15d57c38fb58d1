import DoRunner.Proofs.Transport.Turns

/-!
# What a run keeps

A call does four things with its channel and its capture: it reads, it asks for something, it takes
the reply in the buffer for the capture, and it lists the line. While a line is broken off, pages of
its output that are not captured yet are pending. A property of the pending pages and the call that
all of these keep holds at the end of every run (`RunInvariant.run`), however it ends.
-/

namespace DoRunner.Console

variable {σ : Type}

/-- The pager has stopped the last line. -/
def Stopped (capture : RawCapture) : Prop :=
  ∃ entry, capture.transcript.getLast? = some entry ∧ atPager entry.raw = true

variable [LineChannel σ]

/-! ## A whole run -/

/-- A property of the pending pages and the call that everything in a run keeps. -/
structure RunInvariant (J : Text → Call σ → Prop) : Prop where
  reads : ∀ pending, KeptByReads (J pending)
  sends : ∀ {pending : Text} {c : Call σ} (line : Text), J pending c →
    J pending (stateOf (send line c))
  breaks : ∀ {pending : Text} {c : Call σ}, J pending c →
    J pending (stateOf (Call.lift LineChannel.sendBreak c))
  /-- At a prompt, what is pending is captured with what is in the buffer. -/
  prompt : ∀ {pending : Text} {c : Call σ} (echoed : Bool), J pending c →
    atPrompt c.buffer = true → J [] (c.taken.extended (pending ++ withoutPrompt c.buffer) echoed)
  /-- At the pager, what is in the buffer is captured. -/
  page : ∀ {c : Call σ}, J [] c → J [] (c.taken.extended c.buffer true)
  /-- A page that is dismissed becomes pending. -/
  dismissed : ∀ {pending : Text} {c : Call σ}, J pending c → J (pending ++ c.buffer) c.taken
  /-- A reply is listed when it has been captured. -/
  listed : ∀ {c : Call σ} (line raw : Text), J [] (c.extended raw true) →
    J [] (c.noted line raw)
  /-- A return code is noted at the end. -/
  coded : ∀ {c : Call σ} (code : Int), J [] c → J [] (c.withCode code)

/-- A step keeps a property of the pending pages and the call. Where it does not fail, nothing is
pending behind it; and pages are pending only where a line is broken off. -/
def Settled (J : Text → Call σ → Prop) {α : Type}
    (result : EStateM.Result TransportError (Call σ) α) : Prop :=
  match result with
  | .ok _ c => J [] c
  | .error _ c => ∃ pending, J pending c ∧ (pending ≠ [] → Stopped c.capture)

namespace RunInvariant

variable {J : Text → Call σ → Prop} (inv : RunInvariant J) {c : Call σ}

include inv

theorem turnAt (h : J [] c) (line : Text) : J [] (turnAt line c).2 ∧
    ∀ shown, (Console.turnAt line c).1 = .paged shown →
      Stopped (Console.turnAt line c).2.capture := by
  have sent := inv.sends line h
  unfold Console.turnAt
  cases hs : send line c with
  | error e c₁ =>
    rw [hs] at sent
    refine ⟨sent, ?_⟩
    rintro shown ⟨⟩
  | ok u c₁ =>
    rw [hs, stateOf] at sent
    -- nothing is captured before the reply has come to its end
    have replied := readReply_replied (inv.reads []) sent
    dsimp only
    generalize readReply c₁ = reply at replied
    cases replied with
    | failed kept =>
      refine ⟨kept, ?_⟩
      rintro shown ⟨⟩
    | prompt kept ready =>
      refine ⟨inv.listed line _ (inv.prompt true kept ready), ?_⟩
      rintro shown ⟨⟩
    | paged kept held =>
      refine ⟨inv.listed line _ (inv.page kept), ?_⟩
      intro shown _
      exact ⟨_, List.getLast?_concat, held⟩

/-- Up to the prompt, what the pager has shown is pending. -/
theorem readUntilPrompt (h : J [] c) :
    Shown (fun shown c' => J shown c' ∧ c'.capture = c.capture) (readUntilPrompt [] c) := by
  apply readUntilPrompt_shown
  · exact fun shown => (inv.reads shown).and (kept_capture (· = c.capture))
  · rintro shown c₁ ⟨kept, same⟩ -
    exact ⟨inv.sends ['q'] (inv.dismissed kept), (capture_send ['q'] c₁.taken).trans same⟩
  · exact ⟨h, rfl⟩

theorem breakOff (h : J [] c) (stopped : Stopped c.capture) (sentinel : Text) :
    Settled J (breakOff sentinel c) := by
  -- the break
  have broken := inv.breaks h
  have same₁ := capture_lift LineChannel.sendBreak c
  refine bind_cases (fun _ c₁ hb => ?_) (fun e c₁ hb => ?_) <;> rw [hb, stateOf] at broken same₁
  case refine_2 => exact ⟨[], broken, absurd rfl⟩
  -- what it leaves of the output
  have read := inv.readUntilPrompt broken
  refine bind_cases (fun raw c₂ hr => ?_) (fun e c₂ hr => ?_) <;> rw [hr] at read
  case refine_2 =>
    -- the pages that were dismissed on the way are pending, and nobody takes them any more
    cases read with
    | @failed shown _ _ kept =>
      rw [← same₁, ← kept.2] at stopped
      exact ⟨shown, kept.1, fun _ => stopped⟩
  rw [capture_bind]
  cases read with
  | @prompt shown c₂ kept ready =>
    -- the sentinel
    have sent := inv.sends sentinel (inv.prompt false kept.1 ready)
    have same₃ := capture_send sentinel (c₂.taken.extended (shown ++ withoutPrompt c₂.buffer) false)
    refine bind_cases (fun _ c₃ hs => ?_) (fun e c₃ hs => ?_) <;>
      rw [hs, stateOf] at sent same₃
    case refine_2 => exact ⟨[], sent, absurd rfl⟩
    -- its reply
    have tail := inv.readUntilPrompt sent
    refine bind_cases (fun raw c₄ ht => ?_) (fun e c₄ ht => ?_) <;> rw [ht] at tail
    case refine_2 =>
      cases tail with
      | @failed shown _ _ still =>
        refine ⟨shown, still.1, fun _ => ?_⟩
        rw [still.2, same₃]
        rw [← same₁, ← kept.2] at stopped
        exact stopped
    cases tail with
    | prompt kept ready => exact inv.listed sentinel _ (inv.prompt true kept.1 ready)

theorem exchangeAll (h : J [] c) (sentinel : Text) (lines : List Text) :
    Settled J (exchangeAll sentinel lines c) := by
  -- only a turn that ends at a prompt without a return code is followed by another
  induction lines generalizing c with
  | nil => exact h
  | cons line lines ih =>
    obtain ⟨after, stopped⟩ := inv.turnAt h line
    rw [exchangeAll_cons, exchange_eq]
    cases turn : Console.turnAt line c with
    | mk fate c₁ =>
      rw [turn] at after stopped
      cases fate with
      | lost e => exact ⟨[], after, absurd rfl⟩
      | prompted raw =>
        dsimp only
        cases ReturnCode.first? raw with
        | none => exact ih after
        | some code => exact after
      | paged shown =>
        have broken := inv.breakOff after (stopped shown rfl) sentinel
        dsimp only
        cases hb : Console.breakOff sentinel c₁ with
        | error e c₂ =>
          rw [hb] at broken
          exact broken
        | ok code c₂ =>
          rw [hb] at broken
          exact broken

/-- **What everything in a run keeps holds at its end.** Pages are then pending only where the run
failed while it broke off. -/
theorem run (chunk : Chunk) {h : Host (Console σ)} (begins : J [] (Call.ofHost h)) :
    ∃ pending c, J pending c ∧ (run chunk h).1.capture = c.capture ∧ (run chunk h).2 = c.toHost ∧
      (pending ≠ [] → (run chunk h).1.failure ≠ none ∧ Stopped (run chunk h).1.capture) := by
  unfold Console.run
  rcases List.eq_nil_or_concat chunk.submissionLines with none | ⟨statements, sentinel, lines⟩
  · rw [none]
    exact ⟨[], _, begins, rfl, rfl, absurd rfl⟩
  · rw [List.concat_eq_append] at lines
    -- the sentinel is one more line, and the return code does not matter
    have settled := inv.exchangeAll begins sentinel (statements ++ [sentinel])
    have ran := runLines_concat statements sentinel (Call.ofHost h)
    rw [lines]
    cases exchanged : Console.exchangeAll sentinel (statements ++ [sentinel]) (Call.ofHost h) with
    | error e c =>
      rw [exchanged] at settled ran
      obtain ⟨pending, kept, stopped⟩ := settled
      rw [ran]
      exact ⟨pending, c, kept, rfl, rfl, fun some => ⟨nofun, stopped some⟩⟩
    | ok code c =>
      rw [exchanged] at settled ran
      obtain ⟨noted, ran⟩ := ran
      rw [ran]
      exact ⟨[], c.withCode noted, inv.coded noted settled, rfl, rfl, absurd rfl⟩

end RunInvariant

/-! ## What is listed -/

/-- Every reply that is listed is captured. -/
def ListedFromText (capture : RawCapture) : Prop :=
  ∀ entry ∈ capture.transcript, entry.raw <:+: capture.text

/-- **Listing goes with capturing.** -/
theorem listed_invariant : RunInvariant fun _ (c : Call σ) => ListedFromText c.capture := by
  have extended : ∀ {c : Call σ} (raw : Text) (echoed : Bool), ListedFromText c.capture →
      ListedFromText (c.extended raw echoed).capture := by
    intro c raw echoed listed entry m
    exact (listed entry m).trans (List.prefix_append c.capture.text _).isInfix
  refine ⟨fun _ => kept_capture ListedFromText, ?_, ?_, ?_, ?_, ?_, ?_, ?_⟩
  · intro _ c line listed
    rwa [capture_send]
  · intro _ c listed
    rwa [capture_lift]
  · exact fun echoed listed _ => extended _ echoed listed
  · exact fun listed => extended _ true listed
  · exact fun listed => listed
  · intro c line raw listed entry m
    rcases List.mem_append.mp m with m | m
    · exact listed entry m
    · rw [List.mem_singleton.mp m]
      have shown : raw <:+: replyText raw true := ⟨". ".toList, _, rfl⟩
      exact shown.trans (List.suffix_append c.capture.text _).isInfix
  · exact fun _ listed => listed

end DoRunner.Console
