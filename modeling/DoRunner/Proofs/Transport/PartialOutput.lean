import DoRunner.Proofs.Transport.Accounts
import DoRunner.Proofs.Transport.LogAccounts
import DoRunner.Proofs.Transport.Spool

/-!
# What a failed call keeps

What was captured before a failure is kept. But a reply is captured only when it has come to its
end, and what the log gains while the echo of the sentinel is waited for only when the echo comes.
Of the reply that is being read when a call fails nothing is captured, although the channel or the
log has delivered it.
-/

namespace DoRunner

/-! ## A channel that is overheard -/

/-- A channel and what it has delivered. -/
structure Overheard (σ : Type) where
  peer : σ
  heard : Text
deriving Repr

namespace Overheard

variable {σ : Type}

/-- What the channel does, unheard. -/
def silently {β : Type} (action : Action σ β) : Action (Overheard σ) β :=
  action.within (·.peer) fun overheard peer => { overheard with peer }

/-- The host of a channel that has delivered more. -/
def hears (h : Host (Overheard σ)) (piece : Text) : Host (Overheard σ) :=
  { h with guest := { h.guest with heard := h.guest.heard ++ piece } }

/-- What the channel delivers, overheard. -/
def listening (action : Action σ (Timed (Option Text))) :
    Action (Overheard σ) (Timed (Option Text)) := fun h =>
  match silently action h with
  | .ok reading h' => .ok reading (hears h' (reading.value.getD []))
  | .error e h' => .error e h'

theorem listening_ok {action : Action σ (Timed (Option Text))} {h h' : Host (Overheard σ)}
    {reading : Timed (Option Text)} (listened : listening action h = .ok reading h') :
    ∃ inner, action ⟨h.guest.peer, h.disk⟩ = .ok reading inner ∧
      h' = ⟨⟨inner.guest, h.guest.heard ++ reading.value.getD []⟩, inner.disk⟩ := by
  unfold listening silently Action.within at listened
  cases silent : action ⟨h.guest.peer, h.disk⟩ with
  | error e inner =>
    rw [silent] at listened
    exact absurd listened (by simp)
  | ok reading' inner =>
    rw [silent] at listened
    obtain ⟨rfl, rfl⟩ := EStateM.Result.ok.inj listened
    exact ⟨inner, rfl, rfl⟩

theorem listening_error {action : Action σ (Timed (Option Text))} {h h' : Host (Overheard σ)}
    {e : TransportError} (listened : listening action h = .error e h') :
    h'.guest.heard = h.guest.heard := by
  unfold listening silently Action.within at listened
  cases silent : action ⟨h.guest.peer, h.disk⟩ with
  | ok reading inner =>
    rw [silent] at listened
    exact absurd listened (by simp)
  | error e' inner =>
    rw [silent] at listened
    obtain ⟨-, rfl⟩ := EStateM.Result.error.inj listened
    rfl

theorem heard_silently (action : Action σ Unit) (h : Host (Overheard σ)) :
    (stateOf (silently action h)).guest.heard = h.guest.heard := by
  unfold silently Action.within
  cases action ⟨h.guest.peer, h.disk⟩ <;> rfl

instance [LineChannel σ] : LineChannel (Overheard σ) where
  sendLine line := silently (LineChannel.sendLine line)
  sendBreak := silently LineChannel.sendBreak
  read wait := listening (LineChannel.read wait)
  close := silently LineChannel.close
  backlog overheard := LineChannel.backlog overheard.peer
  backlog_lt := by
    intro h h' piece took delivered
    obtain ⟨inner, read, rfl⟩ := listening_ok delivered
    exact LineChannel.backlog_lt read

/-- Since a channel had delivered some text, it has delivered this. -/
def Since (before text : Text) (h : Host (Overheard σ)) : Prop := h.guest.heard = before ++ text

/-- **What is overheard** is what the reads have delivered. -/
theorem hearing [LineChannel σ] (before : Text) : Console.Hearing (@Since σ before) where
  reads := by
    intro t wait took piece h h' heard read
    obtain ⟨inner, -, rfl⟩ := listening_ok read
    show h.guest.heard ++ _ = before ++ (t ++ _)
    rw [heard, List.append_assoc]
  fails heard read := (listening_error read).trans heard
  sends line heard := (heard_silently (LineChannel.sendLine line) _).trans heard
  breaks heard := (heard_silently LineChannel.sendBreak _).trans heard

end Overheard

variable {σ α : Type} [LineChannel σ] [Application α]

/-! ## What a run has heard -/

/-- **What a run has heard is accounted for.** What its channel delivers, or its log gains, is
captured a reply at a time; what belongs to a reply that has not come to its end is left in the
buffer, or dropped, and does not appear in what is captured. -/
theorem run_accounted (chunk : Chunk) (h : Host (Console (Overheard σ))) (h' : Host (Automation α)) :
    (let outcome := Console.run chunk h
      ∃ delivered taken pending,
        outcome.2.guest.channel.heard = h.guest.channel.heard ++ delivered ∧
        Terminal.Rewritten (h.guest.buffer ++ delivered)
          (taken ++ (pending ++ outcome.2.guest.buffer)) ∧
        Console.Captured taken outcome.1.capture.text ∧
        (pending ≠ [] → outcome.1.failure ≠ none ∧ Console.Stopped outcome.1.capture) ∧
        ∀ x ∈ pending ++ outcome.2.guest.buffer, x ∉ Console.marking →
          outcome.1.capture.text.count x < (h.guest.buffer ++ delivered).count x) ∧
    (let outcome := Automation.run chunk h'
      let bytes := Automation.runBytes chunk.indirect chunk.submissionLines (.ofHost h')
      ∃ lost,
        outcome.2.guest.logOffset = h'.guest.logOffset + bytes.length ∧
        h'.guest.decoder.decode bytes = (outcome.1.capture.text ++ lost, outcome.2.guest.decoder) ∧
        (outcome.1.failure = none → lost = [])) := by
  constructor
  · have begins : Overheard.Since h.guest.channel.heard [] ⟨h.guest.channel, h.disk⟩ :=
      (List.append_nil _).symm
    obtain ⟨delivered, taken, pending, heard, rewritten, replies, -, stopped⟩ :=
      Console.run_accounts (Overheard.hearing _) chunk begins
    dsimp only
    refine ⟨delivered, taken, pending, heard, rewritten, replies, stopped, ?_⟩
    -- a character that is lost is missing: captured are no more of it than were taken
    intro x lost ink
    have noReturn : x ≠ '\r' := by
      rintro rfl
      exact ink (by decide)
    have all := rewritten.count noReturn
    have parts : (taken ++ (pending ++ (Console.run chunk h).2.guest.buffer)).count x
        = taken.count x + (pending ++ (Console.run chunk h).2.guest.buffer).count x :=
      List.count_append
    have kept := replies.count ink
    have some := List.count_pos_iff.mpr lost
    omega
  · obtain ⟨text, lost, read, grown, ended⟩ :=
      Automation.runLines_accounted chunk.indirect chunk.submissionLines (.ofHost h')
    dsimp only
    unfold Automation.run
    cases ran : Automation.runLines chunk.indirect chunk.submissionLines (.ofHost h') with
    | error e c =>
      rw [ran, stateOf] at read grown
      obtain rfl : c.capture.text = text := grown
      refine ⟨lost, read.counted, read.decoded, ?_⟩
      rintro ⟨⟩
    | ok u c =>
      rw [ran, stateOf] at read grown
      obtain rfl : c.capture.text = text := grown
      exact ⟨lost, read.counted, read.decoded, fun _ => ended ⟨c, ran⟩⟩

/-- The call times out in the middle of a reply: what was delivered of it is not captured. -/
theorem run_accounted_midReply :
    let spool : Spool := ⟨["di 1\npart".toList], [9], .empty⟩
    let chunk : Chunk := ⟨["di 1".toList], false, "0".toList, "di 1\n\x600'".toList, [], 0⟩
    let h : Host (Console (Overheard Spool)) := ⟨⟨⟨spool, []⟩, 1, []⟩, .empty⟩
    let outcome := Console.run chunk h
    outcome.1.failure = some (.timeout "ready prompt") ∧
      outcome.2.guest.channel.heard = "di 1\npart".toList ∧ outcome.1.capture.text = [] := by
  intro spool chunk h outcome
  have lines : chunk.submissionLines = ["di 1".toList] ++ [sentinelOf "0".toList] := by decide
  have lost : Console.turnAt "di 1".toList (Console.Call.ofHost h)
      = (.lost (.timeout "ready prompt"), _) :=
    @Console.turnAt_of_part _ _ (Console.Call.ofHost h) _ "di 1\npart".toList 0
      ⟨⟨spool.printing, []⟩, .empty⟩
      ⟨⟨⟨[], [], spool.printing.ledger.delivering 9⟩, "di 1\npart".toList⟩, .empty⟩
      rfl (by decide) rfl rfl (by decide) (by decide) (by decide)
  have ran : outcome = _ := @Console.run_of_lost _ _ _ _ _ chunk [] lines h _ lost
  rw [ran]
  exact ⟨rfl, rfl, rfl⟩

end DoRunner
