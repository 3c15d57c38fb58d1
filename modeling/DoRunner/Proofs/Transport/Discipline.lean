import DoRunner.Proofs.Transport.ConsoleReplies
import DoRunner.Proofs.Transport.Reading
import DoRunner.Proofs.Transport.Turns

/-!
# What a console is sent

Whatever a channel does, a call sends the lines of its chunk in order and each of them once, and it
goes on to the next line only behind a prompt without a return code. One thing may follow the last
line sent: where the pager has stopped its output, the program is broken off, and the sentinel is
sent once more to close the capture. The pager that is met on that way is dismissed as often as it
is met.
-/

namespace DoRunner.Console

/-- What is sent behind the last turn. The numbers say how often the pager is dismissed. -/
inductive Closing where
  | nothing
  | broken (dismissals : Nat)
  | finished (dismissals more : Nat)
deriving DecidableEq, Repr

namespace Closing

def dismiss (n : Nat) : List PeerCall := List.replicate n (.sendLine ['q'])

/-- What the channel is asked, in order. -/
def calls (sentinel : Text) : Closing → List PeerCall
  | nothing => []
  | broken n => .sendBreak :: dismiss n
  | finished n m => .sendBreak :: dismiss n ++ .sendLine sentinel :: dismiss m

/-- The lines sent, the dismissals of the pager left out. -/
def lines (sentinel : Text) : Closing → List Text
  | finished _ _ => [sentinel]
  | _ => []

theorem reverse_dismiss (n : Nat) : (dismiss n).reverse = dismiss n := List.reverse_replicate

end Closing

variable {σ : Type} [LineChannel σ]

/-! ## What the channel was asked -/

/-- What the channel was asked, the latest first. -/
def Call.calls (c : Call (Recorded σ)) : List PeerCall := c.host.guest.calls

/-- The lines in the transcript. -/
def Call.listed (c : Call (Recorded σ)) : List Text := c.capture.transcript.map (·.sent)

theorem calls_read (wait : Nat) (c : Call (Recorded σ)) :
    (stateOf (Call.read wait c)).calls = c.calls := by
  unfold Call.read
  simp only [LineChannel.read, Recorded.silently, Action.within]
  cases LineChannel.read wait (⟨c.host.guest.peer, c.host.disk⟩ : Host σ) <;> rfl

theorem kept_calls (P : List PeerCall → Prop) :
    KeptByReads fun c : Call (Recorded σ) => P c.calls :=
  .of_same calls_read (fun _ _ => rfl) P

theorem calls_send (line : Text) (c : Call (Recorded σ)) :
    (stateOf (send line c)).calls = .sendLine line :: c.calls := by
  unfold send Call.lift
  simp only [LineChannel.sendLine, Recorded.noting, Recorded.note, Recorded.silently, Action.within,
    bind, EStateM.bind]
  cases LineChannel.sendLine line (⟨c.host.guest.peer, c.host.disk⟩ : Host σ) <;> rfl

theorem calls_sendBreak (c : Call (Recorded σ)) :
    (stateOf (Call.lift LineChannel.sendBreak c)).calls = .sendBreak :: c.calls := by
  unfold Call.lift
  simp only [LineChannel.sendBreak, Recorded.noting, Recorded.note, Recorded.silently,
    Action.within, bind, EStateM.bind]
  cases LineChannel.sendBreak (⟨c.host.guest.peer, c.host.disk⟩ : Host σ) <;> rfl

/-- Up to the prompt the pager is dismissed, and nothing else asked. -/
theorem calls_readUntilPrompt (shown : Text) (c : Call (Recorded σ)) :
    (stateOf (readUntilPrompt shown c)).capture = c.capture ∧
      ∃ n, (stateOf (readUntilPrompt shown c)).calls = Closing.dismiss n ++ c.calls := by
  have outcome : Shown (fun _ c' => (∃ n, c'.calls = Closing.dismiss n ++ c.calls) ∧
      c'.capture = c.capture) (readUntilPrompt shown c) := by
    apply readUntilPrompt_shown
    · intro _
      exact (kept_calls fun calls => ∃ n, calls = Closing.dismiss n ++ c.calls).and
        (kept_capture (· = c.capture))
    · -- one more dismissal
      rintro _ c₁ ⟨⟨n, asked⟩, captured⟩ -
      refine ⟨⟨n + 1, ?_⟩, (capture_send ['q'] c₁.taken).trans captured⟩
      rw [calls_send, Closing.dismiss, List.replicate_succ, List.cons_append]
      exact congrArg (List.cons _) asked
    · exact ⟨⟨0, rfl⟩, rfl⟩
  generalize readUntilPrompt shown c = result at outcome ⊢
  cases outcome with
  | prompt kept ready => exact ⟨kept.2, kept.1⟩
  | failed kept => exact ⟨kept.2, kept.1⟩

omit [LineChannel σ] in
theorem listed_noted {c c' : Call (Recorded σ)} (same : c'.capture = c.capture)
    (line raw : Text) : (c'.taken.noted line raw).listed = c.listed ++ [line] := by
  show (c'.capture.transcript ++ [(⟨line, raw⟩ : TranscriptEntry)]).map (·.sent) = _
  rw [same, List.map_append]
  rfl

/-- **A turn asks for its line to be sent,** and nothing else. Where its reply has come to an end,
the line is listed. -/
theorem turnAt_asks (line : Text) (c : Call (Recorded σ)) :
    (turnAt line c).2.calls = .sendLine line :: c.calls ∧
      ((∀ e, (turnAt line c).1 ≠ .lost e) → (turnAt line c).2.listed = c.listed ++ [line]) := by
  have asked := calls_send line c
  have captured := capture_send line c
  unfold turnAt
  cases hs : send line c with
  | error e c₁ =>
    rw [hs] at asked
    exact ⟨asked, fun came => absurd rfl (came e)⟩
  | ok u c₁ =>
    rw [hs] at asked captured
    have replied := readReply_replied
      ((kept_calls (· = c₁.calls)).and (kept_capture (· = c₁.capture))) ⟨rfl, rfl⟩
    dsimp only
    generalize readReply c₁ = reply at replied
    cases replied with
    | failed kept => exact ⟨kept.1.trans asked, fun came => absurd rfl (came _)⟩
    | prompt kept ready =>
      exact ⟨kept.1.trans asked, fun _ => listed_noted (kept.2.trans captured) line _⟩
    | paged kept held =>
      exact ⟨kept.1.trans asked, fun _ => listed_noted (kept.2.trans captured) line _⟩

/-- What breaking off has asked for by its end, or up to where it failed. -/
def BrokenOff (sentinel : Text) (c : Call (Recorded σ)) {α : Type}
    (result : EStateM.Result TransportError (Call (Recorded σ)) α) : Prop :=
  ∃ closing : Closing, closing ≠ .nothing ∧
    (stateOf result).calls = (closing.calls sentinel).reverse ++ c.calls ∧
    ∀ a c', result = .ok a c' → c'.listed = c.listed ++ closing.lines sentinel

/-- **Breaking off** asks for a break and, where it comes that far, for the sentinel, which is then
listed. -/
theorem breakOff_asks (sentinel : Text) (c : Call (Recorded σ)) :
    BrokenOff sentinel c (breakOff sentinel c) := by
  have broken : ∀ n e c', c'.calls = Closing.dismiss n ++ .sendBreak :: c.calls →
      BrokenOff sentinel c (.error e c' : EStateM.Result TransportError (Call (Recorded σ)) Int) := by
    intro n e c' asked
    refine ⟨.broken n, by simp, ?_, nofun⟩
    rw [Closing.calls, List.reverse_cons, Closing.reverse_dismiss, List.append_assoc]
    exact asked
  have finished : ∀ n m, ((Closing.finished n m).calls sentinel).reverse ++ c.calls
      = Closing.dismiss m ++ .sendLine sentinel :: (Closing.dismiss n ++ .sendBreak :: c.calls) := by
    intro n m
    simp [Closing.calls, Closing.reverse_dismiss]
  -- the break; what was asked before it stays at the end of the record, the latest being first
  have asked₁ := calls_sendBreak c
  have same₁ := capture_lift LineChannel.sendBreak c
  refine bind_cases (fun _ c₁ hb => ?_) (fun e c₁ hb => ?_) <;> rw [hb] at asked₁ same₁
  case refine_2 => exact broken 0 e c₁ asked₁
  -- what it leaves of the output
  obtain ⟨same₂, n, asked₂⟩ := calls_readUntilPrompt [] c₁
  refine bind_cases (fun raw c₂ hr => ?_) (fun e c₂ hr => ?_) <;> rw [hr] at asked₂ same₂
  case refine_2 => exact broken n e c₂ (asked₂.trans (congrArg _ asked₁))
  rw [capture_bind]
  -- the sentinel
  have asked₃ := calls_send sentinel (c₂.extended raw false)
  have same₃ := capture_send sentinel (c₂.extended raw false)
  have sent : (.sendLine sentinel :: c₂.calls : List PeerCall)
      = .sendLine sentinel :: (Closing.dismiss n ++ .sendBreak :: c.calls) :=
    congrArg _ (asked₂.trans (congrArg _ asked₁))
  refine bind_cases (fun _ c₃ hs => ?_) (fun e c₃ hs => ?_) <;> rw [hs] at asked₃ same₃
  case refine_2 =>
    exact ⟨.finished n 0, by simp, by rw [finished]; exact asked₃.trans sent, nofun⟩
  -- its reply
  obtain ⟨same₄, m, asked₄⟩ := calls_readUntilPrompt [] c₃
  have asked := asked₄.trans (congrArg _ (asked₃.trans sent))
  refine bind_cases (fun tail c₄ ht => ?_) (fun e c₄ ht => ?_) <;> rw [ht] at asked same₄
  case refine_2 => exact ⟨.finished n m, by simp, by rw [finished]; exact asked, nofun⟩
  rw [capture_bind]
  refine ⟨.finished n m, by simp, by rw [finished]; exact asked, ?_⟩
  intro code c' ended
  obtain ⟨-, rfl⟩ := EStateM.Result.ok.inj ended
  -- of the two replies only that to the sentinel is listed
  have unlisted₄ : c₄.capture.transcript = c₂.capture.transcript := by
    rw [show c₄.capture = _ from same₄, show c₃.capture = _ from same₃]
    rfl
  have unlisted₂ : c₂.capture.transcript = c.capture.transcript :=
    congrArg RawCapture.transcript (same₂.trans same₁)
  show (c₄.capture.transcript ++ [(⟨sentinel, tail⟩ : TranscriptEntry)]).map (·.sent) = _
  rw [unlisted₄, unlisted₂, List.map_append]
  rfl

/-! ## All lines -/

/-- What a call asks of its channel while it sends lines, and what it lists, whatever comes of it. -/
structure Disciplined (sentinel : Text) (lines : List Text) (c : Call (Recorded σ)) {α : Type}
    (result : EStateM.Result TransportError (Call (Recorded σ)) α) (turns : List Turn)
    (closing : Closing) : Prop where
  /-- The turns are those that were taken. -/
  happened : ∃ c', Happens turns c c'
  /-- The channel was asked to take their lines, then what closes the call, and nothing else. -/
  asked : (stateOf result).calls.reverse = c.calls.reverse ++
    turns.map (fun turn => .sendLine turn.line) ++ closing.calls sentinel
  /-- These are the first lines, in order. -/
  inOrder : turns.map (·.line) <+: lines
  /-- Behind each of them but the last, the prompt came back without a return code. -/
  succeeded : ∀ turn ∈ turns.dropLast, turn.Succeeded
  /-- Nothing follows the last unless the pager has stopped it. -/
  paged : closing ≠ .nothing → ∃ turn, turns.getLast? = some turn ∧ turn.Paged
  /-- Where nothing fails, the lines listed are the lines sent. -/
  listed : ∀ a c', result = .ok a c' →
    c'.listed = c.listed ++ turns.map (·.line) ++ closing.lines sentinel

/-- A turn that ends the call. -/
theorem Disciplined.last {sentinel line : Text} {lines : List Text} {c c₁ : Call (Recorded σ)}
    {fate : Fate} {α : Type} {result : EStateM.Result TransportError (Call (Recorded σ)) α}
    {closing : Closing} (first : turnAt line c = (fate, c₁))
    (asked : (stateOf result).calls = (closing.calls sentinel).reverse ++ c₁.calls)
    (paged : closing ≠ .nothing → ∃ shown, fate = .paged shown)
    (listed : ∀ a c', result = .ok a c' →
      c'.listed = c₁.listed ++ closing.lines sentinel ∧ ∀ e, fate ≠ .lost e) :
    Disciplined sentinel (line :: lines) c result [⟨line, fate⟩] closing where
  happened := ⟨c₁, .cons first .nil⟩
  asked := by
    have turn := (turnAt_asks line c).1
    rw [first] at turn
    rw [asked, turn]
    simp
  inOrder := by simp
  succeeded := by simp
  paged := fun h => ⟨_, rfl, paged h⟩
  listed := by
    intro a c' ended
    obtain ⟨closed, came⟩ := listed a c' ended
    have turn := (turnAt_asks line c).2
    rw [first] at turn
    rw [closed, turn came]
    rfl

/-- A turn behind which the call goes on. -/
theorem Disciplined.next {sentinel line raw : Text} {lines : List Text} {c c₁ : Call (Recorded σ)}
    {α : Type} {result : EStateM.Result TransportError (Call (Recorded σ)) α}
    {turns : List Turn} {closing : Closing} (first : turnAt line c = (.prompted raw, c₁))
    (succeeds : ReturnCode.first? raw = none)
    (rest : Disciplined sentinel lines c₁ result turns closing) :
    Disciplined sentinel (line :: lines) c result (⟨line, .prompted raw⟩ :: turns) closing where
  happened := by
    obtain ⟨c', happened⟩ := rest.happened
    exact ⟨c', .cons first happened⟩
  asked := by
    have turn := (turnAt_asks line c).1
    rw [first] at turn
    rw [rest.asked, turn]
    simp
  inOrder := (List.prefix_cons_inj line).mpr rest.inOrder
  succeeded := by
    intro turn m
    cases turns with
    | nil => exact absurd m List.not_mem_nil
    | cons second turns =>
      rcases List.mem_cons.mp m with rfl | m
      · exact ⟨raw, rfl, succeeds⟩
      · exact rest.succeeded turn m
  paged := by
    intro h
    obtain ⟨turn, last, paged⟩ := rest.paged h
    refine ⟨turn, ?_, paged⟩
    rw [List.getLast?_cons, last]
    rfl
  listed := by
    intro a c' ended
    have turn := (turnAt_asks line c).2
    rw [first] at turn
    rw [rest.listed a c' ended, turn nofun]
    simp

/-- **Sending lines is disciplined,** whatever the channel does. -/
theorem exchangeAll_disciplined (sentinel : Text) (lines : List Text) (c : Call (Recorded σ)) :
    ∃ turns closing, Disciplined sentinel lines c (exchangeAll sentinel lines c) turns closing := by
  induction lines generalizing c with
  | nil =>
    refine ⟨[], .nothing, ⟨c, .nil⟩, ?_, List.nil_prefix, nofun, nofun, ?_⟩
    · show c.calls.reverse = c.calls.reverse ++ [] ++ []
      simp
    · intro a c' ended
      obtain ⟨-, rfl⟩ := EStateM.Result.ok.inj ended
      simp [Closing.lines]
  | cons line lines ih =>
    rw [exchangeAll_cons, exchange_eq]
    cases first : turnAt line c with
    | mk fate c₁ =>
      cases fate with
      | lost e =>
        exact ⟨_, .nothing, .last first (by rfl) (absurd rfl) nofun⟩
      | prompted raw =>
        dsimp only
        cases code : ReturnCode.first? raw with
        | none =>
          -- only here does the call go on
          obtain ⟨turns, closing, rest⟩ := ih c₁
          exact ⟨_, closing, rest.next first code⟩
        | some code =>
          refine ⟨_, .nothing, .last first (by rfl) (absurd rfl) ?_⟩
          intro a c' ended
          obtain ⟨-, rfl⟩ := EStateM.Result.ok.inj ended
          exact ⟨by simp [Closing.lines], nofun⟩
      | paged shown =>
        obtain ⟨closing, -, asked, listed⟩ := breakOff_asks sentinel c₁
        dsimp only
        cases broken : breakOff sentinel c₁ with
        | error e c₂ =>
          rw [broken] at asked
          exact ⟨_, closing, .last first asked (fun _ => ⟨shown, rfl⟩) nofun⟩
        | ok code c₂ =>
          rw [broken] at asked
          refine ⟨_, closing, .last first asked (fun _ => ⟨shown, rfl⟩) ?_⟩
          intro a c' ended
          obtain ⟨-, rfl⟩ := EStateM.Result.ok.inj ended
          exact ⟨listed code c₂ broken, nofun⟩

/-- **A console is sent** the lines of the chunk in order, each behind a prompt without a return
code, and nothing else, but for what breaks off the last of them. -/
theorem run_disciplined {chunk : Chunk} {statements : List Text} {sentinel : Text}
    (lines : chunk.submissionLines = statements ++ [sentinel]) (h : Host (Console (Recorded σ))) :
    ∃ turns : List Turn, ∃ closing : Closing,
      (∃ c, Happens turns (Call.ofHost h) c) ∧
      (run chunk h).2.guest.channel.calls.reverse = h.guest.channel.calls.reverse ++
        turns.map (fun turn => .sendLine turn.line) ++ closing.calls sentinel ∧
      turns.map (·.line) <+: statements ++ [sentinel] ∧
      (∀ turn ∈ turns.dropLast, turn.Succeeded) ∧
      (closing ≠ .nothing → ∃ turn, turns.getLast? = some turn ∧ turn.Paged) ∧
      ((run chunk h).1.failure = none →
        (run chunk h).1.capture.transcript.map (·.sent)
          = turns.map (·.line) ++ closing.lines sentinel) := by
  obtain ⟨turns, closing, disciplined⟩ :=
    exchangeAll_disciplined sentinel (statements ++ [sentinel]) (Call.ofHost h)
  have ran := runLines_concat statements sentinel (Call.ofHost h)
  refine ⟨turns, closing, disciplined.happened, ?_, disciplined.inOrder, disciplined.succeeded,
    disciplined.paged, ?_⟩
  · have asked := disciplined.asked
    rw [run, lines]
    cases exchanged : exchangeAll sentinel (statements ++ [sentinel]) (Call.ofHost h) with
    | error e c =>
      rw [exchanged] at ran asked
      rw [ran]
      exact asked
    | ok code c =>
      rw [exchanged] at ran asked
      obtain ⟨noted, ran⟩ := ran
      rw [ran]
      exact asked
  · have listed := disciplined.listed
    rw [run, lines]
    cases exchanged : exchangeAll sentinel (statements ++ [sentinel]) (Call.ofHost h) with
    | error e c =>
      rw [exchanged] at ran
      rw [ran]
      rintro ⟨⟩
    | ok code c =>
      rw [exchanged] at ran
      obtain ⟨noted, ran⟩ := ran
      rw [ran]
      intro _
      exact listed code c exchanged

/-- The first line fails, so that the sentinel need not be sent. -/
theorem run_disciplined_firstFails :
    let chunk : Chunk := ⟨["di x".toList], false, "0".toList, "di x\n\x600'".toList, [], 0⟩
    let teletype : Teletype := ⟨[["x not found".toList, "r(111);".toList]], none⟩
    let h : Host (Console (Recorded Teletype)) := ⟨⟨.ofPeer teletype, 10, []⟩, .empty⟩
    chunk.submissionLines = ["di x".toList] ++ [chunk.sentinel] ∧
    ∃ turns : List Turn, ∃ closing : Closing,
      (run chunk h).2.guest.channel.calls.reverse
        = turns.map (fun turn => .sendLine turn.line) ++ closing.calls chunk.sentinel ∧
      turns.map (·.line) <+: ["di x".toList, chunk.sentinel] ∧
      (∀ turn ∈ turns.dropLast, turn.Succeeded) := by
  have lines : (⟨["di x".toList], false, "0".toList, "di x\n\x600'".toList, [], 0⟩ : Chunk).submissionLines
      = ["di x".toList] ++ [sentinelOf "0".toList] := by decide
  obtain ⟨turns, closing, -, asked, inOrder, succeeded, -⟩ := run_disciplined lines
    (⟨⟨.ofPeer ⟨[["x not found".toList, "r(111);".toList]], none⟩, 10, []⟩, .empty⟩ :
      Host (Console (Recorded Teletype)))
  exact ⟨lines, turns, closing, asked, inOrder, succeeded⟩

end DoRunner.Console
