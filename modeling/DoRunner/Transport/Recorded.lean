import DoRunner.Transport.Automation
import DoRunner.Transport.Console

/-!
# Peers that remember

What a transport asks of its peer is what it does in the world. A recorded peer answers as the peer
it wraps and keeps the list of what it was asked, so that statements about the order of requests
are statements about a value.
-/

namespace DoRunner

/-- Something that a peer was asked to do. -/
inductive PeerCall where
  /-- To take a line. -/
  | sendLine (line : Text)
  /-- To break off. -/
  | sendBreak
  /-- To end. -/
  | close
  /-- To run a command to its end. -/
  | submitAndWait (command : Text)
  /-- To start a command. -/
  | submitAsync (command : Text)
  /-- To say whether a command is running. -/
  | pollBusy
  /-- To give the return code of the command last started. -/
  | lastErrorCode
  /-- To wait until nothing is running. -/
  | waitUntilIdle
deriving DecidableEq, Repr

/-- A peer and what it was asked to do, the latest first. -/
structure Recorded (σ : Type) where
  /-- The peer. -/
  peer : σ
  /-- What it was asked to do. -/
  calls : List PeerCall
deriving Repr

namespace Recorded

/-- A peer that has not been asked anything. -/
def ofPeer {σ : Type} (peer : σ) : Recorded σ := ⟨peer, []⟩

/-- What the peer does, unrecorded. -/
def silently {σ β : Type} (action : Action σ β) : Action (Recorded σ) β :=
  action.within (·.peer) fun recorded peer => { recorded with peer }

/-- Adds to the record. -/
def note {σ : Type} (call : PeerCall) : Action (Recorded σ) Unit := fun h =>
  .ok () { h with guest := { h.guest with calls := call :: h.guest.calls } }

/-- What the peer does, recorded before it is done. -/
def noting {σ β : Type} (call : PeerCall) (action : Action σ β) : Action (Recorded σ) β := do
  note call
  silently action

instance {σ : Type} [LineChannel σ] : LineChannel (Recorded σ) where
  sendLine line := noting (.sendLine line) (LineChannel.sendLine line)
  sendBreak := noting .sendBreak LineChannel.sendBreak
  read wait := silently (LineChannel.read wait)
  close := noting .close LineChannel.close
  backlog recorded := LineChannel.backlog recorded.peer
  backlog_lt := by
    intro h h' piece took delivered
    unfold silently Action.within at delivered
    split at delivered
    · rename_i b inner hr
      simp only [EStateM.Result.ok.injEq] at delivered
      obtain ⟨rfl, rfl⟩ := delivered
      exact LineChannel.backlog_lt hr
    · simp at delivered

/-- Waiting is recorded when the application can wait. -/
def waitUntilIdle {σ : Type} [Application σ] (limit : Nat) :
    Action (Recorded σ) (Option Nat) := fun h =>
  match silently (Application.waitUntilIdle limit) h with
  | .ok none h' => .ok none h'
  | .ok (some took) h' => (do note .waitUntilIdle; return some took : Action _ _) h'
  | .error e h' => (do note .waitUntilIdle; throw e : Action _ _) h'

instance {σ : Type} [Application σ] : Application (Recorded σ) where
  submitAndWait command := noting (.submitAndWait command) (Application.submitAndWait command)
  submitAsync command := noting (.submitAsync command) (Application.submitAsync command)
  pollBusy := noting .pollBusy Application.pollBusy
  lastErrorCode := noting .lastErrorCode Application.lastErrorCode
  waitUntilIdle := waitUntilIdle
  pass time h :=
    let after := Application.pass time ⟨h.guest.peer, h.disk⟩
    ⟨{ h.guest with peer := after.guest }, after.disk⟩

end Recorded

end DoRunner
