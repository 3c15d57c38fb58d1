import DoRunner.Proofs.Transport.Accounts

/-!
# A channel that answers in order

A console prints something for each request, a line or a break, and its channel delivers what is
printed in that order and each character once; but when it does so is its own affair. So what is
delivered while a call goes on need not have been printed for the requests of that call.

A **ledger** keeps this apart: what was printed for each request, and what of all that is still
owed. Nothing reads it but the statements made here.
-/

namespace DoRunner

/-- What was printed for each request so far, and what of it has not been delivered. -/
structure Ledger where
  /-- What was printed, for one request after another. -/
  printed : List Text
  /-- What is still to be delivered. -/
  owed : Text
  /-- It is the end of what was printed. -/
  isEnd : owed <:+ printed.flatten
deriving Repr

namespace Ledger

/-- From one ledger to another, replies were printed and a text was delivered. -/
structure Advances (l : Ledger) (replies : List Text) (text : Text) (l' : Ledger) : Prop where
  /-- The replies are those to the requests that were added. -/
  printed : l'.printed = l.printed ++ replies
  /-- What was owed is delivered before the replies, and nothing is lost. -/
  inOrder : l.owed ++ replies.flatten = text ++ l'.owed

namespace Advances

variable {l l₁ l' : Ledger} {replies more : List Text} {text u : Text}

theorem refl (l : Ledger) : l.Advances [] [] l := by
  refine ⟨(List.append_nil _).symm, ?_⟩
  rw [List.flatten_nil, List.append_nil, List.nil_append]

theorem trans (h : l.Advances replies text l₁) (further : l₁.Advances more u l') :
    l.Advances (replies ++ more) (text ++ u) l' := by
  refine ⟨?_, ?_⟩
  · rw [further.printed, h.printed, List.append_assoc]
  · calc l.owed ++ (replies ++ more).flatten
        = (l.owed ++ replies.flatten) ++ more.flatten := by
          rw [List.flatten_append, List.append_assoc]
      _ = text ++ (l₁.owed ++ more.flatten) := by rw [h.inOrder, List.append_assoc]
      _ = (text ++ u) ++ l'.owed := by rw [further.inOrder, List.append_assoc]

/-- What is delivered was owed, or printed since. -/
theorem delivered (h : l.Advances replies text l') : text <+: l.owed ++ replies.flatten :=
  ⟨l'.owed, h.inOrder.symm⟩

/-- Where nothing was owed, only replies to new requests are delivered. -/
theorem delivered_of_owed_nil (h : l.Advances replies text l') (settled : l.owed = []) :
    text <+: replies.flatten := by
  have delivered := h.delivered
  rwa [settled, List.nil_append] at delivered

end Advances

end Ledger

/-- What a request does: something is printed for it, unless it failed. -/
def Ledger.Asked {σ : Type} (ledger : σ → Ledger) (h : Host σ) :
    EStateM.Result TransportError (Host σ) Unit → Prop
  | .ok _ h' => ∃ reply, (ledger h.guest).Advances [reply] [] (ledger h'.guest)
  | .error _ h' => (ledger h.guest).Advances [] [] (ledger h'.guest)

/-- What a read does: it delivers what comes next, unless it failed. -/
def Ledger.Read {σ : Type} (ledger : σ → Ledger) (h : Host σ) :
    EStateM.Result TransportError (Host σ) (Timed (Option Text)) → Prop
  | .ok piece h' => (ledger h.guest).Advances [] (piece.value.getD []) (ledger h'.guest)
  | .error _ h' => (ledger h.guest).Advances [] [] (ledger h'.guest)

/-- A channel that delivers what is printed for each request once and in the order of the requests.
It may take any time for that. -/
class OrderlyChannel (σ : Type) extends LineChannel σ where
  /-- What has been printed and what is owed. -/
  ledger : σ → Ledger
  sends : ∀ (line : Text) (h : Host σ), Ledger.Asked ledger h (sendLine line h)
  breaks : ∀ h : Host σ, Ledger.Asked ledger h (sendBreak h)
  reads : ∀ (wait : Nat) (h : Host σ), Ledger.Read ledger h (read wait h)

namespace OrderlyChannel

variable {σ : Type} [OrderlyChannel σ] {l : Ledger} {text : Text} {h h' : Host σ}

/-- Since a ledger was as it is given, this text has been delivered. -/
def Heard (l : Ledger) (text : Text) (h : Host σ) : Prop :=
  ∃ replies, l.Advances replies text (ledger h.guest)

theorem Heard.quiet (heard : Heard l text h) {replies : List Text}
    (next : (ledger h.guest).Advances replies [] (ledger h'.guest)) : Heard l text h' := by
  obtain ⟨before, advances⟩ := heard
  have all := advances.trans next
  rw [List.append_nil text] at all
  exact ⟨_, all⟩

theorem Heard.asked (heard : Heard l text h) {result : EStateM.Result TransportError (Host σ) Unit}
    (asked : Ledger.Asked ledger h result) : Heard l text (stateOf result) := by
  cases result with
  | ok u h' =>
    obtain ⟨reply, next⟩ := asked
    exact heard.quiet next
  | error e h' => exact heard.quiet asked

/-- **What has been delivered can be read off the ledger.** -/
theorem hearing (l : Ledger) : Console.Hearing (@Heard σ _ l) where
  reads := by
    rintro t wait took piece h h' ⟨replies, advances⟩ read
    have next := OrderlyChannel.reads wait h
    rw [read] at next
    exact ⟨_, advances.trans next⟩
  fails := by
    intro t wait e h h' heard read
    have next := OrderlyChannel.reads wait h
    rw [read] at next
    exact heard.quiet next
  sends line heard := heard.asked (OrderlyChannel.sends line _)
  breaks heard := heard.asked (OrderlyChannel.breaks _)

end OrderlyChannel

end DoRunner
