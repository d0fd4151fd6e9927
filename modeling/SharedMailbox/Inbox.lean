import SharedMailbox.Error

namespace SharedMailbox

/-!
# Inboxes

An endpoint keeps at most one pending delivery and at most one in the hand of its consumer. A
delivery is a reference only: the message stays in the mailslot of its sender until that slot is
cleared. Each operation returns the new inbox together with the delivery it gives up, if any.

* `Inbox.install`: a message has arrived.
* `Inbox.handOut`: the consumer takes the pending delivery in hand.
* `Inbox.release`: the consumer is done.
-/

/-- A reference to a message: who sent it, the length seen in the sender's slot, and the number of
    its arrival. -/
structure Delivery where
  sender : PeerId
  len : UInt64
  generation : UInt64
  deriving DecidableEq, Repr

/-- The deliveries that an endpoint has not released, and the number of the last arrival. The
    numbers wrap around. -/
structure Inbox where
  pending : Option Delivery := none
  inHand : Option Delivery := none
  generation : UInt64 := 0
  deriving DecidableEq, Repr

namespace Inbox

/-- The delivery that a message becomes. A message from the sender of the pending delivery becomes
    none. -/
def fresh? (i : Inbox) (sender : PeerId) (len : UInt64) : Option Delivery :=
  if i.pending.map Delivery.sender = some sender then none
  else some ⟨sender, len, i.generation + 1⟩

/-- Make a message the pending delivery and give up the one that it displaces. A message from the
    sender of the pending delivery changes nothing. -/
def install (i : Inbox) (sender : PeerId) (len : UInt64) : Inbox × Option Delivery :=
  match i.fresh? sender len with
  -- what is pending is displaced, whether or not the consumer has it in hand
  | some d => ({ i with pending := some d, generation := d.generation }, i.pending)
  | none => (i, none)

/-- The consumer has this delivery in hand. -/
def Holds (i : Inbox) (d : Delivery) : Prop := i.inHand.map Delivery.generation = some d.generation

instance (i : Inbox) (d : Delivery) : Decidable (i.Holds d) :=
  inferInstanceAs (Decidable (_ = _))

/-- Take a delivery in hand, and give up one of another sender that was in hand before. -/
def handOut (i : Inbox) (d : Delivery) : Inbox × Option Delivery :=
  ({ i with inHand := some d }, i.inHand.filter fun previous => previous.sender ≠ d.sender)

/-- Give up the delivery in hand, or the pending one if nothing is in hand. A pending delivery of
    another sender than the one in hand stays. -/
def release (i : Inbox) : Inbox × Option Delivery :=
  match i.inHand with
  | some held =>
    -- what is pending of the same sender counts as the message in hand
    ({ i with inHand := none, pending := i.pending.filter fun p => p.sender ≠ held.sender },
      some held)
  | none => ({ i with pending := none }, i.pending)

end Inbox

end SharedMailbox
