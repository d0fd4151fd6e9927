import SharedMailbox.Config
import SharedMailbox.Deadline
import SharedMailbox.Doorbell
import SharedMailbox.Inbox
import SharedMailbox.Link.Reply
import SharedMailbox.Slot

namespace SharedMailbox

/-!
# Endpoints

An endpoint is one peer that has claimed its mailslot: its copy of the layout, its vectors, its
identity, its inbox and its counters. What it has in memory is its slot.
-/

/-- What an endpoint has counted. The counters wrap around. -/
structure Metrics where
  /-- Pending deliveries that another sender displaced. -/
  incomingStomps : UInt64 := 0
  /-- Sends that gave up on the own mailslot. -/
  outgoingBusy : UInt64 := 0
  messagesSent : UInt64 := 0
  bytesSent : UInt64 := 0
  /-- Messages answered without a consumer. -/
  linkHandled : UInt64 := 0
  /-- Messages left for the consumer. -/
  delivered : UInt64 := 0
  /-- Interrupts without a vector or without a slot of the sender. -/
  droppedInterrupts : UInt64 := 0
  /-- Interrupts whose sender had nothing staged. -/
  spuriousInterrupts : UInt64 := 0
  /-- Answers that could not be sent. -/
  replyFailures : UInt64 := 0
  deriving DecidableEq, Repr

/-- One attached peer. -/
structure Endpoint where
  peer : PeerId
  layout : Layout
  vectors : VectorTable
  identity : Link.Identity
  deadline : Deadline
  inbox : Inbox := {}
  metrics : Metrics := {}
  /-- Rings reach the endpoint. -/
  listening : Bool := true

namespace Endpoint

/-- The own mailslot. -/
def slot (e : Endpoint) : Slot := ⟨e.peer.toNat * e.layout.stride.toNat, e.layout.maxPayload⟩

/-- The mailslot of any peer, `none` if it has none. -/
def slotOf? (e : Endpoint) (peer : PeerId) : Option Slot := e.layout.slot? peer.toUInt64

/-- The endpoint is the coordinator. -/
def IsCoordinator (e : Endpoint) : Prop := e.peer.toUInt64 = e.layout.coordinator

instance (e : Endpoint) : Decidable e.IsCoordinator := inferInstanceAs (Decidable (_ = _))

/-- The longest wait for the own mailslot. -/
def sendDeadline (e : Endpoint) : Duration := e.deadline.current

/-- Sender of the pending delivery. -/
def pendingSender (e : Endpoint) : Option PeerId := e.inbox.pending.map Delivery.sender

/-- The endpoint with other counters. -/
def count (f : Metrics → Metrics) (e : Endpoint) : Endpoint := { e with metrics := f e.metrics }

end Endpoint

end SharedMailbox
