import SharedMailbox.Destination
import SharedMailbox.Network

namespace SharedMailbox

/-!
# Sending

A message is staged in the mailslot of its sender and announced by a ring at its destination. The
slot stays busy until the destination has cleared it, and until then the sender cannot send.

A send is one step here: nothing else clears the own slot meanwhile, so that a sender who finds it
busy waits out its deadline. No time passes beyond the deadline, which is what the error gives as
the time that was waited.

* `Endpoint.admit`: the checks that need no memory.
* `Network.send`: the send.
-/

/-- How a sender passes the time while its slot drains: asleep, or spinning without ever being
    parked. -/
inductive WaitMode where
  | sleep
  | spin
  deriving DecidableEq, Repr

/-- The peer id that a message is for, if it has one with a slot, if there is a message, and if
    the slot has room for it and a NUL. -/
def Endpoint.admit (e : Endpoint) (dest : Destination) (message : List UInt8) :
    Except MessageError UInt64 :=
  match dest.resolve e.layout with
  | .error fault => .error fault
  | .ok target =>
    if message = [] then .error .emptyPayload
    else if e.layout.maxPayload ≤ message.length then
      .error (.oversizedPayload message.length (e.layout.maxPayload - 1))
    else .ok target

namespace Network

/-- Stage a message for a target in the slot of an endpoint and announce its length. -/
def stage (net : Network) (e : Endpoint) (target : UInt64) (message : List UInt8) : Network :=
  -- the length comes last: who sees it sees the message
  net.remember fun m =>
    e.slot.publish (UInt64.ofNat message.length)
      (e.slot.setLastResponder target (e.slot.stage message m))

/-- The slot of an endpoint is not free for a message: it is occupied, or, to a spinning sender,
    another send of the same endpoint is still under way. -/
def Wedged (net : Network) (busyPeers : List PeerId) (e : Endpoint) (mode : WaitMode) : Prop :=
  (mode = .spin ∧ e.peer ∈ busyPeers) ∨ ¬ (e.slot.busy net.memory).IsIdle

instance (net : Network) (busyPeers : List PeerId) (e : Endpoint) (mode : WaitMode) :
    Decidable (net.Wedged busyPeers e mode) := inferInstanceAs (Decidable (_ ∨ _))

/-- Send a message. `busyPeers` are the peers in the middle of a send; `ring` acts while this peer
    is one of them. The result is the length of the message. -/
def send (ring : Bell) (busyPeers : List PeerId) (net : Network) (e : Endpoint) (mode : WaitMode)
    (dest : Destination) (message : List UInt8) : Except MessageError Nat × Network :=
  match e.admit dest message with
  | .error fault => (.error fault, net)
  | .ok target =>
    if net.Wedged busyPeers e mode then
      (.error (.slotBusyTimeout (e.slot.lastResponder net.memory) e.sendDeadline),
        net.update e.peer (.count fun c => { c with outgoingBusy := c.outgoingBusy + 1 }))
    else
      let net := net.stage e target message
      -- the ring goes off while the peer is still in the middle of its send
      let net := ring (e.peer :: busyPeers) net (.new e.peer target.toUInt16)
      -- a send is counted once its ring has gone off
      (.ok message.length,
        net.update e.peer (.count fun c =>
          { c with
            messagesSent := c.messagesSent + 1
            bytesSent := c.bytesSent + UInt64.ofNat message.length }))

/-- Ask the coordinator to dump its switch state. -/
def requestDump (ring : Bell) (net : Network) (e : Endpoint) : Except MessageError Nat × Network :=
  net.send ring [] e .sleep (Destination.coordinator e.layout) Link.switchDump

end Network

end SharedMailbox
