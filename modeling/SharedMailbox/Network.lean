import Std.Data.ExtTreeMap
import SharedMailbox.Endpoint
import SharedMailbox.Mailbox

namespace SharedMailbox

/-!
# Networks

A network is a mailbox, the endpoints attached to it, and the rings that are under way. Endpoints
act on the shared memory and on their own records; the doorbell is the only way from one to
another.

* `Network`: the state.
* `Network.update`, `Network.remember`: change one endpoint, change the memory.
* `Bell`: what a ring does, which is given to every operation that rings.
-/

/-- A mailbox, the endpoints attached to it by peer id, and the rings under way, oldest first. -/
structure Network extends Mailbox where
  endpoints : Std.ExtTreeMap PeerId Endpoint
  rings : List DoorbellWord

/-- What a ring does to a network, given the peers that are in the middle of a send. -/
abbrev Bell := List PeerId → Network → DoorbellWord → Network

namespace Network

/-- A mailbox to which nobody has attached. -/
def ofMailbox (b : Mailbox) : Network := { b with endpoints := ∅, rings := [] }

/-- The endpoint of a peer. -/
def endpoint? (net : Network) (peer : PeerId) : Option Endpoint := net.endpoints[peer]?

/-- Change the endpoint of a peer, if it has one. -/
def update (net : Network) (peer : PeerId) (f : Endpoint → Endpoint) : Network :=
  { net with endpoints := net.endpoints.modify peer f }

/-- Change the memory. -/
def remember (net : Network) (f : Memory → Memory) : Network := { net with memory := f net.memory }

/-- Put a ring behind those under way. -/
def enqueue (net : Network) (w : DoorbellWord) : Network := { net with rings := net.rings ++ [w] }

/-- Clear the slot that a delivery refers to, if it still holds the length that was delivered. -/
def clearSender (net : Network) (e : Endpoint) (d : Delivery) : Network :=
  match e.slotOf? d.sender with
  | some slot => net.remember (slot.clear d.len)
  | none => net

/-- Clear the slot that a delivery refers to, if there is a delivery. -/
def clearGivenUp (net : Network) (e : Endpoint) : Option Delivery → Network
  | some d => net.clearSender e d
  | none => net

/-- The endpoint that is updated is the updated one. -/
@[simp] theorem endpoint?_update_self (net : Network) (peer : PeerId) (f : Endpoint → Endpoint) :
    (net.update peer f).endpoint? peer = (net.endpoint? peer).map f := by
  simp [endpoint?, update]

/-- The endpoints of other peers stay. -/
theorem endpoint?_update_of_ne {net : Network} {peer other : PeerId} {f : Endpoint → Endpoint}
    (h : peer ≠ other) : (net.update peer f).endpoint? other = net.endpoint? other := by
  simp [endpoint?, update, Std.ExtTreeMap.getElem?_modify, h]

/-- Writing to memory touches no endpoint. -/
@[simp] theorem endpoint?_remember (net : Network) (f : Memory → Memory) (peer : PeerId) :
    (net.remember f).endpoint? peer = net.endpoint? peer := rfl

/-- Updating an endpoint touches no memory. -/
@[simp] theorem memory_update (net : Network) (peer : PeerId) (f : Endpoint → Endpoint) :
    (net.update peer f).memory = net.memory := rfl

/-- The memory afterwards is the one that was written. -/
@[simp] theorem memory_remember (net : Network) (f : Memory → Memory) :
    (net.remember f).memory = f net.memory := rfl

end Network

/-- A doorbell that lets rings wait until they are delivered. -/
def Bell.queue : Bell := fun _ net w => net.enqueue w

end SharedMailbox
