import SharedMailbox.Network.Send

namespace SharedMailbox

/-!
# Interrupts

A ring raises a vector at its destination. The vector tells the sender, and the slot of the sender
holds the message: link requests are answered at once, any other message becomes the pending
delivery.

* `Network.interrupt`: an endpoint handles a vector.
* `Network.raise`: a ring reaches its destination.
* `Network.deliver?`, `Network.deliverMany`, `Network.settle`: rings under way reach theirs.
* `Bell.nested`: a doorbell whose rings reach their destination while the sender still rings.
-/

/-- What an endpoint did about an interrupt that was for it. -/
inductive Receipt where
  /-- The origin has no slot. -/
  | slotless
  /-- The origin has nothing staged. -/
  | spurious
  /-- The message was a link request: the answer, and what became of it. -/
  | answered (sender : PeerId) (answer : List UInt8) (result : Except MessageError Nat)
  /-- The message was left for the consumer: the delivery that it became. -/
  | left (sender : PeerId) (fresh : Option Delivery)
  deriving DecidableEq

/-- Whether an interrupt was for the endpoint, and what it did about one that was. -/
inductive Handling where
  /-- No origin is behind the vector. -/
  | foreign
  | handled (receipt : Receipt)
  deriving DecidableEq

/-- What became of a ring. -/
inductive RingResult where
  /-- Nobody listens at the destination. -/
  | unattached
  /-- The destination has no vector for the origin. -/
  | noVector
  | reached (result : Handling)
  deriving DecidableEq

namespace Network

/-- Stamp the ids of a sender into its slot. -/
def stampSender (net : Network) (slot : Slot) (sender : PeerId) : Network :=
  net.remember fun m => slot.setPeerCid (firstCid sender) (slot.setPeerSid subnetWord m)

/-- Send an answer back, and count a failure if that does not work. -/
def reply (ring : Bell) (busyPeers : List PeerId) (net : Network) (e : Endpoint) (sender : PeerId)
    (answer : List UInt8) : Except MessageError Nat × Network :=
  match net.send ring busyPeers e .spin (.peer sender) answer with
  | (.ok sent, net) => (.ok sent, net)
  | (.error fault, net) =>
    (.error fault,
      net.update e.peer (.count fun c => { c with replyFailures := c.replyFailures + 1 }))

/-- Leave a message for the consumer. A delivery that it displaces is given up, unless the
    consumer has it in hand; then the consumer gives it up later. -/
def install (net : Network) (e : Endpoint) (sender : PeerId) (len : UInt64) : Network :=
  let (inbox, displaced) := e.inbox.install sender len
  let net := net.update e.peer fun e =>
    { e with inbox := inbox, metrics.delivered := e.metrics.delivered + 1 }
  match displaced with
  | none => net
  | some previous =>
    let net := net.update e.peer (.count fun c => { c with incomingStomps := c.incomingStomps + 1 })
    if inbox.Holds previous then net else net.clearSender e previous

/-- Handle a message in the slot of its sender. -/
def dispatch (ring : Bell) (busyPeers : List PeerId) (net : Network) (e : Endpoint)
    (sender : PeerId) (slot : Slot) : Receipt × Network :=
  let net := net.stampSender slot sender
  match (slot.busy net.memory).occupied with
  | none =>
    (.spurious, net.update e.peer (.count fun c =>
      { c with spuriousInterrupts := c.spuriousInterrupts + 1 }))
  | some len =>
    match Link.respond e.identity (slot.payload net.memory len.toNat) with
    | some (identity, answer) =>
      -- the sender's slot is free again before the answer reaches it
      let net := net.remember (slot.clear len)
      let net := net.update e.peer fun e =>
        { e with identity := identity, metrics.linkHandled := e.metrics.linkHandled + 1 }
      let (result, net) := net.reply ring busyPeers e sender answer
      (.answered sender answer result, net)
    | none => (.left sender (e.inbox.fresh? sender len), net.install e sender len)

/-- Handle a vector raised at an endpoint. -/
def interrupt (ring : Bell) (busyPeers : List PeerId) (net : Network) (e : Endpoint)
    (vector : UInt32) : Handling × Network :=
  let dropped := net.update e.peer (.count fun c =>
    { c with droppedInterrupts := c.droppedInterrupts + 1 })
  match e.vectors.peerFor vector with
  | none => (.foreign, dropped)
  | some sender =>
    match e.slotOf? sender with
    | none => (.handled .slotless, dropped)
    | some slot =>
      let (receipt, net) := net.dispatch ring busyPeers e sender slot
      (.handled receipt, net)

/-- A ring reaches its destination, if somebody listens there and has a vector for its origin. -/
def raise (ring : Bell) (busyPeers : List PeerId) (net : Network) (w : DoorbellWord) :
    RingResult × Network :=
  match net.endpoint? w.dest with
  | none => (.unattached, net)
  | some e =>
    if e.listening then
      match e.vectors.vectorFor w.origin with
      | none => (.noVector, net)
      | some vector =>
        let (result, net) := net.interrupt ring busyPeers e vector
        (.reached result, net)
    else (.unattached, net)

/-! ### Rings under way -/

/-- The ring at a place in the queue reaches its destination. Answers ring behind all others. -/
def deliver? (net : Network) (place : Nat) : Option (DoorbellWord × RingResult × Network) :=
  match net.rings[place]? with
  | none => none
  | some w =>
    -- the ring is off the queue before it acts
    let (result, net) := { net with rings := net.rings.eraseIdx place }.raise .queue [] w
    some (w, result, net)

/-- The oldest rings reach their destinations, at most `count` of them. -/
def deliverMany : Nat → Network → List (DoorbellWord × RingResult) × Network
  | 0, net => ([], net)
  | count + 1, net =>
    match net.deliver? 0 with
    | none => ([], net)
    | some (w, result, net) =>
      let (results, net) := deliverMany count net
      ((w, result) :: results, net)

/-- All rings reach their destinations, and so do the rings of the answers. An answer is never
    answered, and each one empties a busy slot, so that there are no more answers than slots. -/
def settle (net : Network) : Network :=
  (deliverMany (net.rings.length + net.layout.maxPeer.toNat + 1) net).2

end Network

/-- A doorbell that acts at once, while the sender still rings. Each level of nesting is a send of
    another endpoint, so that as many levels as there are endpoints are enough. -/
def Bell.nestedTo : Nat → Bell
  | 0, _, net, _ => net
  | depth + 1, busyPeers, net, w => (net.raise (Bell.nestedTo depth) busyPeers w).2

/-- A doorbell that acts at once. -/
def Bell.nested : Bell := fun busyPeers net w =>
  Bell.nestedTo (net.endpoints.size + 1) busyPeers net w

end SharedMailbox
