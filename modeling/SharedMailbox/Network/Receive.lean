import SharedMailbox.Network

namespace SharedMailbox

/-!
# Receiving

The consumer of an endpoint waits for a delivery, reads the message in the slot of its sender, and
releases it, which clears that slot.

* `Incoming`: a delivery in hand, through which the message is read.
* `Network.await`, `Network.release`: take the pending delivery in hand, and give it up.
-/

/-- How a consumer waits, as far as it shows once nothing came: not at all, up to a limit, or
    until somebody calls the wait off. -/
inductive Patience where
  | none
  | limited
  | calledOff
  deriving DecidableEq, Repr

/-- The error of a wait that ended without a delivery. -/
def Patience.fault : Patience → MessageError
  | .none => .wouldBlock
  | .limited => .timedOut
  | .calledOff => .interrupted

/-- A delivery in hand: the sender, the slot where its message lies, and the length that was seen
    there on arrival. -/
structure Incoming where
  sender : PeerId
  slot : Slot
  len : Nat
  deriving DecidableEq, Repr

namespace Incoming

/-- The message. -/
def payload (i : Incoming) (m : Memory) : List UInt8 := i.slot.payload m i.len

/-- Component id of the sender. -/
def peerCid (i : Incoming) (m : Memory) : UInt64 := i.slot.peerCid m

/-- Subnet id of the sender. -/
def peerSid (i : Incoming) (m : Memory) : UInt64 := i.slot.peerSid m

/-- The address in front of a framed message: component id and subnet id of the sender. -/
def address (i : Incoming) (m : Memory) : List UInt8 :=
  Utf8.encode (Numeral.decimal (i.peerCid m).toNat ++ "," ++ Numeral.decimal (i.peerSid m).toNat
    ++ ":")

/-- Copy the message over the front of a buffer. The result is the length of the message, or the
    error that the buffer is too short, and the buffer afterwards. -/
def copyOver (i : Incoming) (m : Memory) (buffer : List UInt8) :
    Except MessageError Nat × List UInt8 :=
  if buffer.length < i.len then (.error (.oversizedPayload i.len buffer.length), buffer)
  else (.ok i.len, i.slot.copyOver m (buffer.take i.len) ++ buffer.drop i.len)

end Incoming

namespace Network

/-- Take the pending delivery in hand. A delivery of another sender that was in hand is given up,
    since the consumer has moved on. -/
def await (net : Network) (e : Endpoint) (patience : Patience) :
    Except MessageError Incoming × Network :=
  match e.inbox.pending with
  | none => (.error patience.fault, net)
  | some d =>
    let (inbox, superseded) := e.inbox.handOut d
    let net := (net.update e.peer fun e => { e with inbox := inbox }).clearGivenUp e superseded
    match e.slotOf? d.sender with
    | some slot => (.ok ⟨d.sender, slot, d.len.toNat⟩, net)
    | none => (.error (.addressOutOfRange d.sender.toNat), net)

/-- Give up the delivery in hand, or the pending one if nothing is in hand; whether there was
    one. -/
def release (net : Network) (e : Endpoint) : Bool × Network :=
  let (inbox, released) := e.inbox.release
  (released.isSome, (net.update e.peer fun e => { e with inbox := inbox }).clearGivenUp e released)

end Network

end SharedMailbox
