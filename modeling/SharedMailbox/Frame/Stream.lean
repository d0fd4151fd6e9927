import SharedMailbox.Frame.Request
import SharedMailbox.Network.Receive
import SharedMailbox.Network.Send

namespace SharedMailbox

/-!
# Framed reads and writes

For callers that know only bytes: what they write is a request, and what they read is a message
behind the address of its sender.

* `Network.write`: send a request.
* `Network.read`: receive a message as `cid,sid:payload`.
* `Network.poll`: whether there is something to read, and room to write.
-/

/-- What an endpoint is ready for. -/
structure Readiness where
  readable : Bool
  writable : Bool
  deriving DecidableEq, Repr

namespace Readiness

/-- Bit of a pending delivery. -/
def readableBit : Nat := 1

/-- Bit of an idle slot. -/
def writableBit : Nat := 2

/-- The readiness as bits. -/
def bits (r : Readiness) : Nat :=
  (if r.readable then readableBit else 0) + (if r.writable then writableBit else 0)

end Readiness

namespace Network

/-- Attempts to send before a write gives up on a busy slot. -/
def writeAttempts : Nat := 3

/-- Send, again and again as long as the slot is busy, up to a number of attempts. -/
def sendPatiently (ring : Bell) (net : Network) (e : Endpoint) (dest : Destination)
    (body : List UInt8) : Nat → Except MessageError Nat × Network
  | 0 => (.error .timedOut, net)
  | attempts + 1 =>
    match net.send ring [] e .sleep dest body with
    | (.error (.slotBusyTimeout ..), net) => net.sendPatiently ring e dest body attempts
    -- any other error is final
    | result => result

/-- Send a framed request. The result is the length of the request. -/
def write (ring : Bell) (net : Network) (e : Endpoint) (request : List UInt8) :
    Except MessageError Nat × Network :=
  let max := e.layout.maxPayload - 2
  if max < request.length then (.error (.oversizedPayload request.length max), net)
  else
    match Request.parse e.layout request with
    | .error fault => (.error (.malformedRequest fault), net)
    | .ok (dest, body) =>
      match net.sendPatiently ring e dest body writeAttempts with
      | (.error fault, net) => (.error fault, net)
      | (.ok sent, net) =>
        if sent ≠ body.length then (.error (.partialTransfer sent body.length), net)
        else (.ok request.length, net)

/-- After a write the network is as before, or as the attempts to send some body have left it. -/
theorem network_write (ring : Bell) (net : Network) (e : Endpoint) (request : List UInt8) :
    (net.write ring e request).2 = net ∨
      ∃ dest body, (net.write ring e request).2 =
        (net.sendPatiently ring e dest body writeAttempts).2 := by
  simp only [write]
  split
  · exact .inl rfl
  · rcases Request.parse e.layout request with fault | ⟨dest, body⟩
    · exact .inl rfl
    · refine .inr ⟨dest, body, ?_⟩
      simp only
      rcases net.sendPatiently ring e dest body writeAttempts with ⟨fault | sent, after⟩
      · rfl
      · simp only
        split <;> rfl

/-- Receive a frame into the front of a buffer, without waiting. The result is the length of the
    frame, the buffer afterwards, and the network. If the buffer is too short the delivery stays
    pending. -/
def read (net : Network) (e : Endpoint) (buffer : List UInt8) :
    Except MessageError Nat × List UInt8 × Network :=
  match net.await e .none with
  | (.error fault, net) => (.error fault, buffer, net)
  | (.ok incoming, net) =>
    let address := incoming.address net.memory
    let total := address.length + incoming.len
    if buffer.length < total then (.error (.oversizedPayload total buffer.length), buffer, net)
    else
      -- what the message does not fill of its part stays as the caller left it
      let body := (buffer.drop address.length).take incoming.len
      match incoming.copyOver net.memory body with
      | (.error fault, _) => (.error fault, buffer, net)
      | (.ok _, body) =>
        let buffer := address ++ body ++ buffer.drop total
        -- the endpoint is released as it stands after the wait
        match net.endpoint? e.peer with
        | some e => (.ok total, buffer, (net.release e).2)
        | none => (.ok total, buffer, net)

/-- After a read the network is as the wait has left it, or the endpoint is released as it stands
    then. -/
theorem network_read (net : Network) (e : Endpoint) (buffer : List UInt8) :
    (net.read e buffer).2.2 = (net.await e .none).2 ∨
      ∃ e', (net.await e .none).2.endpoint? e.peer = some e' ∧
        (net.read e buffer).2.2 = ((net.await e .none).2.release e').2 := by
  unfold read
  rcases net.await e .none with ⟨fault | incoming, after⟩
  · exact .inl rfl
  · simp only
    split
    · exact .inl rfl
    · split
      · exact .inl rfl
      · rcases here : after.endpoint? e.peer with _ | e'
        · exact .inl rfl
        · exact .inr ⟨e', rfl, rfl⟩

/-- Whether an endpoint has something to read, and room to write. -/
def poll (net : Network) (e : Endpoint) : Readiness where
  readable := e.inbox.pending.isSome
  writable := decide (e.slot.busy net.memory).IsIdle

end Network

end SharedMailbox
