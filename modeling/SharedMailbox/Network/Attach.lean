import SharedMailbox.Network

namespace SharedMailbox

/-!
# Attaching and detaching

An endpoint claims the slot that is stamped with its id, wipes it and labels it. All checks come
before the first write.
-/

namespace Network

/-- The first reason why a peer cannot claim its slot, or the slot. -/
def claim (net : Network) (l : Layout) (peer : PeerId) (vectors : VectorTable) :
    Except SetupError Slot :=
  match l.validate with
  | .error fault => .error (.layout fault)
  | .ok () =>
    match l.slot? peer.toUInt64 with
    | none => .error (.addressOutOfRange peer)
    | some slot =>
      if slot.peerId net.memory ≠ peer.toUInt64 then
        .error (.peerIdMismatch peer (slot.peerId net.memory))
      else if vectors.size < l.nEvents.toNat then
        .error (.insufficientVectors l.nEvents vectors.size)
      else .ok slot

/-- The record of a new endpoint. -/
def newEndpoint (l : Layout) (peer : PeerId) (vectors : VectorTable) (config : EndpointConfig) :
    Endpoint where
  peer := peer
  layout := l
  vectors := vectors
  identity := { className := config.className }
  deadline := Deadline.new config.timings.baseDeadline config.timings.deadlineCeiling

/-- Attach an endpoint that sees the region through a layout, on a host that answers for its name.
    An endpoint that the peer had before is replaced. -/
def attach (net : Network) (l : Layout) (peer : PeerId) (vectors : VectorTable)
    (config : EndpointConfig) (host : HostAnswer) : Except SetupError Network :=
  match net.claim l peer vectors with
  | .error fault => .error fault
  | .ok slot =>
    -- wiped before it is labelled, so that an old message never has a new owner
    let net := net.remember fun m =>
      slot.setClassName config.className
        (slot.setNodename (config.label host peer) (slot.wipe peer m))
    .ok { net with endpoints := net.endpoints.insert peer (newEndpoint l peer vectors config) }

/-- What a peer claims is its own slot, and it has a vector for each event. -/
theorem claim_eq_ok {net : Network} {l : Layout} {peer : PeerId} {vectors : VectorTable}
    {slot : Slot} (claimed : net.claim l peer vectors = .ok slot) :
    l.slot? peer.toUInt64 = some slot ∧ l.nEvents.toNat ≤ vectors.size := by
  unfold claim at claimed
  split at claimed
  next => cases claimed
  next =>
    split at claimed
    next => cases claimed
    next found =>
      split at claimed
      next => cases claimed
      next =>
        split at claimed
        next => cases claimed
        next enough =>
          cases claimed
          exact ⟨found, Nat.le_of_not_lt enough⟩

/-- Whoever attaches has claimed its slot, which is wiped and labelled, and has a new endpoint. -/
theorem attach_eq_ok {net after : Network} {l : Layout} {peer : PeerId} {vectors : VectorTable}
    {config : EndpointConfig} {host : HostAnswer}
    (made : net.attach l peer vectors config host = .ok after) :
    ∃ slot, l.slot? peer.toUInt64 = some slot ∧ l.nEvents.toNat ≤ vectors.size ∧
      after =
        { net.remember fun m =>
            slot.setClassName config.className
              (slot.setNodename (config.label host peer) (slot.wipe peer m)) with
          endpoints := net.endpoints.insert peer (newEndpoint l peer vectors config) } := by
  unfold attach at made
  split at made
  next => cases made
  next slot claimed =>
    obtain ⟨found, enough⟩ := claim_eq_ok claimed
    exact ⟨slot, found, enough, (Except.ok.inj made).symm⟩

/-- Attaching changes no other endpoint, and the new one has the vectors that it is given. -/
theorem endpoint?_attach {net after : Network} {l : Layout} {peer : PeerId}
    {vectors : VectorTable} {config : EndpointConfig} {host : HostAnswer}
    (made : net.attach l peer vectors config host = .ok after) (other : PeerId) :
    after.endpoint? other =
      if peer = other then some (newEndpoint l peer vectors config) else net.endpoint? other := by
  obtain ⟨slot, -, -, rfl⟩ := attach_eq_ok made
  simp [endpoint?, Std.ExtTreeMap.getElem?_insert]

/-- Stop rings from reaching a peer; whether they did before. -/
def detach (net : Network) (peer : PeerId) : Bool × Network :=
  match net.endpoint? peer with
  | some e => (e.listening, net.update peer fun e => { e with listening := false })
  | none => (false, net)

/-- Drop the endpoint of a peer; whether there was one. -/
def forget (net : Network) (peer : PeerId) : Bool × Network :=
  ((net.endpoint? peer).isSome, { net with endpoints := net.endpoints.erase peer })

/-- Set the class that an endpoint tells in answers and in its slot. -/
def setClass (net : Network) (e : Endpoint) (name : String) : Network :=
  (net.update e.peer fun e => { e with identity.className := name }).remember
    (e.slot.setClassName name)

end Network

end SharedMailbox
