import SharedMailbox.Network.Run
import SharedMailbox.Proofs.Partition
import SharedMailbox.Proofs.Sending

namespace SharedMailbox

/-!
# Bare records

The record of an endpoint without its inbox and its counters: where it sits, its vectors, who it is,
how long it waits, and whether it listens. What endpoints do to each other leaves it alone, but for
the identity of who answers an assignment.

* `Endpoint.bare`, `Network.bare?`: the bare record of an endpoint, and of a peer.
* `Network.bare?_send`, `bare?_await` and so on: the operations leave bare records alone;
  `bare?_acknowledge` says what an answer makes of one.
* `Endpoint.Knows`: an endpoint that gets the rings of a peer.
-/

/-- The record of an endpoint without its inbox and its counters. -/
def Endpoint.bare (e : Endpoint) : Endpoint := { e with inbox := {}, metrics := {} }

/-- An endpoint listens, and what a peer rings leads it back to that peer. -/
def Endpoint.Knows (e : Endpoint) (o : PeerId) : Prop :=
  e.listening = true ∧ ∃ v, e.vectors.vectorFor o = some v ∧ e.vectors.peerFor v = some o

/-- To know a peer takes no inbox and no counters. -/
theorem Endpoint.Knows.of_bare {e f : Endpoint} {o : PeerId} (knows : e.Knows o)
    (same : f.bare = e.bare) : f.Knows o := by
  simp only [bare, mk.injEq] at same
  obtain ⟨-, -, vectors, -, -, -, -, listening⟩ := same
  rwa [Knows, listening, vectors]

/-- With enough vectors and none twice an endpoint knows every peer that owns a slot. -/
theorem Endpoint.knows_of_noRepeats {l : Layout} {e : Endpoint} {o : PeerId} (valid : l.Valid)
    (owner : l.HasSlot o.toUInt64) (listening : e.listening = true)
    (distinct : e.vectors.NoRepeats) (enough : l.nEvents.toNat ≤ e.vectors.size) : e.Knows o := by
  have place := owner.toNat_lt_nEvents valid
  rw [UInt16.toNat_toUInt64] at place
  obtain ⟨v, raised⟩ := VectorTable.exists_get?_of_lt (Nat.lt_of_lt_of_le place enough)
  exact ⟨listening, v, raised, VectorTable.peerFor_of_vectorFor distinct raised⟩

namespace Network

variable {net : Network} {p q : PeerId} {e : Endpoint}

/-- The bare record of the endpoint of a peer. -/
def bare? (net : Network) (p : PeerId) : Option Endpoint := (net.endpoint? p).map Endpoint.bare

/-- The bare record of a peer is that of its endpoint. -/
theorem bare?_of_endpoint? (he : net.endpoint? p = some e) : net.bare? p = some e.bare := by
  simp [bare?, he]

/-- Who has a bare record has an endpoint. -/
theorem exists_of_bare? {b : Endpoint} (h : net.bare? p = some b) :
    ∃ e, net.endpoint? p = some e ∧ e.bare = b :=
  Option.map_eq_some_iff.mp h

/-! ### Changes to a network -/

/-- A change to the record of an endpoint. -/
theorem bare?_update_of {f g : Endpoint → Endpoint} (bare : ∀ e, (f e).bare = g e.bare) :
    (net.update p f).bare? = Function.update net.bare? p ((net.bare? p).map g) := by
  funext q
  by_cases same : p = q
  · subst same
    simp [bare?, bare, Function.comp_def]
  · simp [bare?, endpoint?_update_of_ne same, Function.update_of_ne (Ne.symm same)]

/-- A change to no more than the inbox and the counters. -/
theorem bare?_update {f : Endpoint → Endpoint} (bare : ∀ e, (f e).bare = e.bare) :
    (net.update p f).bare? = net.bare? := by
  rw [bare?_update_of (g := id) bare, Option.map_id, id, Function.update_eq_self]

/-- Counting leaves the bare records. -/
@[simp] theorem bare?_count (net : Network) (p : PeerId) (f : Metrics → Metrics) :
    (net.update p (.count f)).bare? = net.bare? :=
  bare?_update fun _ => rfl

/-- Writing to memory leaves the bare records. -/
@[simp] theorem bare?_remember (net : Network) (f : Memory → Memory) :
    (net.remember f).bare? = net.bare? := rfl

/-- A stamp leaves the bare records. -/
@[simp] theorem bare?_stampSender (net : Network) (slot : Slot) (a : PeerId) :
    (net.stampSender slot a).bare? = net.bare? := rfl

/-- Clearing the slot of a delivery that was given up leaves the bare records. -/
@[simp] theorem bare?_clearGivenUp (net : Network) (e : Endpoint) (o : Option Delivery) :
    (net.clearGivenUp e o).bare? = net.bare? := by
  cases o with
  | none => rfl
  | some d =>
    simp only [clearGivenUp, clearSender]
    split <;> simp only [bare?_remember]

/-! ### Sending and answering -/

/-- A send leaves the bare records. -/
@[simp] theorem bare?_send (net : Network) (busyPeers : List PeerId) (e : Endpoint)
    (mode : WaitMode) (dest : Destination) (message : List UInt8) :
    (net.send .queue busyPeers e mode dest message).2.bare? = net.bare? := by
  unfold send
  rcases e.admit dest message with fault | target
  · rfl
  · simp only
    split_ifs
    · exact bare?_count _ _ _
    · exact (bare?_count _ _ _).trans rfl

/-- Who answers a request changes its identity to the one that it answers with. -/
theorem bare?_acknowledge (net : Network) (e : Endpoint) (slot : Slot)
    (identity : Link.Identity) : (net.acknowledge e slot identity).bare? =
      Function.update net.bare? e.peer
        ((net.bare? e.peer).map fun b => { b with identity := identity }) := by
  unfold acknowledge
  rw [bare?_update_of (g := fun b => { b with identity := identity }) fun _ => rfl,
    bare?_remember]

/-- Setting a class changes the identity. -/
theorem bare?_setClass (net : Network) (e : Endpoint) (name : String) :
    (net.setClass e name).bare? = Function.update net.bare? e.peer
      ((net.bare? e.peer).map fun b => { b with identity.className := name }) := by
  unfold setClass
  rw [bare?_remember, bare?_update_of (g := fun b => { b with identity.className := name })
    fun _ => rfl]

/-- Installing a delivery leaves the bare records. -/
@[simp] theorem bare?_install (net : Network) (e : Endpoint) (a : PeerId) (len : UInt64) :
    (net.install e a len).bare? = net.bare? := by
  unfold install
  rcases e.inbox.install a len with ⟨inbox, displaced⟩
  have installed : (net.update e.peer fun e =>
      { e with inbox := inbox, metrics.delivered := e.metrics.delivered + 1 }).bare? = net.bare? :=
    bare?_update fun _ => rfl
  cases displaced with
  | none => exact installed
  | some previous =>
    simp only
    split
    · rw [bare?_count, installed]
    · refine (bare?_clearGivenUp _ e (some previous)).trans ?_
      rw [bare?_count, installed]

/-! ### Receiving -/

/-- A wait leaves the bare records. -/
@[simp] theorem bare?_await (net : Network) (e : Endpoint) (patience : Patience) :
    (net.await e patience).2.bare? = net.bare? := by
  unfold Network.await
  split
  · rfl
  · simp only
    split <;> rw [bare?_clearGivenUp] <;> exact bare?_update fun _ => rfl

/-- A release leaves the bare records. -/
@[simp] theorem bare?_release (net : Network) (e : Endpoint) :
    (net.release e).2.bare? = net.bare? := by
  exact (bare?_clearGivenUp _ _ _).trans (bare?_update fun _ => rfl)

/-- A framed read leaves the bare records. -/
@[simp] theorem bare?_read (net : Network) (e : Endpoint) (buffer : List UInt8) :
    (net.read e buffer).2.2.bare? = net.bare? := by
  rcases net.network_read e buffer with same | ⟨e', -, same⟩
  · rw [same, bare?_await]
  · rw [same, bare?_release, bare?_await]

end Network

end SharedMailbox
