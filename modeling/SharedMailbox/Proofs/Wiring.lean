import SharedMailbox.Proofs.Orderly
import SharedMailbox.Proofs.Partition
import SharedMailbox.Proofs.Routing
import SharedMailbox.Proofs.Standing

namespace SharedMailbox

/-!
# Fabrics are wired

In a fabric every ring tells who sent it: the runs of vectors that it hands out lie apart, a ring
carries whole peer ids, and the vector it raises leads back to its origin alone.

* `VectorTable.peerFor_vectorFor_iff`: in any table an origin is found again if and only if no
  smaller one has its vector.
* `Fabric.run`, `Fabric.vectors?_eq`: the vectors of a peer, if they fit in 32 bits.
* `Fabric.bindPeer`, `Fabric.unbindPeer`: what binding and unbinding do about one peer.
* `Fabric.Built`: the networks that fabrics can be in; `Fabric.Wired`: what holds in all of them.
* `Fabric.faithful_of_built`: what follows for attaching, for vectors, for sends and for interrupts.
-/

/-! ### Tables -/

namespace VectorTable

variable {t : VectorTable} {o : PeerId} {v : UInt32}

/-- A vector is that of a peer iff it is found at its place. -/
theorem peerFor_eq_some_iff : t.peerFor v = some o ↔ t.indexOf? v = some o.toNat := by
  have small : o.toNat < 65536 := o.toNat_lt
  unfold peerFor
  rcases t.indexOf? v with _ | i
  · simp
  · simp only [Option.ite_none_right_eq_some, Option.some.injEq]
    constructor
    · rintro ⟨lt, rfl⟩
      rw [UInt16.toNat_ofNat', Nat.mod_eq_of_lt lt]
    · rintro rfl
      exact ⟨small, UInt16.ofNat_toNat⟩

/-- A vector is found at its first place. -/
theorem indexOf?_list_iff {vs : List UInt32} {i : Nat} (here : vs[i]? = some v) :
    (list vs).indexOf? v = some i ↔ ∀ j < i, vs[j]? ≠ vs[i]? := by
  obtain ⟨bound, rfl⟩ := List.getElem?_eq_some_iff.mp here
  rw [indexOf?, List.findIdx?_eq_some_iff_getElem]
  simp only [bound, beq_self_eq_true, Bool.not_eq_true, beq_eq_false_iff_ne, true_and,
    exists_true_left]
  refine forall₂_congr fun j before => ?_
  rw [List.getElem?_eq_getElem bound, List.getElem?_eq_getElem (by omega)]
  exact not_congr (Option.some_inj).symm

/-- Runs are made by `sequential` alone, which makes none that wraps around. -/
theorem noRepeats_of_sequential {count : UInt64} {first : UInt32}
    (made : sequential count first = some t) : t.NoRepeats := by
  unfold sequential at made
  split at made
  next fits =>
    cases made
    exact fits.2
  next => cases made

/-- In a table that is given as a list or as a run, an origin is found by its vector if and only if
    no smaller one has that vector. -/
theorem peerFor_vectorFor_iff
    (given : (∃ vs, t = .list vs) ∨ ∃ count first, sequential count first = some t)
    (bound : o.toNat < t.size) : (∃ v, t.vectorFor o = some v ∧ t.peerFor v = some o) ↔
      ∀ i < o.toNat, t.get? i ≠ t.get? o.toNat := by
  obtain ⟨v, here⟩ := exists_get?_of_lt bound
  have only : (∃ v, t.vectorFor o = some v ∧ t.peerFor v = some o) ↔ t.peerFor v = some o := by
    simp [vectorFor, here]
  rw [only, peerFor_eq_some_iff]
  rcases given with ⟨vs, rfl⟩ | ⟨count, first, made⟩
  · exact indexOf?_list_iff here
  · have distinct := noRepeats_of_sequential made
    refine ⟨fun found i before same => ?_, fun _ => indexOf?_of_get? distinct here⟩
    rw [here] at same
    have := Option.some.inj ((indexOf?_of_get? distinct same).symm.trans found)
    omega

end VectorTable

namespace Fabric

variable {l : Layout} {net after : Network} {p q d : PeerId} {e f : Endpoint}

/-! ### The vectors of a fabric -/

/-- The last vector of a peer fits in 32 bits, and so does the number of them. -/
def Fits (l : Layout) (d : PeerId) : Prop := l.nEvents.toNat < UInt32.size ∧
  baseVector + d.toNat * l.nEvents.toNat + l.nEvents.toNat - 1 < UInt32.size

instance (l : Layout) (d : PeerId) : Decidable (Fits l d) := inferInstanceAs (Decidable (_ ∧ _))

/-- The vectors of a peer, if they fit. -/
def run (l : Layout) (d : PeerId) : VectorTable :=
  .run (UInt32.ofNat (baseVector + d.toNat * l.nEvents.toNat)) l.nEvents.toNat

/-- Where vectors fit, none of them wraps around. -/
theorem Fits.toNat_ofNat (fits : Fits l d) {i : Nat} (lt : i < l.nEvents.toNat) :
    (UInt32.ofNat (baseVector + d.toNat * l.nEvents.toNat + i)).toNat =
      baseVector + d.toNat * l.nEvents.toNat + i := by
  obtain ⟨-, last⟩ := fits
  have below : baseVector + d.toNat * l.nEvents.toNat + i < UInt32.size := by omega
  rw [UInt32.toNat_ofNat', Nat.mod_eq_of_lt below]

/-- The first vector of a run that fits is the one it should be. -/
theorem Fits.toNat_first (fits : Fits l d) (valid : l.Valid) :
    (UInt32.ofNat (baseVector + d.toNat * l.nEvents.toNat)).toNat =
      baseVector + d.toNat * l.nEvents.toNat := by
  obtain ⟨-, -, -, events⟩ := valid.numbers
  exact fits.toNat_ofNat (i := 0) (by omega)

/-- A peer has its run of vectors if and only if it fits. -/
theorem vectors?_eq (valid : l.Valid) (d : PeerId) :
    vectors? l d = if Fits l d then some (run l d) else none := by
  obtain ⟨-, -, -, events⟩ := valid.numbers
  simp only [vectors?, VectorTable.sequential]
  by_cases fits : Fits l d
  · obtain ⟨few, last⟩ := id fits
    have low : baseVector + d.toNat * l.nEvents.toNat < UInt32.size := by omega
    rw [if_pos low, if_pos fits, fits.toNat_first valid, if_pos ⟨few, by omega⟩]
    rfl
  · rw [if_neg fits]
    -- a run may start within 32 bits and still end outside
    by_cases low : baseVector + d.toNat * l.nEvents.toNat < UInt32.size
    · rw [if_pos low, UInt32.toNat_ofNat', Nat.mod_eq_of_lt low]
      refine if_neg fun ⟨few, last⟩ => fits ⟨few, ?_⟩
      omega
    · rw [if_neg low]

/-- The vectors of a run follow each other. -/
theorem toNat_of_get?_run (valid : l.Valid) (fits : Fits l d) {i : Nat} {v : UInt32}
    (here : (run l d).get? i = some v) :
    i < l.nEvents.toNat ∧ v.toNat = baseVector + d.toNat * l.nEvents.toNat + i := by
  simp only [run, VectorTable.get?, Option.ite_none_right_eq_some, Option.some.injEq] at here
  obtain ⟨lt, rfl⟩ := here
  rw [fits.toNat_first valid, fits.toNat_ofNat lt]
  exact ⟨lt, rfl⟩

/-- Whoever has the smaller id has the smaller vectors. -/
theorem run_lt_run (valid : l.Valid) (fits : Fits l p) (fits' : Fits l q) {i j : Nat}
    {v u : UInt32} (lt : p.toNat < q.toNat) (here : (run l p).get? i = some v)
    (there : (run l q).get? j = some u) : v.toNat < u.toNat := by
  obtain ⟨bound, value⟩ := toNat_of_get?_run valid fits here
  obtain ⟨-, value'⟩ := toNat_of_get?_run valid fits' there
  have below := Nat.mul_le_mul_right l.nEvents.toNat (Nat.succ_le_of_lt lt)
  rw [Nat.succ_mul] at below
  omega

/-- Runs of different peers have no vector in common. -/
theorem run_apart (valid : l.Valid) (fits : Fits l p) (fits' : Fits l q) (other : p ≠ q)
    {i j : Nat} {v : UInt32} (here : (run l p).get? i = some v) : (run l q).get? j ≠ some v := by
  intro there
  have different : p.toNat ≠ q.toNat := fun same => other (UInt16.toNat_inj.mp same)
  rcases Nat.lt_or_gt_of_ne different with low | low
  · exact Nat.lt_irrefl _ (run_lt_run valid fits fits' low here there)
  · exact Nat.lt_irrefl _ (run_lt_run valid fits' fits low there here)

/-- A run that fits has no vector twice. -/
theorem noRepeats_run (valid : l.Valid) (fits : Fits l d) : (run l d).NoRepeats := by
  have first := fits.toNat_first valid
  obtain ⟨-, last⟩ := fits
  change (UInt32.ofNat _).toNat + _ ≤ UInt32.size
  rw [first]
  omega

/-! ### Binding and unbinding, peer by peer -/

/-- What binding a class does about one peer. -/
def bindPeer (name : String) (net : Network) (p : PeerId) : Network :=
  match net.endpoint? p with
  | some e => bindEndpoint name net e
  | none => net

/-- To bind a class is to bind it to each registered peer in turn. -/
theorem bindClass_eq (name : String) (net : Network) : bindClass name net =
    ((registered net).length, (registered net).foldl (bindPeer name) net) := rfl

/-- A peer with an endpoint is bound by it. -/
theorem bindPeer_of_endpoint? (he : net.endpoint? p = some e) (name : String) :
    bindPeer name net p = bindEndpoint name net e := by
  rw [bindPeer, he]

/-- The endpoint of a peer has another class than the default one. -/
def IsBound (net : Network) (p : PeerId) : Prop :=
  ∃ e, net.endpoint? p = some e ∧ e.identity.className ≠ defaultClass

instance (net : Network) (p : PeerId) : Decidable (IsBound net p) :=
  decidable_of_iff (((net.endpoint? p).any fun e => e.identity.className ≠ defaultClass) = true)
    (by simp [IsBound, Option.any_eq_true])

/-- What unbinding does about one peer. -/
def unbindPeer (counted : Nat × Network) (p : PeerId) : Nat × Network :=
  match counted.2.endpoint? p with
  | some e =>
    if e.identity.className = defaultClass then counted
    else (counted.1 + 1, bindEndpoint defaultClass counted.2 e)
  | none => counted

/-- To unbind classes is to unbind each registered peer in turn. -/
theorem unbindClass_eq (net : Network) :
    unbindClass net = (registered net).foldl unbindPeer (0, net) := rfl

/-- Who is bound gets the default class. -/
theorem unbindPeer_of_isBound {n : Nat} (bound : IsBound net p) :
    unbindPeer (n, net) p = (n + 1, bindPeer defaultClass net p) := by
  obtain ⟨e, he, other⟩ := bound
  simp only [unbindPeer, bindPeer, he, if_neg other]

/-- Who is not bound is passed over. -/
theorem unbindPeer_of_not {n : Nat} (unbound : ¬ IsBound net p) :
    unbindPeer (n, net) p = (n, net) := by
  unfold unbindPeer
  split
  next e he => exact if_pos (Decidable.not_not.mp fun other => unbound ⟨e, he, other⟩)
  next => rfl

/-! ### The networks of fabrics -/

/-- The networks that a fabric over a valid layout can be in. Endpoints attach with the vectors that
    the fabric gives them; they do whatever they can do, classes are bound, rings go off and are
    delivered, and what stands in the region may change in any way. -/
inductive Built (l : Layout) : Network → Prop
  | new {b : Mailbox} (valid : l.Valid) (layout : b.layout = l) : Built l (.ofMailbox b)
  | attach {net after : Network} {p : PeerId} {config : EndpointConfig} {host : HostAnswer}
      (built : Built l net) (made : Fabric.attach net p config host = .ok after) : Built l after
  | act {net : Network} (built : Built l net) (action : Action)
      (attaches : ∀ p vectors config host, action ≠ .attach p vectors config host) :
      Built l (net.perform .queue action).2
  | settle {net : Network} (built : Built l net) : Built l net.settle
  | ring {net : Network} (built : Built l net) (w : DoorbellWord) : Built l (Fabric.ring net w)
  | shutdown {net : Network} (built : Built l net) : Built l (Fabric.shutdown net)
  | bind {net : Network} (built : Built l net) (name : String) : Built l (bindClass name net).2
  | unbind {net : Network} (built : Built l net) : Built l (unbindClass net).2
  | write {net : Network} (built : Built l net) (f : Memory → Memory) : Built l (net.remember f)

/-- Everybody sits at its peer and has the vectors of that peer. -/
structure Wired (l : Layout) (net : Network) : Prop where
  seated : net.Seated l
  vectors : ∀ p e, net.endpoint? p = some e → vectors? l p = some e.vectors

/-- What keeps all standings keeps a fabric wired. -/
theorem Wired.keeps (wired : Wired l net) (keeps : net.Keeps after) : Wired l after where
  seated := wired.seated.keeps keeps
  vectors := keeps.vectors (P := fun p t => vectors? l p = some t) wired.vectors

/-- The vectors of an endpoint of a fabric. -/
theorem Wired.vectors_eq (wired : Wired l net) (he : net.endpoint? p = some e) :
    Fits l p ∧ e.vectors = run l p := by
  have given := wired.vectors p e he
  rw [vectors?_eq wired.seated.valid] at given
  split at given
  next fits => exact ⟨fits, (Option.some.inj given).symm⟩
  next => cases given

/-- A peer that attaches gets its own run of vectors. -/
theorem Wired.attach (wired : Wired l net) {config : EndpointConfig} {host : HostAnswer}
    (made : Fabric.attach net p config host = .ok after) : Wired l after ∧
      ∃ e, after.endpoint? p = some e := by
  unfold Fabric.attach at made
  split at made
  · cases made
  · rw [wired.seated.layout] at made
    rcases given : vectors? l p with _ | t
    · rw [given] at made
      cases made
    · rw [given] at made
      have acts := Network.acts_attach wired.seated.valid made
      refine ⟨⟨wired.seated.acts acts, fun q e he => ?_⟩, ?_⟩
      · -- the new endpoint has its own run, and the others have theirs
        rw [Network.endpoint?_attach made] at he
        split at he
        next same =>
          cases he
          rw [← same, given]
          rfl
        next => exact wired.vectors q e he
      · exact ⟨_, (Network.endpoint?_attach made _).trans (if_pos rfl)⟩

/-- Forgetting an endpoint keeps a fabric wired. -/
theorem Wired.forget (wired : Wired l net) (p : PeerId) : Wired l (net.forget p).2 where
  seated := wired.seated.acts (Network.acts_forget net l p)
  vectors q e he := by
    by_cases same : p = q
    · simp [Network.forget, Network.endpoint?, same] at he
    · refine wired.vectors q e ?_
      simpa [Network.forget, Network.endpoint?, Std.ExtTreeMap.getElem?_erase, same] using he

/-- Shutting a fabric down keeps all standings. -/
theorem keeps_shutdown (net : Network) : net.Keeps (shutdown net) := by
  refine List.foldlRecOn (registered net) _ (motive := net.Keeps) (.refl net)
    fun mid keeps p _ => ?_
  exact keeps.trans (mid.keeps_detach p)

/-- Binding an endpoint keeps all standings. -/
theorem Wired.keeps_bindEndpoint (wired : Wired l net) (he : net.endpoint? p = some e)
    (name : String) : net.Keeps (bindEndpoint name net e) := by
  have seat := wired.seated.seats p e he
  have named := net.keeps_setClass wired.seated.valid seat name
  unfold bindEndpoint
  split
  · exact named
  · have asked := named.trans
      ((wired.seated.keeps named).keeps_requestDump (Bell.keeps_queue l) seat)
    exact asked.trans (wired.seated.keeps asked).keeps_settle

/-- Binding a peer keeps all standings, whether it has an endpoint or not. -/
theorem Wired.keeps_bindPeer (wired : Wired l net) (name : String) (p : PeerId) :
    net.Keeps (bindPeer name net p) := by
  unfold bindPeer
  split
  next e he => exact wired.keeps_bindEndpoint he name
  next => exact .refl net

/-- Unbinding a peer keeps all standings, whether it has an endpoint or not. -/
theorem Wired.keeps_unbindPeer {counted : Nat × Network} (wired : Wired l counted.2)
    (p : PeerId) : counted.2.Keeps (unbindPeer counted p).2 := by
  obtain ⟨n, net⟩ := counted
  by_cases bound : IsBound net p
  · rw [unbindPeer_of_isBound bound]
    exact wired.keeps_bindPeer defaultClass p
  · rw [unbindPeer_of_not bound]
    exact .refl net

/-- Binding a class keeps all standings. -/
theorem Wired.keeps_bindClass (wired : Wired l net) (name : String) :
    net.Keeps (bindClass name net).2 :=
  List.foldlRecOn (registered net) (bindPeer name) (motive := net.Keeps) (.refl net)
    fun _ keeps p _ => keeps.trans ((wired.keeps keeps).keeps_bindPeer name p)

/-- Unbinding classes keeps all standings. -/
theorem Wired.keeps_unbindClass (wired : Wired l net) : net.Keeps (unbindClass net).2 :=
  List.foldlRecOn (registered net) unbindPeer
    (motive := fun counted : Nat × Network => net.Keeps counted.2) (.refl net)
    fun _ keeps p _ => keeps.trans ((wired.keeps keeps).keeps_unbindPeer p)

/-- Every fabric is wired. -/
theorem Built.wired (built : Built l net) : Wired l net := by
  induction built with
  | @new b valid layout =>
    have nobody : ∀ p, (Network.ofMailbox b).endpoint? p = none := fun p => by
      simp [Network.ofMailbox, Network.endpoint?]
    exact ⟨⟨layout, valid, fun p e he => by simp [nobody] at he⟩, fun p e he => by
      simp [nobody] at he⟩
  | attach _ made wired => exact (wired.attach made).1
  -- an action that makes or takes away no endpoint keeps the vectors of each
  | @act net _ action attaches wired =>
    by_cases comes : action.ComesOrGoes
    · cases action with
      | attach p vectors config host => exact absurd rfl (attaches p vectors config host)
      | forget p => exact wired.forget p
      | _ => exact absurd comes id
    · exact wired.keeps (wired.seated.keeps_perform (Bell.keeps_queue l) comes)
  | settle _ wired => exact wired.keeps wired.seated.keeps_settle
  | @ring net _ w wired =>
    have queued : net.Keeps (net.enqueue w) := ⟨rfl, rfl, rfl, fun _ => rfl⟩
    exact wired.keeps (queued.trans (wired.seated.keeps queued).keeps_settle)
  | shutdown _ wired => exact wired.keeps (keeps_shutdown _)
  | bind _ name wired => exact wired.keeps (wired.keeps_bindClass name)
  | unbind _ wired => exact wired.keeps wired.keeps_unbindClass
  | write _ f wired =>
    obtain ⟨⟨layout, valid, seats⟩, vectors⟩ := wired
    exact ⟨⟨layout, valid, seats⟩, vectors⟩

/-! ### Attaching -/

/-- Only fabrics run out of vectors. -/
theorem attach_ne_vectorOverflow {vectors : VectorTable} {config : EndpointConfig}
    {host : HostAnswer} {n : UInt64} :
    net.attach l p vectors config host ≠ .error (.vectorOverflow d n) := by
  intro refused
  unfold Network.attach Network.claim at refused
  split at refused
  next fault claimed =>
    cases refused
    split at claimed
    · cases claimed
    · split at claimed
      · cases claimed
      · split_ifs at claimed <;> cases claimed
  next => cases refused

/-- Attaching fails for a peer that is registered, and for one whose vectors do not fit. -/
theorem Wired.attach_eq (wired : Wired l net) (d : PeerId) (config : EndpointConfig)
    (host : HostAnswer) :
    Fabric.attach net d config host =
      if IsRegistered net d then .error (.alreadyAttached d)
      else if Fits l d then net.attach l d (run l d) config host
      else .error (.vectorOverflow d l.nEvents) := by
  unfold Fabric.attach
  split
  · rfl
  · rw [wired.seated.layout, vectors?_eq wired.seated.valid]
    by_cases fits : Fits l d
    · rw [if_pos fits, if_pos fits]
    · rw [if_neg fits, if_neg fits]

/-- Whoever is registered has a run of vectors that fits. -/
theorem Wired.fits_of_registered (wired : Wired l net) (on : IsRegistered net d) : Fits l d := by
  unfold IsRegistered at on
  obtain ⟨e, he, -⟩ := Option.map_eq_some_iff.mp on
  exact (wired.vectors_eq he).1

/-- Attaching overflows the vectors iff the run of the peer does not fit. -/
theorem Wired.attach_eq_vectorOverflow_iff (wired : Wired l net) (d : PeerId)
    (config : EndpointConfig) (host : HostAnswer) :
    Fabric.attach net d config host = .error (.vectorOverflow d l.nEvents) ↔ ¬ Fits l d := by
  rw [wired.attach_eq]
  by_cases on : IsRegistered net d
  · rw [if_pos on]
    simp [wired.fits_of_registered on]
  · by_cases fits : Fits l d
    · simp [on, fits, attach_ne_vectorOverflow]
    · simp [on, fits]

/-! ### Sending and hearing -/

/-- The ring of a send that succeeds. -/
theorem ring_of_send (seated : net.Seated l) (seat : e.Seated l p) {busyPeers : List PeerId}
    {mode : WaitMode} {dest : Destination} {message : List UInt8} {len : Nat}
    (sent : net.send .queue busyPeers e mode dest message = (.ok len, after)) :
    ∃ w, after.rings = net.rings ++ [w] ∧ w.origin = p ∧ dest.resolve l = .ok w.dest.toUInt64 := by
  unfold Network.send at sent
  rcases admitted : e.admit dest message with fault | target
  · simp [admitted] at sent
  · obtain ⟨resolved, -, -⟩ := Network.admit_eq_ok seat.layout admitted
    simp only [admitted] at sent
    split at sent
    · cases sent
    · cases sent
      -- a ring names its destination in 16 bits, which is all there is of the id of a peer
      have whole := (Destination.hasSlot_of_resolve resolved).toUInt16_toUInt64 seated.valid
      refine ⟨.new e.peer target.toUInt16, rfl, ?_, ?_⟩
      · rw [DoorbellWord.origin_new, seat.peer]
      · rw [DoorbellWord.dest_new, whole, resolved]

/-- An endpoint hears a peer: it has a vector for it, which no other peer raises; and it takes the
    message in the slot of that peer if this vector is raised, or if the peer rings while the
    endpoint listens. -/
structure Hears (l : Layout) (net : Network) (f : Endpoint) (o : PeerId) : Prop where
  vector : ∃ v, f.vectors.vectorFor o = some v ∧ f.vectors.peerFor v = some o ∧
    (∀ other, f.vectors.vectorFor other = some v → other = o) ∧
    ∀ ring busyPeers, net.interrupt ring busyPeers f v =
      (.handled (net.dispatch ring busyPeers f o (l.slotAt o)).1,
        (net.dispatch ring busyPeers f o (l.slotAt o)).2)
  rung : ∀ w : DoorbellWord, w.origin = o → net.endpoint? w.dest = some f → f.listening →
    ∀ ring busyPeers, net.raise ring busyPeers w =
      (.reached (.handled (net.dispatch ring busyPeers f o (l.slotAt o)).1),
        (net.dispatch ring busyPeers f o (l.slotAt o)).2)

/-- There is a vector for every peer that owns a slot. -/
theorem exists_vectorFor (valid : l.Valid) {o : PeerId} (owner : l.HasSlot o.toUInt64)
    (d : PeerId) : ∃ v, (run l d).vectorFor o = some v := by
  have place := owner.toNat_lt_nEvents valid
  rw [UInt16.toNat_toUInt64] at place
  exact VectorTable.exists_get?_of_lt (t := run l d) place

/-- Who is there hears every peer that owns a slot. -/
theorem Wired.hears (wired : Wired l net) (he : net.endpoint? q = some f) {o : PeerId}
    (owner : l.HasSlot o.toUInt64) : Hears l net f o := by
  have valid := wired.seated.valid
  obtain ⟨fits, vectors⟩ := wired.vectors_eq he
  obtain ⟨v, raised⟩ := exists_vectorFor valid owner q
  have distinct := noRepeats_run valid fits
  rw [← vectors] at raised distinct
  have behind := VectorTable.peerFor_of_vectorFor distinct raised
  have slot : f.slotOf? o = some (l.slotAt o) := by
    rw [Endpoint.slotOf?, (wired.seated.seats q f he).layout, Layout.slot?_of_hasSlot valid owner]
  -- the vector leads to the slot of the sender, whatever the doorbell of the answer
  have handled : ∀ ring busyPeers, net.interrupt ring busyPeers f v =
      (.handled (net.dispatch ring busyPeers f o (l.slotAt o)).1,
        (net.dispatch ring busyPeers f o (l.slotAt o)).2) := fun ring busyPeers => by
    simp only [Network.interrupt, behind, slot]
  refine ⟨⟨v, raised, behind, fun other raised' => ?_, handled⟩, ?_⟩
  · have behind' := VectorTable.peerFor_of_vectorFor distinct raised'
    exact Option.some.inj (behind'.symm.trans behind)
  · rintro w rfl here listens ring busyPeers
    simp only [Network.raise, here, listens, raised, handled, if_true]

/-! ### Faithful routing -/

/-- Rings of a fabric reach whom they are for and tell who they are from. -/
structure Faithful (l : Layout) (net : Network) : Prop where
  /-- A peer gets its run of vectors if and only if that fits. -/
  table : ∀ d, vectors? l d = if Fits l d then some (run l d) else none
  /-- What does not fit is refused for this reason, and nothing else is. -/
  refused : ∀ d config host,
    Fabric.attach net d config host = .error (.vectorOverflow d l.nEvents) ↔
    ¬ Fits l d
  /-- Who attaches has its run. -/
  given : ∀ d config host after, Fabric.attach net d config host = .ok after →
    ∃ e, after.endpoint? d = some e ∧ e.vectors = run l d
  /-- Endpoints of different peers have no vector in common. -/
  apart : ∀ p q e f, p ≠ q → net.endpoint? p = some e → net.endpoint? q = some f →
    ∀ i j v, e.vectors.get? i = some v → f.vectors.get? j ≠ some v
  /-- A send that succeeds rings with the whole ids of its peer and of the one it resolves to. -/
  rings : ∀ o e busyPeers mode dest message len after, net.endpoint? o = some e →
    net.send .queue busyPeers e mode dest message = (.ok len, after) →
      ∃ w, after.rings = net.rings ++ [w] ∧ w.origin = o ∧
        dest.resolve l = .ok w.dest.toUInt64 ∧
        ∀ f, after.endpoint? w.dest = some f → Hears l after f o
  /-- Whoever has attached hears every peer with a slot. -/
  heard : ∀ t f o, net.endpoint? t = some f → l.HasSlot o.toUInt64 → Hears l net f o

/-- In a wired fabric vectors and peers belong together. -/
theorem Wired.faithful (wired : Wired l net) : Faithful l net where
  table := vectors?_eq wired.seated.valid
  refused := wired.attach_eq_vectorOverflow_iff
  given d config host after made := by
    obtain ⟨wired', e, he⟩ := wired.attach made
    exact ⟨e, he, (wired'.vectors_eq he).2⟩
  -- each endpoint has the run of its peer, and runs of different peers have nothing in common
  apart p q e f other he hf i j v here := by
    obtain ⟨fits, vectors⟩ := wired.vectors_eq he
    obtain ⟨fits', vectors'⟩ := wired.vectors_eq hf
    rw [vectors] at here
    rw [vectors']
    exact run_apart wired.seated.valid fits fits' other here
  rings o e busyPeers mode dest message len after he sent := by
    have seat := wired.seated.seats o e he
    obtain ⟨w, rings, origin, resolved⟩ := ring_of_send wired.seated seat sent
    have keeps := wired.seated.keeps_send (Bell.keeps_queue l) seat busyPeers mode dest message
    rw [sent] at keeps
    exact ⟨w, rings, origin, resolved, fun f hf => (wired.keeps keeps).hears hf seat.owner⟩
  heard t f o hf owner := wired.hears hf owner

/-- **Routing.** Every fabric over a valid layout routes its rings faithfully. And in every table
    that an endpoint can be given, an origin is found again by its vector if and only if no smaller
    one has that vector too; this is the table that an endpoint has which is attached with it. -/
theorem faithful_of_built : (∀ l net, Built l net → Faithful l net) ∧
    (∀ (t : VectorTable) (o : PeerId),
      (∃ vs, t = .list vs) ∨ (∃ count first, VectorTable.sequential count first = some t) →
      o.toNat < t.size → ((∃ v, t.vectorFor o = some v ∧ t.peerFor v = some o) ↔
        ∀ i < o.toNat, t.get? i ≠ t.get? o.toNat)) ∧
    ∀ (net : Network) l p t config host after, net.attach l p t config host = .ok after →
      (after.endpoint? p).map Endpoint.vectors = some t := by
  refine ⟨fun _ _ built => built.wired.faithful,
    fun _ _ => VectorTable.peerFor_vectorFor_iff, fun net l p t config host after made => ?_⟩
  rw [Network.endpoint?_attach made, if_pos rfl]
  rfl

/-- Two peers attach to a new mailbox. In a table with a repeat the second place is lost. -/
theorem faithful_of_built_small :
    (∃ first second, Fabric.attach (.ofMailbox smallMailbox) 1 {} none = .ok first ∧
      Fabric.attach first 2 {} none = .ok second ∧ Faithful smallLayout second) ∧
    ¬ ∃ v, (VectorTable.list [7, 8, 7]).vectorFor 2 = some v ∧
      (VectorTable.list [7, 8, 7]).peerFor v = some 2 := by
  have both : ((Fabric.attach (.ofMailbox smallMailbox) 1 {} none).bind fun net =>
      Fabric.attach net 2 {} none).toBool := by decide +kernel
  constructor
  · rcases made : Fabric.attach (.ofMailbox smallMailbox) 1 {} none with fault | first
    · simp [made, Except.bind, Except.toBool] at both
    rcases made' : Fabric.attach first 2 {} none with fault | second
    · simp [made, made', Except.bind, Except.toBool] at both
    have valid : smallLayout.Valid := Mailbox.valid_of_create create_small
    have built := ((Built.new valid (Mailbox.eq_of_create create_small).1).attach made).attach made'
    exact ⟨first, second, rfl, made', faithful_of_built.1 smallLayout second built⟩
  · rw [faithful_of_built.2.1 _ _ (.inl ⟨_, rfl⟩) (by decide)]
    exact fun alone => alone 0 (by decide) rfl

end Fabric

end SharedMailbox
