import SharedMailbox.Proofs.Classes
import SharedMailbox.Proofs.Outcomes
import SharedMailbox.Proofs.Tally

namespace SharedMailbox

/-!
# Binding a class

When a class is bound every client asks the coordinator for a dump, and nobody takes what arrives.
Each dump displaces the one before, which frees the slot of its sender, so that only the last client
is left waiting.

* `Fabric.Built.wellFormed`: every fabric is well-formed.
* `Fabric.clients`, `Fabric.registered_eq`: the register lists the clients, and last the
  coordinator.
* `View.Dumps`, `Dumps.install`: what the dump of one client makes of what the dumps of those before
  have left.
* `Network.WellFormed.requestDump_of_idle`, `WellFormed.dump`: a dump that finds its slot idle is
  posted, arrives and is counted.
* `Fabric.Dumped`, `Dumped.bindEndpoint`, `Dumped.foldl`: one client is bound, and all of them.
* `Fabric.binds_of_built`: what binding and unbinding come to in a fabric.
-/

/-! ### Fabrics are well-formed -/

namespace Network

variable {net : Network} {l : Layout} {stray : Prop} {p : PeerId} {e : Endpoint}

/-- Deliveries keep the network well-formed, however many there are. -/
theorem WellFormed.deliverMany (count : Nat) (wf : WellFormed l stray net) :
    WellFormed l stray (deliverMany count net).2 := by
  induction count generalizing net with
  | zero => exact wf
  | succ count ih =>
    unfold Network.deliverMany
    rcases delivered : net.deliver? 0 with _ | ⟨w, result, mid⟩
    · exact wf
    · exact ih (wf.deliver? delivered).1

/-- Settling keeps the network well-formed. -/
theorem WellFormed.settle (wf : WellFormed l stray net) : WellFormed l stray net.settle :=
  wf.deliverMany _

/-- Binding an endpoint keeps the network well-formed. -/
theorem WellFormed.bindEndpoint (wf : WellFormed l stray net) (he : net.endpoint? p = some e)
    (name : String) : WellFormed l stray (Fabric.bindEndpoint name net e) := by
  obtain ⟨named, -⟩ := wf.setClass he name
  unfold Fabric.bindEndpoint
  split
  · exact named
  · exact (named.requestDump (wf.fits p e he)).1.settle

/-- Binding a peer keeps the network well-formed, whether it has an endpoint or not. -/
theorem WellFormed.bindPeer (wf : WellFormed l stray net) (name : String) (p : PeerId) :
    WellFormed l stray (Fabric.bindPeer name net p) := by
  unfold Fabric.bindPeer
  split
  next e he => exact wf.bindEndpoint he name
  next => exact wf

/-- Unbinding a peer keeps the network well-formed, whether it has an endpoint or not. -/
theorem WellFormed.unbindPeer {counted : Nat × Network} (wf : WellFormed l stray counted.2)
    (p : PeerId) : WellFormed l stray (Fabric.unbindPeer counted p).2 := by
  obtain ⟨n, net⟩ := counted
  by_cases bound : Fabric.IsBound net p
  · rw [Fabric.unbindPeer_of_isBound bound]
    exact wf.bindPeer defaultClass p
  · rwa [Fabric.unbindPeer_of_not bound]

end Network

namespace Fabric

variable {net : Network} {l : Layout}

/-- Whatever the operations of a fabric lead to is well-formed. -/
theorem Built.wellFormed (built : Built l net) : net.WellFormed l True := by
  induction built with
  | @new b valid layout =>
    exact ⟨layout, valid, fun p e he => by simp [Network.ofMailbox, Network.endpoint?] at he⟩
  | @attach net after p config host _ made wf =>
    unfold Fabric.attach at made
    split at made
    · cases made
    · split at made
      · cases made
      · exact (wf.attach (.inl trivial) made).1
  | act _ action _ wf =>
    exact (wf.perform (Network.abides_lax _ action)).1
  | settle _ wf => exact wf.settle
  | @ring net _ w wf =>
    have queued : (net.enqueue w).WellFormed l True := ⟨wf.layout, wf.valid, wf.fits⟩
    exact queued.settle
  | @shutdown net _ wf =>
    exact List.foldlRecOn (registered net) _ (motive := Network.WellFormed l True) wf
      fun mid wf p _ => (wf.detach p).1
  | @bind net _ name wf =>
    exact List.foldlRecOn (registered net) (bindPeer name) (motive := Network.WellFormed l True) wf
      fun mid wf p _ => wf.bindPeer name p
  | @unbind net _ wf =>
    exact List.foldlRecOn (registered net) unbindPeer
      (motive := fun counted : Nat × Network => counted.2.WellFormed l True) wf
      fun counted wf p _ => wf.unbindPeer p
  | write _ f wf => exact wf.remember f

/-! ### Clients -/

/-- The registered peers but for the coordinator, ascending. -/
def clients (l : Layout) (net : Network) : List PeerId :=
  (registered net).filter fun p => p.toUInt64 ≠ l.coordinator

variable {c p : PeerId}

/-- The clients are all who are registered but the coordinator. -/
theorem mem_clients (coordinator : l.coordinator = c.toUInt64) :
    p ∈ clients l net ↔ p ∈ registered net ∧ p ≠ c := by
  rw [clients, List.mem_filter, coordinator, decide_eq_true_eq, ne_eq, UInt16.toUInt64_inj]

/-- The coordinator has the highest id. -/
theorem lt_of_mem_clients (seated : net.Seated l) (coordinator : l.coordinator = c.toUInt64)
    (there : p ∈ clients l net) : p < c := by
  obtain ⟨on, other⟩ := (mem_clients coordinator).mp there
  obtain ⟨e, he, -⟩ := isRegistered_iff.mp (mem_registered.mp on)
  have low := (seated.seats p e he).owner.le_maxPeer
  rw [seated.valid.maxPeer_eq, coordinator, UInt64.le_iff_toNat_le, UInt16.toNat_toUInt64,
    UInt16.toNat_toUInt64] at low
  have different : p.toNat ≠ c.toNat := fun same => other (UInt16.toNat_inj.mp same)
  rw [UInt16.lt_iff_toNat_lt]
  omega

/-- The register lists the clients, and the coordinator last. -/
theorem registered_eq (seated : net.Seated l) (coordinator : l.coordinator = c.toUInt64)
    (here : c ∈ registered net) : registered net = clients l net ++ [c] := by
  refine (eq_registered ?_ fun p => ?_).symm
  · rw [List.pairwise_append]
    refine ⟨(pairwise_registered net).filter _, List.pairwise_singleton _ c, fun p hp q hq => ?_⟩
    rw [List.mem_singleton.mp hq]
    exact lt_of_mem_clients seated coordinator hp
  · rw [List.mem_append, List.mem_singleton, mem_clients coordinator, ← mem_registered]
    by_cases same : p = c
    · subst same
      simp [here]
    · simp [same]

end Fabric

/-! ### Dumps -/

namespace View

/-- No ring is under way, and all that the coordinator `c` has is the pending dump of the last
    client that sent one, if there is one. The slots of the other clients are idle. -/
structure Dumps (c : PeerId) (peers : List PeerId) (last : Option PeerId) (v : View) : Prop where
  rings : v.rings = []
  inbox : ∃ i, v.inbox c = some i ∧ i.inHand = none ∧
    i.pending = last.map fun p => ⟨p, 4, i.generation⟩
  busy : ∀ p ∈ last, (v.staged p).len = 4 ∧ (v.staged p).message = Link.switchDump
  idle : ∀ p ∈ peers, last ≠ some p → (v.staged p).len = 0

variable {v : View} {c p : PeerId} {peers : List PeerId} {last : Option PeerId} {i : Inbox}

/-- A dump displaces the one before it, which frees the slot of its sender. -/
theorem Dumps.install (dumps : v.Dumps c peers last) (here : v.inbox c = some i)
    (new : last ≠ some p) (target : UInt64) :
    (((v.post p target Link.switchDump).drop 0).install c i ⟨p, 4, i.generation + 1⟩).Dumps
      c peers (some p) := by
  obtain ⟨j, there, hand, pending⟩ := dumps.inbox
  obtain rfl := Option.some.inj (here.symm.trans there)
  -- nothing is in hand, so that whatever is pending is given up
  have stomped : i.stomped = i.pending := by
    cases pending : i.pending <;> simp [Inbox.stomped, Inbox.Holds, hand, pending]
  have size : Link.switchDump.length < UInt64.size := by decide
  -- it is the dump of the client before, and never one of this client
  have given : ∀ q, last ≠ some q → ∀ d ∈ i.pending, d.sender ≠ q := by
    rintro q different d hd rfl
    rw [Option.mem_def.mp hd, eq_comm, Option.map_eq_some_iff] at pending
    obtain ⟨q, sent, rfl⟩ := pending
    exact different sent
  rw [View.install, stomped]
  generalize posted : ((v.post p target Link.switchDump).drop 0).setInbox c
    (some (i.accept ⟨p, 4, i.generation + 1⟩)) = u
  have own : (u.giveUp i.pending).staged p = (v.staged p).put target Link.switchDump := by
    rw [staged_giveUp_of_ne u (given p new), ← posted]
    exact v.staged_post_self p target Link.switchDump
  have other : ∀ q, q ≠ p → u.staged q = v.staged q := by
    intro q different
    rw [← posted]
    exact v.staged_post_of_ne different target Link.switchDump
  refine ⟨?_, ⟨i.accept ⟨p, 4, i.generation + 1⟩, ?_, hand, rfl⟩, ?_, fun q there different => ?_⟩
  · rw [rings_giveUp, ← posted, rings_setInbox, rings_drop, rings_post, dumps.rings]
    rfl
  · rw [inbox_giveUp, ← posted, inbox_setInbox_self]
  · rintro _ ⟨rfl⟩
    rw [own]
    exact ⟨rfl, Staged.message_put size⟩
  · have apart : q ≠ p := fun same => different (same ▸ rfl)
    by_cases before : last = some q
    · -- the dump of the client before is given up
      obtain ⟨busy, -⟩ := dumps.busy q before
      rw [pending, before]
      have cleared := u.staged_giveUp_self ⟨q, 4, i.generation⟩
      rw [Option.map_some, cleared, other q apart, ← busy]
      exact Staged.len_clear_self
    · rw [staged_giveUp_of_ne u (given q before), other q apart]
      exact dumps.idle q there before

end View

namespace Network

variable {net : Network} {l : Layout} {c p : PeerId} {e f : Endpoint}

/-- A dump that finds its slot idle is posted. -/
theorem WellFormed.requestDump_of_idle (wf : WellFormed l True net)
    (coordinator : l.coordinator = c.toUInt64) (room : 4 < l.maxPayload) (fits : e.Fits l True p)
    (idle : (net.view.staged p).len = 0) :
    Appears l (net.view.post p c.toUInt64 Link.switchDump) net.bare?
      (net.requestDump .queue e).2 := by
  have resolved : (Destination.coordinator l).resolve l = .ok c.toUInt64 := by
    rw [Destination.resolve_coordinator wf.valid, coordinator]
  have records := net.bare?_send [] e .sleep (Destination.coordinator l) Link.switchDump
  have some : Link.switchDump ≠ [] := by decide
  have admits : net.view.Admits l ⟨p, Destination.coordinator l, Link.switchDump⟩ c.toUInt64 :=
    ⟨resolved, some, room, idle⟩
  obtain ⟨-, wf', view⟩ := wf.send_of_admits fits admits [] .sleep (by simp)
  rw [Network.requestDump, fits.layout]
  exact ⟨wf', view, records⟩

/-- What a message for the consumer counts whose ring is the only one. -/
theorem WellFormed.tally?_settle_plain (wf : WellFormed l True net)
    (one : net.rings = [.new p c]) (hf : net.endpoint? c = some f) (knows : f.Knows p)
    (owner : l.HasSlot p.toUInt64) (busy : (net.view.staged p).len ≠ 0)
    (plain : ¬ Link.IsRequest (net.view.staged p).message) {d : Delivery}
    (fresh : f.inbox.fresh? p (net.view.staged p).len = some d) :
    net.settle.tally? c = some f.tally.receive := by
  have here : net.view.inbox c = some f.inbox := inbox?_of_endpoint? hf
  obtain ⟨settled, -⟩ := wf.appears.settle_plain one here (bare?_of_endpoint? hf)
    (knows.of_bare rfl) owner busy plain fresh
  have there : (l.slotAt p).staged (net.dequeue 0).memory = net.view.staged p := by
    rw [← wf.layout]
    rfl
  rw [settled, deliver_of_knows wf one hf knows owner]
  rw [← there] at busy plain fresh
  have hf' : (net.dequeue 0).endpoint? c = some f := hf
  exact tally?_dispatch_plain hf' (wf.fits c f hf).peer [] busy plain fresh

/-- The dump arrives at the coordinator, if that knows the sender and has none of its dumps yet. -/
theorem WellFormed.dump (wf : WellFormed l True net) (coordinator : l.coordinator = c.toUInt64)
    (room : 4 < l.maxPayload) (fits : e.Fits l True p) (other : p ≠ c) (silent : net.rings = [])
    (idle : (net.view.staged p).len = 0) (hf : net.endpoint? c = some f) (knows : f.Knows p)
    (new : f.inbox.pending.map Delivery.sender ≠ some p) :
    Appears l (((net.view.post p c.toUInt64 Link.switchDump).drop 0).install c f.inbox
        ⟨p, 4, f.inbox.generation + 1⟩) net.bare? (net.requestDump .queue e).2.settle ∧
      (net.requestDump .queue e).2.settle.tally? c = some f.tally.receive := by
  have size : Link.switchDump.length < UInt64.size := by decide
  have plain : ¬ Link.IsRequest Link.switchDump := by decide +kernel
  have seat : e.Seated l p := ⟨fits.peer, fits.layout, fits.owner⟩
  have hf' := ((net.submits_requestDump seat).others c (Ne.symm other)).trans hf
  have shown := wf.requestDump_of_idle coordinator room fits idle
  have one : (net.view.post p c.toUInt64 Link.switchDump).rings = [.new p c] := by
    rw [View.rings_post, rings_view, silent, List.nil_append, UInt16.toUInt16_toUInt64]
  have staged := net.view.staged_post_self p c.toUInt64 Link.switchDump
  generalize net.view.post p c.toUInt64 Link.switchDump = v at shown one staged ⊢
  have busy : (v.staged p).len ≠ 0 := by
    rw [staged]
    exact Staged.len_put_ne_zero size (by decide)
  have request : ¬ Link.IsRequest (v.staged p).message := by
    rwa [staged, Staged.message_put size]
  have fresh : f.inbox.fresh? p (v.staged p).len = some ⟨p, 4, f.inbox.generation + 1⟩ := by
    rw [staged]
    exact Inbox.fresh?_eq_some.mpr ⟨new, rfl⟩
  have here : v.inbox c = some f.inbox := by
    rw [← shown.view]
    exact inbox?_of_endpoint? hf'
  obtain ⟨-, arrived, -⟩ := shown.settle_plain one here (bare?_of_endpoint? hf)
    (knows.of_bare rfl) fits.owner busy request fresh
  refine ⟨arrived, ?_⟩
  rw [← shown.view] at busy request fresh
  exact shown.wellFormed.tally?_settle_plain (shown.rings.trans one) hf' knows fits.owner busy
    request fresh

end Network

/-! ### Bursts -/

namespace Fabric

variable {net : Network} {l : Layout} {c p : PeerId} {e : Endpoint} {peers : List PeerId}
  {last : Option PeerId} {n : UInt64}

/-- A fabric in which the dumps of some clients have arrived at the coordinator `c`, which is
    registered. It counts `n` messages, displaced or pending. -/
structure Dumped (l : Layout) (c : PeerId) (peers : List PeerId) (last : Option PeerId) (n : UInt64)
    (net : Network) : Prop where
  wellFormed : net.WellFormed l True
  wired : Wired l net
  view : net.view.Dumps c peers last
  registered : IsRegistered net c
  count : ∃ t, net.tally? c = some t ∧ t.stomped + UInt64.ofNat t.pending = n

/-- Naming an endpoint concerns no message. -/
theorem Dumped.setClass (dumped : Dumped l c peers last n net) (he : net.endpoint? p = some e)
    (name : String) : Dumped l c peers last n (net.setClass e name) := by
  obtain ⟨wf, wired, view, registered, t, tally, count⟩ := dumped
  obtain ⟨named, shown⟩ := wf.setClass he name
  have seat := wired.seated.seats p e he
  have renames := wired.seated.renames_setClass he name
  have same : (net.setClass e name).tally? c = net.tally? c := by
    by_cases own : c = p
    · subst own
      exact net.tally?_setClass seat.peer name
    · exact (net.acts_setClass seat name).tally?_of_ne own
  exact ⟨named, wired.keeps renames.keeps, by rwa [shown],
    (isRegistered_of_renames renames).mpr registered, t, same.trans tally, count⟩

/-- Who is registered in a fabric knows every peer that owns a slot. -/
theorem Wired.knows {f : Endpoint} (wired : Wired l net) (hf : net.endpoint? c = some f)
    (listening : f.listening = true) (owner : l.HasSlot p.toUInt64) : f.Knows p := by
  obtain ⟨fits, vectors⟩ := wired.vectors_eq hf
  have valid := wired.seated.valid
  refine Endpoint.knows_of_noRepeats valid owner listening ?_ ?_
  · rw [vectors]
    exact noRepeats_run valid fits
  · rw [vectors]
    exact Nat.le_refl _

/-- The dump of one more client displaces the one before. -/
theorem Dumped.bindEndpoint (dumped : Dumped l c peers last n net)
    (coordinator : l.coordinator = c.toUInt64) (room : 4 < l.maxPayload)
    (he : net.endpoint? p = some e) (there : p ∈ peers) (other : p ≠ c) (new : last ≠ some p)
    (name : String) : Dumped l c peers (some p) (n + 1) (bindEndpoint name net e) := by
  have fits := dumped.wellFormed.fits p e he
  have renames := renames_bindEndpoint dumped.wired.seated he name
  have client : ¬ e.IsCoordinator := by
    rw [Endpoint.IsCoordinator, fits.peer, fits.layout, coordinator, UInt16.toUInt64_inj]
    exact other
  have wired := dumped.wired.keeps renames.keeps
  have registered := (isRegistered_of_renames renames).mpr dumped.registered
  rw [Fabric.bindEndpoint, if_neg client] at wired registered ⊢
  obtain ⟨wf, wired', view, registered', t, tally, rfl⟩ := dumped.setClass he name
  obtain ⟨f, hf, listening⟩ := isRegistered_iff.mp registered'
  obtain ⟨i, here, -, pending⟩ := view.inbox
  obtain rfl : f.inbox = i := Option.some.inj ((Network.inbox?_of_endpoint? hf).symm.trans here)
  -- the pending dump is of the client before, which is another one
  have first : f.inbox.pending.map Delivery.sender ≠ some p := by
    rw [pending, Option.map_map]
    intro same
    obtain ⟨q, sent, rfl⟩ := Option.map_eq_some_iff.mp same
    exact new sent
  obtain ⟨arrived, counted⟩ := wf.dump coordinator room fits other view.rings
    (view.idle p there new) hf (wired'.knows hf listening fits.owner) first
  refine ⟨arrived.wellFormed, wired, ?_, registered, _, counted, ?_⟩
  · rw [arrived.view]
    exact view.install here new c.toUInt64
  · rw [Network.tally?_of_endpoint? hf, Option.some.injEq] at tally
    rw [← tally]
    rfl

/-- Clients are bound one after another, each of them once. -/
theorem Dumped.foldl (dumped : Dumped l c peers last n net)
    (coordinator : l.coordinator = c.toUInt64) (room : 4 < l.maxPayload) (name : String)
    (rest : List PeerId) (distinct : rest.Nodup)
    (new : ∀ p ∈ rest, last ≠ some p)
    (able : ∀ p ∈ rest, p ∈ peers ∧ p ≠ c ∧ IsRegistered net p) :
    Dumped l c peers (rest.getLast?.or last) (n + UInt64.ofNat rest.length)
      (rest.foldl (bindPeer name) net) := by
  -- Induction on the clients that are left, with the last dump and the count generalized.
  induction rest generalizing net last n with
  | nil =>
    have none : UInt64.ofNat ([] : List PeerId).length = 0 := rfl
    rwa [none, UInt64.add_zero]
  | cons p rest ih =>
    obtain ⟨first, distinct⟩ := List.nodup_cons.mp distinct
    obtain ⟨there, other, on⟩ := able p List.mem_cons_self
    obtain ⟨e, he, -⟩ := isRegistered_iff.mp on
    have bound := dumped.bindEndpoint coordinator room he there other
      (new p List.mem_cons_self) name
    have renames := renames_bindEndpoint dumped.wired.seated he name
    have all := ih bound distinct (fun q hq same => first (Option.some.inj same ▸ hq)) fun q hq =>
      have ⟨there, other, on⟩ := able q (List.mem_cons_of_mem p hq)
      ⟨there, other, (isRegistered_of_renames renames).mpr on⟩
    have ends : (p :: rest).getLast?.or last = rest.getLast?.or (some p) := by
      rw [List.getLast?_cons]
      cases rest.getLast? <;> rfl
    rw [List.foldl_cons, bindPeer_of_endpoint? he, ends, List.length_cons,
      Nat.add_comm rest.length, UInt64.ofNat_add, ← UInt64.add_assoc]
    exact all

/-! ### What binding comes to -/

/-- Classes can be bound: a dump fits into a slot, the coordinator `c` and some clients are
    registered, the slots of the clients are idle, the coordinator has no delivery, and no ring is
    under way. -/
structure Ready (l : Layout) (c : PeerId) (net : Network) : Prop where
  room : 4 < l.maxPayload
  coordinator : l.coordinator = c.toUInt64
  registered : c ∈ registered net
  present : clients l net ≠ []
  idle : ∀ p ∈ clients l net, ((l.slotAt p).busy net.memory).IsIdle
  empty : ∀ i ∈ net.inbox? c, i.IsEmpty
  rings : net.rings = []

/-- What binding a class comes to: all registered endpoints have it, and of the clients only the one
    with the highest id has a message in its slot, which is what the coordinator is to take next. -/
structure Binds (l : Layout) (c : PeerId) (name : String) (net after : Network) : Prop where
  register : registered after = registered net
  named : ∀ p ∈ registered net, ∃ e, after.endpoint? p = some e ∧
    e.identity.className = name ∧ (l.slotAt p).classField after.memory = Name.toField name
  highest : ∃ p ∈ clients l net, (∀ q ∈ clients l net, q ≤ p) ∧
    (∀ q ∈ clients l net, q ≠ p → ((l.slotAt q).busy after.memory).IsIdle) ∧
    ((l.slotAt p).busy after.memory).len = 4 ∧
    (l.slotAt p).payload after.memory 4 = Link.switchDump ∧
    ∃ i, after.inbox? c = some i ∧ i.inHand = none ∧ i.pending = some ⟨p, 4, i.generation⟩
  stomps : ∃ e e', net.endpoint? c = some e ∧ after.endpoint? c = some e' ∧
    e'.metrics.incomingStomps =
      e.metrics.incomingStomps + UInt64.ofNat ((clients l net).length - 1)

/-- What unbinding comes to: all registered endpoints have the default class, and there is nothing
    left to unbind. -/
structure Unbinds (l : Layout) (net after : Network) : Prop where
  register : registered after = registered net
  named : ∀ p ∈ registered net, ∃ e, after.endpoint? p = some e ∧
    e.identity.className = defaultClass
  field : ∀ p ∈ registered net, IsBound net p →
    (l.slotAt p).classField after.memory = Name.toField defaultClass
  again : unbindClass after = (0, after)

/-- Before the first client is bound no dump has arrived, and no message is counted as pending. -/
theorem Ready.dumped (ready : Ready l c net) (wf : net.WellFormed l True) (wired : Wired l net)
    (he : net.endpoint? c = some e) :
    Dumped l c (clients l net) none e.metrics.incomingStomps net where
  wellFormed := wf
  wired := wired
  view := by
    have here := Network.inbox?_of_endpoint? he
    obtain ⟨pending, hand⟩ := ready.empty _ here
    refine ⟨ready.rings, ⟨_, here, hand, pending⟩, nofun, fun q there _ => ?_⟩
    have idle := ready.idle q there
    rw [← wf.layout] at idle
    exact idle
  registered := mem_registered.mp ready.registered
  count := by
    obtain ⟨pending, -⟩ := ready.empty _ (Network.inbox?_of_endpoint? he)
    refine ⟨e.tally, Network.tally?_of_endpoint? he, ?_⟩
    simp [Endpoint.tally, Inbox.waiting, pending]

/-- The clients are bound first, and the coordinator last. -/
theorem Ready.dumped_bindClass (ready : Ready l c net) (wf : net.WellFormed l True)
    (wired : Wired l net) (he : net.endpoint? c = some e) (name : String) :
    Dumped l c (clients l net) (clients l net).getLast?
      (e.metrics.incomingStomps + UInt64.ofNat (clients l net).length)
      (bindClass name net).2 := by
  have distinct : (clients l net).Nodup := (nodup_registered net).filter _
  -- the clients come first, for the coordinator is the last in the order of the peers
  have all := (ready.dumped wf wired he).foldl ready.coordinator ready.room name (clients l net)
    distinct nofun fun p there =>
      have ⟨on, other⟩ := (mem_clients ready.coordinator).mp there
      ⟨there, other, mem_registered.mp on⟩
  rw [Option.or_none] at all
  obtain ⟨f, hf, -⟩ := isRegistered_iff.mp all.registered
  have fits := all.wellFormed.fits c f hf
  have coordinator : f.IsCoordinator := by
    rw [Endpoint.IsCoordinator, fits.peer, fits.layout, ready.coordinator]
  have named := all.setClass hf name
  rw [bindClass_eq, registered_eq wired.seated ready.coordinator ready.registered,
    List.foldl_append, List.foldl_cons, List.foldl_nil, bindPeer_of_endpoint? hf, bindEndpoint,
    if_pos coordinator]
  exact named

/-- A class is bound. -/
theorem Ready.binds (ready : Ready l c net) (wf : net.WellFormed l True) (wired : Wired l net)
    (name : String) : Binds l c name net (bindClass name net).2 := by
  obtain ⟨e, he, -⟩ := isRegistered_iff.mp (mem_registered.mp ready.registered)
  obtain ⟨-, renames⟩ := renames_bindClass wired.seated name
  obtain ⟨wf', -, view, registered', t, tally, count⟩ := ready.dumped_bindClass wf wired he name
  generalize (bindClass name net).2 = after at *
  obtain ⟨e', he', -⟩ := isRegistered_iff.mp registered'
  have last := List.getLast?_eq_some_getLast ready.present
  generalize (clients l net).getLast ready.present = p at last
  obtain ⟨i, here, hand, pending⟩ := view.inbox
  rw [last, Option.map_some] at pending
  have there := List.mem_of_getLast? last
  have staged : ∀ q, after.view.staged q = (l.slotAt q).staged after.memory := fun q => by
    rw [← wf'.layout]
    rfl
  -- the endpoints are visited in the order of their peers
  have highest : ∀ q ∈ clients l net, q ≤ p := by
    have ascending : (clients l net).Pairwise (· < ·) := (pairwise_registered net).filter _
    obtain ⟨before, split⟩ := List.getLast?_eq_some_iff.mp last
    rw [split, List.pairwise_append] at ascending
    rw [split]
    intro q on
    rcases List.mem_append.mp on with early | final
    · exact UInt16.le_of_lt (ascending.2.2 q early p List.mem_cons_self)
    · rw [List.mem_singleton.mp final]
      exact UInt16.le_refl p
  refine ⟨registered_of_renames renames, fun q on => ?_, ⟨p, there, highest, fun q on other => ?_,
    ?_, ?_, i, here, hand, pending⟩, e, e', he, he', ?_⟩
  · obtain ⟨f, hf, -⟩ := isRegistered_iff.mp (mem_registered.mp on)
    exact renames.named on hf
  · have idle := view.idle q on (by rw [last]; exact fun same => other (Option.some.inj same).symm)
    rwa [staged] at idle
  · obtain ⟨len, -⟩ := view.busy p last
    rwa [staged] at len
  · obtain ⟨len, message⟩ := view.busy p last
    rw [staged] at len message
    rw [← message, ← Slot.payload_len_staged, len]
    rfl
  · rw [Network.tally?_of_endpoint? he', Option.some.injEq] at tally
    obtain rfl : e'.inbox = i :=
      Option.some.inj ((Network.inbox?_of_endpoint? he').symm.trans here)
    -- the pending dump counts as a receipt that is no stomp
    have waits : e'.tally.pending = 1 := by
      simp [Endpoint.tally, Inbox.waiting, pending]
    have stomps : e'.tally.stomped = e'.metrics.incomingStomps := rfl
    have some := List.length_pos_iff.mpr ready.present
    have length : (clients l net).length = (clients l net).length - 1 + 1 := by omega
    rw [← tally, waits, stomps, length, UInt64.ofNat_add, ← UInt64.add_assoc] at count
    exact (UInt64.add_left_inj _).mp count

/-- Classes are unbound. -/
theorem unbinds_of_seated (seated : net.Seated l) : Unbinds l net (unbindClass net).2 := by
  obtain ⟨-, renames⟩ := renames_unbindClass seated
  generalize (unbindClass net).2 = after at *
  have named : ∀ p ∈ registered net, ∃ e, after.endpoint? p = some e ∧
      e.identity.className = defaultClass := by
    intro p on
    obtain ⟨e, he, -⟩ := isRegistered_iff.mp (mem_registered.mp on)
    -- a bound endpoint gets the class, and one that is not bound has it already
    by_cases bound : IsBound net p
    · obtain ⟨e', he', default, -⟩ := renames.named (List.mem_filter.mpr ⟨on, by simpa⟩) he
      exact ⟨e', he', default⟩
    · obtain ⟨e', he', same⟩ := renames.spared (fun there => by simp_all [List.mem_filter]) he
      refine ⟨e', he', (congrArg Prod.fst same).trans ?_⟩
      by_contra other
      exact bound ⟨e, he, other⟩
  refine ⟨registered_of_renames renames, named, fun p on bound => ?_, ?_⟩
  · obtain ⟨e, he, -⟩ := id bound
    obtain ⟨-, -, -, field⟩ := renames.named (List.mem_filter.mpr ⟨on, by simpa⟩) he
    exact field
  · -- repeated, it finds no endpoint that is bound
    refine unbindClass_of_none fun p on => ?_
    rw [registered_of_renames renames] at on
    obtain ⟨e, he, default⟩ := named p on
    rintro ⟨e', he', other⟩
    obtain rfl := Option.some.inj (he.symm.trans he')
    exact other default

/-- **Binding.** Let the layout of a fabric have room for a dump in a slot, let the coordinator and
    at least one client be attached, let the slots of the clients be idle, the coordinator have no
    delivery and no ring be under way. Then binding a class counts all attached endpoints and gives
    them the class, in their records and, cut to its width, in their slots. Only the client with
    the highest id is left with a message in its slot, the dump that the coordinator is to take
    next. The slots of the other clients are idle, and the coordinator has counted a displacement
    for each of them.

    In every fabric, unbinding counts the attached endpoints that have another class than the
    default one. All attached endpoints have the default class then, and unbinding again counts
    none and changes nothing. -/
theorem binds_of_built : (∀ l net, Built l net → ∀ c name, Ready l c net →
      (bindClass name net).1 = (clients l net).length + 1 ∧
      Binds l c name net (bindClass name net).2) ∧
    ∀ l net, Built l net →
      (unbindClass net).1 = ((registered net).filter (IsBound net ·)).length ∧
      Unbinds l net (unbindClass net).2 := by
  refine ⟨fun l net built c name ready => ?_, fun l net built => ?_⟩
  · have wired := built.wired
    refine ⟨?_, ready.binds built.wellFormed wired name⟩
    rw [(renames_bindClass wired.seated name).1,
      registered_eq wired.seated ready.coordinator ready.registered, List.length_append,
      List.length_singleton]
  · have seated := built.wired.seated
    exact ⟨(renames_unbindClass seated).1, unbinds_of_seated seated⟩

/-- Two clients attach to a new mailbox, and the coordinator. -/
def smallFabric : Except SetupError Network :=
  (attach (.ofMailbox smallMailbox) 1 {} none).bind fun one =>
    (attach one 2 {} none).bind fun two => attach two 4 {} none

/-- They are bound to a class, and unbound. -/
theorem binds_of_built_small : ∃ net, smallFabric = .ok net ∧ Ready smallLayout 4 net ∧
    clients smallLayout net = [1, 2] ∧ (bindClass "store" net).1 = 3 ∧
    Binds smallLayout 4 "store" net (bindClass "store" net).2 ∧
    (unbindClass (bindClass "store" net).2).1 = 3 ∧
    Unbinds smallLayout (bindClass "store" net).2 (unbindClass (bindClass "store" net).2).2 := by
  have exist : smallFabric.toBool := by decide +kernel
  have facts : ∀ net ∈ smallFabric.toOption,
      4 ∈ registered net ∧ clients smallLayout net = [1, 2] ∧
      ((smallLayout.slotAt 1).busy net.memory).IsIdle ∧
      ((smallLayout.slotAt 2).busy net.memory).IsIdle ∧
      (∀ i ∈ net.inbox? 4, i.IsEmpty) ∧ net.rings = [] := by
    decide +kernel
  rcases made : attach (.ofMailbox smallMailbox) 1 {} none with fault | one
  · simp [smallFabric, made, Except.bind, Except.toBool] at exist
  rcases made' : attach one 2 {} none with fault | two
  · simp [smallFabric, made, made', Except.bind, Except.toBool] at exist
  rcases made'' : attach two 4 {} none with fault | net
  · simp [smallFabric, made, made', made'', Except.bind, Except.toBool] at exist
  have valid : smallLayout.Valid := Mailbox.valid_of_create create_small
  have new := Built.new valid (Mailbox.eq_of_create create_small).1
  have built := ((new.attach made).attach made').attach made''
  have small : smallFabric = .ok net := by
    simp only [smallFabric, made, made', made'', Except.bind]
  obtain ⟨here, two, idle, idle', empty, rings⟩ := facts net (by rw [small]; rfl)
  have ready : Ready smallLayout 4 net :=
    { room := by decide +kernel
      coordinator := by decide
      registered := here
      present := by simp [two]
      idle := by simp [two, idle, idle']
      empty, rings }
  obtain ⟨count, binds⟩ := binds_of_built.1 smallLayout net built 4 "store" ready
  obtain ⟨undone, unbinds⟩ := binds_of_built.2 smallLayout _ (built.bind "store")
  rw [two] at count
  refine ⟨net, small, ready, two, count, binds, ?_, unbinds⟩
  -- all of them were bound
  have bound : ∀ p ∈ registered (bindClass "store" net).2, IsBound (bindClass "store" net).2 p := by
    intro p on
    rw [binds.register] at on
    obtain ⟨e, he, name, -⟩ := binds.named p on
    exact ⟨e, he, by rw [name]; decide⟩
  rw [undone, List.filter_eq_self.mpr (by simpa using bound), binds.register]
  exact count

end Fabric

end SharedMailbox
