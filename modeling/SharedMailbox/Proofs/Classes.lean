import Mathlib.Data.List.Sort
import SharedMailbox.Proofs.Wiring

namespace SharedMailbox

/-!
# Classes

The class of an endpoint stands in its record and in its slot. Nothing but setting it changes it,
whatever messages and rings are about; and so does nobody come on the register or off it.

* `Network.KeepsClasses`: all classes and the register stay.
* `Network.keepsClasses_send`, `Seated.keepsClasses_settle` and so on: it is so for what endpoints
  do to each other.
* `Network.Renames`: some peers get a class, and the others keep theirs.
* `Fabric.pairwise_registered`, `mem_registered`: the register lists who listens, ascending.
* `Fabric.renames_bindClass`, `Fabric.renames_unbindClass`: which peers the two operations of a
  fabric rename, and how many they count.
* `Fabric.unbindClass_of_none`: where all classes are the default one, unbinding changes nothing.
-/

/-- The class of an endpoint, and whether it is on the register of a fabric. -/
def Endpoint.enrolment (e : Endpoint) : String × Bool := (e.identity.className, e.listening)

/-- Answering changes ids only. -/
theorem Link.className_of_respond {id id' : Identity} {message answer : List UInt8}
    (response : respond id message = some (id', answer)) : id'.className = id.className := by
  unfold respond at response
  split_ifs at response
  · cases response
    rfl
  · cases response
    rfl
  · split at response <;> cases response
    rfl

/-- A write into a slot from its length on leaves the class in every slot alone. -/
theorem Layout.classField_eq {l : Layout} {m n : Memory} (valid : l.Valid) {q : PeerId}
    {lo hi : Nat} (same : Memory.SameOutside lo hi m n)
    (within : (l.slotAt q).base + 64 ≤ lo ∧ hi ≤ (l.slotAt q).limit) (p : PeerId) :
    (l.slotAt p).classField n = (l.slotAt p).classField m := by
  refine same.bytes_eq ?_
  rw [Name.width]
  by_cases own : p = q
  · subst own
    omega
  · have apart := slotAt_apart valid own
    have := (l.slotAt p).header_le_limit
    omega

namespace Network

variable {net mid after : Network} {l : Layout} {p : PeerId} {e : Endpoint}

/-! ### Classes that stay -/

/-- The second network has the classes and the register of the first. -/
structure KeepsClasses (l : Layout) (net after : Network) : Prop where
  enrolment : ∀ p, (after.endpoint? p).map Endpoint.enrolment =
    (net.endpoint? p).map Endpoint.enrolment
  field : ∀ p, (l.slotAt p).classField after.memory = (l.slotAt p).classField net.memory

/-- To do nothing keeps the classes. -/
theorem KeepsClasses.refl (l : Layout) (net : Network) : KeepsClasses l net net :=
  ⟨fun _ => rfl, fun _ => rfl⟩

/-- One thing after another keeps the classes if both do. -/
theorem KeepsClasses.trans (first : KeepsClasses l net mid) (later : KeepsClasses l mid after) :
    KeepsClasses l net after where
  enrolment p := (later.enrolment p).trans (first.enrolment p)
  field p := (later.field p).trans (first.field p)

/-- Updating an endpoint keeps the classes if its enrolment stays. -/
theorem keepsClasses_update (net : Network) (l : Layout) (p : PeerId) {f : Endpoint → Endpoint}
    (same : ∀ e, net.endpoint? p = some e → (f e).enrolment = e.enrolment) :
    KeepsClasses l net (net.update p f) where
  enrolment q := by
    by_cases own : p = q
    · subst own
      rw [endpoint?_update_self, Option.map_map]
      exact Option.map_congr same
    · rw [endpoint?_update_of_ne own]
  field _ := rfl

/-- Counting keeps the classes. -/
theorem keepsClasses_count (net : Network) (l : Layout) (p : PeerId) (f : Metrics → Metrics) :
    KeepsClasses l net (net.update p (.count f)) :=
  net.keepsClasses_update l p fun _ _ => rfl

/-- A write into the slot of a peer, from its length on. -/
theorem keepsClasses_remember {f : Memory → Memory} (valid : l.Valid) (q : PeerId) {lo hi : Nat}
    (same : Memory.SameOutside lo hi net.memory (f net.memory))
    (within : (l.slotAt q).base + 64 ≤ lo ∧ hi ≤ (l.slotAt q).limit) :
    KeepsClasses l net (net.remember f) :=
  ⟨fun _ => rfl, fun p => Layout.classField_eq valid same within p⟩

/-- Giving up a length keeps the classes. -/
theorem keepsClasses_clear (net : Network) (valid : l.Valid) (q : PeerId) (seen : UInt64) :
    KeepsClasses l net (net.remember ((l.slotAt q).clear seen)) := by
  have := (l.slotAt q).header_le_limit
  exact keepsClasses_remember valid q ((l.slotAt q).sameOutside_clear net.memory seen) (by omega)

/-- A stamp keeps the classes. -/
theorem keepsClasses_stampSender (net : Network) (valid : l.Valid) (a : PeerId) :
    KeepsClasses l net (net.stampSender (l.slotAt a) a) := by
  have := (l.slotAt a).header_le_limit
  exact keepsClasses_remember valid a
    ((l.slotAt a).sameOutside_stamp net.memory (firstCid a) subnetWord) (by omega)

/-- Clearing the slot of a delivery that was given up keeps the classes. -/
theorem keepsClasses_clearGivenUp (net : Network) (valid : l.Valid) (layout : e.layout = l)
    (o : Option Delivery) : KeepsClasses l net (net.clearGivenUp e o) := by
  cases o with
  | none => exact .refl l net
  | some d =>
    simp only [clearGivenUp, clearSender, Endpoint.slotOf?, layout]
    rcases found : l.slot? d.sender.toUInt64 with _ | slot
    · exact .refl l net
    · obtain rfl := Layout.slot?_eq_some valid found
      exact net.keepsClasses_clear valid d.sender d.len

/-- Installing a delivery keeps the classes. -/
theorem keepsClasses_install (net : Network) (valid : l.Valid) (layout : e.layout = l)
    (sender : PeerId) (len : UInt64) : KeepsClasses l net (net.install e sender len) := by
  unfold Network.install
  rcases e.inbox.install sender len with ⟨inbox, displaced⟩
  have installed : KeepsClasses l net (net.update e.peer fun e =>
      { e with inbox := inbox, metrics.delivered := e.metrics.delivered + 1 }) :=
    net.keepsClasses_update l e.peer fun _ _ => rfl
  cases displaced with
  | none => exact installed
  | some previous =>
    have counted := installed.trans (keepsClasses_count _ l e.peer fun c =>
      { c with incomingStomps := c.incomingStomps + 1 })
    simp only
    split
    · exact counted
    · exact counted.trans (keepsClasses_clearGivenUp _ valid layout (some previous))

/-! ### Messages and rings -/

/-- A send keeps the classes, whether it succeeds or not. -/
theorem keepsClasses_send (net : Network) (valid : l.Valid) (seat : e.Seated l p)
    (busyPeers : List PeerId) (mode : WaitMode) (dest : Destination) (message : List UInt8) :
    KeepsClasses l net (net.send .queue busyPeers e mode dest message).2 := by
  unfold Network.send
  rcases admitted : e.admit dest message with fault | target
  · exact .refl l net
  · obtain ⟨-, -, short⟩ := admit_eq_ok seat.layout admitted
    simp only
    split
    · exact net.keepsClasses_count l _ _
    · have staged : KeepsClasses l net (net.stage e target message) := by
        rw [stage, seat.slot_eq]
        exact keepsClasses_remember valid p
          ((l.slotAt p).sameOutside_post net.memory target short) (by omega)
      have rung : KeepsClasses l (net.stage e target message)
          ((net.stage e target message).enqueue (.new e.peer target.toUInt16)) :=
        ⟨fun _ => rfl, fun _ => rfl⟩
      exact (staged.trans rung).trans (keepsClasses_count _ l _ _)

/-- Asking for a dump keeps the classes. -/
theorem keepsClasses_requestDump (net : Network) (valid : l.Valid) (seat : e.Seated l p) :
    KeepsClasses l net (net.requestDump .queue e).2 :=
  net.keepsClasses_send valid seat [] .sleep _ _

/-- A reply keeps the classes, whether it can be sent or not. -/
theorem keepsClasses_reply (net : Network) (valid : l.Valid) (seat : e.Seated l p)
    (busyPeers : List PeerId) (sender : PeerId) (answer : List UInt8) :
    KeepsClasses l net (net.reply .queue busyPeers e sender answer).2 := by
  have sent := net.keepsClasses_send valid seat busyPeers .spin (.peer sender) answer
  unfold Network.reply
  rcases outcome : net.send .queue busyPeers e .spin (.peer sender) answer with ⟨fault | len, after⟩
  · rw [outcome] at sent
    exact sent.trans (keepsClasses_count _ l _ _)
  · rwa [outcome] at sent

/-- Who answers gets another identity with the class that it has. -/
theorem keepsClasses_acknowledge (net : Network) (valid : l.Valid) (seat : e.Seated l p)
    (he : net.endpoint? p = some e) (a : PeerId) {identity : Link.Identity}
    (same : identity.className = e.identity.className) :
    KeepsClasses l net (net.acknowledge e (l.slotAt a) identity) := by
  obtain rfl := seat.peer
  unfold acknowledge
  refine (net.keepsClasses_clear valid a _).trans (keepsClasses_update _ l e.peer ?_)
  intro e' he'
  rw [endpoint?_remember, he, Option.some.injEq] at he'
  subst he'
  simp only [Endpoint.enrolment, same]

/-- A dispatch keeps the classes: what a request assigns are ids. -/
theorem keepsClasses_dispatch (net : Network) (valid : l.Valid) (seat : e.Seated l p)
    (he : net.endpoint? p = some e) (busyPeers : List PeerId) (a : PeerId) :
    KeepsClasses l net (net.dispatch .queue busyPeers e a (l.slotAt a)).2 := by
  have stamped := net.keepsClasses_stampSender valid a
  by_cases idle : ((l.slotAt a).staged net.memory).len = 0
  · rw [dispatch_of_idle _ _ idle]
    exact stamped.trans (keepsClasses_count _ l _ _)
  · rcases response : Link.respond e.identity ((l.slotAt a).staged net.memory).message with
      _ | ⟨identity, answer⟩
    · rw [dispatch_of_plain _ _ idle (Link.respond_eq_none_iff.mp response)]
      exact stamped.trans (keepsClasses_install _ valid seat.layout a _)
    · rw [dispatch_of_request _ _ idle response]
      have here : (net.stampSender (l.slotAt a) a).endpoint? p = some e := he
      have cleared := stamped.trans (keepsClasses_acknowledge _ valid seat here a
        (Link.className_of_respond response))
      exact cleared.trans (keepsClasses_reply _ valid seat busyPeers a answer)

/-- An interrupt keeps the classes, whatever its vector. -/
theorem keepsClasses_interrupt (net : Network) (valid : l.Valid) (seat : e.Seated l p)
    (he : net.endpoint? p = some e) (busyPeers : List PeerId) (vector : UInt32) :
    KeepsClasses l net (net.interrupt .queue busyPeers e vector).2 := by
  rcases net.interrupt_dispatches_or valid seat .queue busyPeers vector with
    ⟨dropped, -⟩ | ⟨a, -, -, dispatched⟩
  · rw [dropped]
    exact net.keepsClasses_count l _ _
  · rw [dispatched]
    exact net.keepsClasses_dispatch valid seat he busyPeers a

/-- A ring keeps the classes. -/
theorem Seated.keepsClasses_raise (seated : net.Seated l) (busyPeers : List PeerId)
    (w : DoorbellWord) : KeepsClasses l net (net.raise .queue busyPeers w).2 := by
  rcases net.raise_interrupts_or .queue busyPeers w with ⟨lost, -⟩ | ⟨e, vector, he, -, reached⟩
  · rw [lost]
    exact .refl l net
  · rw [reached]
    exact net.keepsClasses_interrupt seated.valid (seated.seats _ e he) he busyPeers vector

/-- One delivery keeps the classes. -/
theorem Seated.keepsClasses_deliver? (seated : net.Seated l) {place : Nat} {w : DoorbellWord}
    {result : RingResult} (h : net.deliver? place = some (w, result, after)) :
    KeepsClasses l net after := by
  rcases found : net.rings[place]? with _ | word
  · simp [Network.deliver?, found] at h
  · rw [deliver?_of_ring found, Option.some.injEq, Prod.mk.injEq, Prod.mk.injEq] at h
    obtain ⟨rfl, rfl, rfl⟩ := h
    have dropped : KeepsClasses l net (net.dequeue place) := ⟨fun _ => rfl, fun _ => rfl⟩
    exact dropped.trans ((seated.keeps (net.keeps_dequeue place)).keepsClasses_raise [] word)

/-- Deliveries keep the classes, however many there are. -/
theorem Seated.keepsClasses_deliverMany (count : Nat) (seated : net.Seated l) :
    KeepsClasses l net (deliverMany count net).2 := by
  induction count generalizing net with
  | zero => exact .refl l net
  | succ count ih =>
    unfold Network.deliverMany
    rcases delivered : net.deliver? 0 with _ | ⟨w, result, mid⟩
    · exact .refl l net
    · have first := seated.keepsClasses_deliver? delivered
      exact first.trans (ih (seated.keeps (seated.keeps_deliver? delivered)))

/-- Settling keeps the classes. -/
theorem Seated.keepsClasses_settle (seated : net.Seated l) : KeepsClasses l net net.settle :=
  seated.keepsClasses_deliverMany _

/-! ### Classes that are set -/

/-- In the second network these peers have this class, in their records and in their slots. The
    classes of the others, the register and what stays anyhow are as in the first. -/
structure Renames (l : Layout) (name : String) (peers : List PeerId) (net after : Network) :
    Prop where
  keeps : net.Keeps after
  enrolment : ∀ p, (after.endpoint? p).map Endpoint.enrolment = (net.endpoint? p).map fun e =>
    if p ∈ peers then (name, e.listening) else e.enrolment
  field : ∀ p, net.endpoint? p ≠ none → (l.slotAt p).classField after.memory =
    if p ∈ peers then Name.toField name else (l.slotAt p).classField net.memory

variable {name : String} {peers peers' : List PeerId}

/-- What keeps the classes renames nobody. -/
theorem KeepsClasses.renames (same : KeepsClasses l net after) (keeps : net.Keeps after)
    (name : String) : Renames l name [] net after where
  keeps := keeps
  enrolment p := by simpa using same.enrolment p
  field p _ := by simpa using same.field p

/-- One renaming after another renames the peers of both. -/
theorem Renames.trans (first : Renames l name peers net mid)
    (later : Renames l name peers' mid after) : Renames l name (peers ++ peers') net after where
  keeps := first.keeps.trans later.keeps
  enrolment p := by
    have enrolled := first.enrolment p
    rw [later.enrolment p]
    rcases he : net.endpoint? p with _ | e
    · simpa [he] using enrolled
    · rw [he, Option.map_some, Option.map_eq_some_iff] at enrolled
      obtain ⟨e', he', same⟩ := enrolled
      have listening : e'.listening = e.listening := by
        have := congrArg Prod.snd same
        split at this <;> exact this
      rw [he', Option.map_some, Option.map_some, same, listening]
      by_cases there : p ∈ peers' <;> simp [there]
  field p here := by
    have here' : mid.endpoint? p ≠ none := by
      intro gone
      have enrolled := first.enrolment p
      rw [gone, Option.map_none, eq_comm, Option.map_eq_none_iff] at enrolled
      exact here enrolled
    rw [later.field p here', first.field p here]
    by_cases there : p ∈ peers' <;> simp [there]

/-- Who is renamed has that class then. -/
theorem Renames.named (renames : Renames l name peers net after) (there : p ∈ peers)
    (he : net.endpoint? p = some e) : ∃ e', after.endpoint? p = some e' ∧
      e'.identity.className = name ∧ (l.slotAt p).classField after.memory = Name.toField name := by
  have enrolled := renames.enrolment p
  rw [he, Option.map_some, if_pos there, Option.map_eq_some_iff] at enrolled
  obtain ⟨e', he', same⟩ := enrolled
  exact ⟨e', he', congrArg Prod.fst same,
    (renames.field p (by simp [he])).trans (if_pos there)⟩

/-- Who is not renamed has the class of before, and listens as before. -/
theorem Renames.spared (renames : Renames l name peers net after) (absent : p ∉ peers)
    (he : net.endpoint? p = some e) :
    ∃ e', after.endpoint? p = some e' ∧ e'.enrolment = e.enrolment := by
  have enrolled := renames.enrolment p
  rw [he, Option.map_some, if_neg absent, Option.map_eq_some_iff] at enrolled
  exact enrolled

/-- Who has no endpoint cannot be renamed. -/
theorem renames_of_none (none : net.endpoint? p = none) (name : String) :
    Renames l name [p] net net where
  keeps := .refl net
  enrolment q := by
    by_cases same : q = p
    · subst same
      simp [none]
    · simp [same]
  field q here := by
    have other : q ≠ p := by
      rintro rfl
      exact here none
    simp [other]

/-- Naming an endpoint renames its peer and nobody else. -/
theorem Seated.renames_setClass (seated : net.Seated l) (he : net.endpoint? p = some e)
    (name : String) : Renames l name [p] net (net.setClass e name) := by
  have seat := seated.seats p e he
  obtain rfl := seat.peer
  refine ⟨net.keeps_setClass seated.valid seat name, fun q => ?_, fun q _ => ?_⟩
  · by_cases same : e.peer = q
    · subst same
      simp [Network.setClass, Endpoint.enrolment, Function.comp_def]
    · simp [Network.setClass, endpoint?_update_of_ne same, Ne.symm same]
  · have written := (l.slotAt e.peer).sameOutside_setClassName net.memory name
    have memory : (net.setClass e name).memory =
        (l.slotAt e.peer).setClassName name net.memory := by
      rw [Network.setClass, seat.slot_eq]
      rfl
    rw [memory]
    by_cases same : q = e.peer
    · subst same
      rw [if_pos (List.mem_singleton_self _), Slot.classField_setClassName]
    · -- the class of another peer is stored in a slot that is not written
      have apart := Layout.slotAt_apart seated.valid same
      have := (l.slotAt q).header_le_limit
      have := (l.slotAt e.peer).header_le_limit
      rw [if_neg (by simpa using same), Slot.classField,
        written.bytes_eq (by rw [Name.width]; omega), Slot.classField]

end Network

namespace Fabric

variable {net after : Network} {l : Layout} {p : PeerId} {e : Endpoint} {name : String}
  {peers : List PeerId}

/-- A dump that may be asked for changes no class. -/
theorem renames_bindEndpoint (seated : net.Seated l) (he : net.endpoint? p = some e)
    (name : String) : net.Renames l name [p] (bindEndpoint name net e) := by
  have seat := seated.seats p e he
  have named := seated.renames_setClass he name
  unfold bindEndpoint
  split
  · exact named
  · have seated' := seated.keeps named.keeps
    have asked := seated'.keeps_requestDump (Bell.keeps_queue l) seat
    have seated'' := seated'.keeps asked
    have dumped := ((net.setClass e name).keepsClasses_requestDump seated.valid seat).trans
      seated''.keepsClasses_settle
    exact named.trans (dumped.renames (asked.trans seated''.keeps_settle) name)

/-! ### The register -/

/-- Registered is who has an endpoint that rings reach. -/
theorem isRegistered_iff : IsRegistered net p ↔
    ∃ e, net.endpoint? p = some e ∧ e.listening = true :=
  Option.map_eq_some_iff

/-- The register lists who listens. -/
theorem mem_registered : p ∈ registered net ↔ IsRegistered net p := by
  simp [registered, isRegistered_iff, Network.endpoint?]

/-- The register is ascending. -/
theorem pairwise_registered (net : Network) : (registered net).Pairwise (· < ·) := by
  rw [registered, List.pairwise_map]
  refine List.Pairwise.filter _ (Std.ExtTreeMap.ordered_keys_toList.imp fun less => ?_)
  exact compareOfLessAndEq_eq_lt.mp less

/-- Nobody is registered twice. -/
theorem nodup_registered (net : Network) : (registered net).Nodup :=
  (pairwise_registered net).imp UInt16.ne_of_lt

/-- A list of peers is the register if it is ascending and lists who listens. -/
theorem eq_registered (ascending : peers.Pairwise (· < ·))
    (same : ∀ p, p ∈ peers ↔ IsRegistered net p) : peers = registered net :=
  ascending.eq_of_mem_iff (pairwise_registered net) fun p => (same p).trans mem_registered.symm

/-- Who is renamed stays on the register, and nobody else comes on it. -/
theorem isRegistered_of_renames (renames : net.Renames l name peers after) :
    IsRegistered after p ↔ IsRegistered net p := by
  have enrolled := congrArg (Option.map Prod.snd) (renames.enrolment p)
  have kept : Prod.snd ∘ (fun e : Endpoint => if p ∈ peers then (name, e.listening)
      else e.enrolment) = Endpoint.listening := by
    funext e
    simp only [Function.comp_apply]
    split <;> rfl
  rw [Option.map_map, Option.map_map, kept] at enrolled
  rw [IsRegistered, IsRegistered, ← enrolled]
  rfl

/-- Renaming registers nobody and removes nobody. -/
theorem registered_of_renames (renames : net.Renames l name peers after) :
    registered after = registered net :=
  eq_registered (pairwise_registered after) fun _ =>
    mem_registered.trans (isRegistered_of_renames renames)

/-! ### Binding and unbinding -/

/-- Binding a peer renames it and nobody else. -/
theorem renames_bindPeer (seated : net.Seated l) (name : String) (p : PeerId) :
    net.Renames l name [p] (bindPeer name net p) := by
  rcases he : net.endpoint? p with _ | e
  · rw [bindPeer, he]
    exact Network.renames_of_none he name
  · rw [bindPeer_of_endpoint? he]
    exact renames_bindEndpoint seated he name

/-- All registered endpoints are bound, one after another, and counted. -/
theorem renames_bindClass (seated : net.Seated l) (name : String) :
    (bindClass name net).1 = (registered net).length ∧
      net.Renames l name (registered net) (bindClass name net).2 := by
  rw [bindClass_eq]
  refine ⟨rfl, ?_⟩
  generalize registered net = peers
  simp only
  induction peers generalizing net with
  | nil => exact (Network.KeepsClasses.refl l net).renames (.refl net) name
  | cons p peers ih =>
    have bound := renames_bindPeer seated name p
    exact bound.trans (ih (seated.keeps bound.keeps))

/-- Bound is who has a class other than the default one. -/
theorem isBound_iff : IsBound net p ↔
    ∃ c, (net.endpoint? p).map Endpoint.enrolment = some c ∧ c.1 ≠ defaultClass := by
  simp [IsBound, Endpoint.enrolment]

/-- Renaming others does not touch whether an endpoint is bound. -/
theorem isBound_of_renames (renames : net.Renames l name peers after) (other : p ∉ peers) :
    IsBound after p ↔ IsBound net p := by
  have same := renames.enrolment p
  simp only [if_neg other] at same
  rw [isBound_iff, isBound_iff, same]

/-- The bound ones of a list of peers are unbound and counted, one after another. -/
theorem renames_foldl_unbindPeer (distinct : peers.Nodup) (seated : net.Seated l) (n : Nat) :
    ∃ after, peers.foldl unbindPeer (n, net) =
        (n + (peers.filter (IsBound net ·)).length, after) ∧
      net.Renames l defaultClass (peers.filter (IsBound net ·)) after := by
  induction peers generalizing net n with
  | nil => exact ⟨net, rfl, (Network.KeepsClasses.refl l net).renames (.refl net) _⟩
  | cons p peers ih =>
    obtain ⟨new, distinct⟩ := List.nodup_cons.mp distinct
    rw [List.foldl_cons]
    by_cases bound : IsBound net p
    · have first := renames_bindPeer seated defaultClass p
      -- the rest is bound as before
      have same : peers.filter (IsBound (bindPeer defaultClass net p) ·) =
          peers.filter (IsBound net ·) := by
        refine List.filter_congr fun q there => ?_
        rw [decide_eq_decide]
        refine isBound_of_renames first fun own => new ?_
        rwa [← List.mem_singleton.mp own]
      obtain ⟨after, counted, rest⟩ := ih distinct (seated.keeps first.keeps) (n + 1)
      rw [same] at counted rest
      refine ⟨after, ?_, ?_⟩
      · rw [unbindPeer_of_isBound bound, counted, List.filter_cons_of_pos (by simpa using bound),
          List.length_cons]
        congr 1
        omega
      · rw [List.filter_cons_of_pos (by simpa using bound)]
        exact first.trans rest
    · rw [unbindPeer_of_not bound, List.filter_cons_of_neg (by simpa using bound)]
      exact ih distinct seated n

/-- The bound ones of the registered endpoints are unbound and counted. -/
theorem renames_unbindClass (seated : net.Seated l) :
    (unbindClass net).1 = ((registered net).filter (IsBound net ·)).length ∧
      net.Renames l defaultClass ((registered net).filter (IsBound net ·)) (unbindClass net).2 := by
  obtain ⟨after, counted, renames⟩ :=
    renames_foldl_unbindPeer (nodup_registered net) seated 0
  rw [unbindClass_eq, counted, Nat.zero_add]
  exact ⟨rfl, renames⟩

/-- Where nobody on the register is bound, unbinding changes nothing. -/
theorem unbindClass_of_none (none : ∀ p ∈ registered net, ¬ IsBound net p) :
    unbindClass net = (0, net) := by
  rw [unbindClass_eq]
  exact List.foldlRecOn (registered net) unbindPeer (motive := fun counted => counted = (0, net))
    rfl fun counted same p there => by rw [same, unbindPeer_of_not (none p there)]

end Fabric

end SharedMailbox
