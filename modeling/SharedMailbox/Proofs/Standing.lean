import SharedMailbox.Fabric
import SharedMailbox.Proofs.Acting

namespace SharedMailbox

/-!
# What stays

Whatever endpoints do and however their doorbell works: the parameters in slot 0 and the size of the
region stay, and so does what an endpoint was given when it attached.

* `Endpoint.standing`: the peer, the layout and the vectors of an endpoint.
* `Network.Keeps`: the layout, the size, the parameters and the standings stay.
* `Bell.Keeps`: a ring keeps them; so it is if rings wait (`Bell.keeps_queue`) and if they act at
  once (`Bell.keeps_nested`).
* `Seated.keeps_send`, `Seated.keeps_raise` and so on: with such a doorbell every operation does.
* `Seated.run`: so a run keeps the parameters and the size, though endpoints come and go in it.
-/

/-- What an endpoint is given when it attaches: its peer, the layout through which it sees the
    region, and its vectors. -/
def Endpoint.standing (e : Endpoint) : PeerId × Layout × VectorTable :=
  (e.peer, e.layout, e.vectors)

/-- Endpoints stand alike iff they have the same id, layout and vectors. -/
theorem Endpoint.standing_eq_iff {e e' : Endpoint} : e'.standing = e.standing ↔
    e'.peer = e.peer ∧ e'.layout = e.layout ∧ e'.vectors = e.vectors := by
  simp [standing]

namespace Network

/-- The second network has the layout, the size, the parameters and the standings of the first. -/
structure Keeps (net after : Network) : Prop where
  layout : after.layout = net.layout
  size : after.size = net.size
  globals : Layout.load after.memory = Layout.load net.memory
  standing : ∀ p, (after.endpoint? p).map Endpoint.standing =
    (net.endpoint? p).map Endpoint.standing

variable {net mid after : Network} {l : Layout} {p : PeerId} {e : Endpoint} {ring : Bell}

/-- To do nothing keeps all standings. -/
theorem Keeps.refl (net : Network) : net.Keeps net := ⟨rfl, rfl, rfl, fun _ => rfl⟩

/-- One thing after another keeps all standings if both do. -/
theorem Keeps.trans (first : net.Keeps mid) (later : mid.Keeps after) : net.Keeps after where
  layout := later.layout.trans first.layout
  size := later.size.trans first.size
  globals := later.globals.trans first.globals
  standing p := (later.standing p).trans (first.standing p)

/-- An endpoint of the second network was one of the first. -/
theorem Keeps.exists_endpoint (keeps : net.Keeps after) {e' : Endpoint}
    (he : after.endpoint? p = some e') :
    ∃ e, net.endpoint? p = some e ∧ e'.standing = e.standing := by
  have same := keeps.standing p
  rw [he, Option.map_some, eq_comm, Option.map_eq_some_iff] at same
  obtain ⟨e, there, standing⟩ := same
  exact ⟨e, there, standing.symm⟩

/-- What holds of the vectors of every endpoint holds of them afterwards. -/
theorem Keeps.vectors (keeps : net.Keeps after) {P : PeerId → VectorTable → Prop}
    (all : ∀ q e, net.endpoint? q = some e → P q e.vectors) :
    ∀ q e, after.endpoint? q = some e → P q e.vectors := by
  intro q e he
  obtain ⟨e', he', same⟩ := keeps.exists_endpoint he
  exact (Endpoint.standing_eq_iff.mp same).2.2 ▸ all q e' he'

/-- Where all standings are kept everybody keeps its seat. -/
theorem Seated.keeps (seated : net.Seated l) (keeps : net.Keeps after) : after.Seated l where
  layout := keeps.layout.trans seated.layout
  valid := seated.valid
  seats p e' he' := by
    obtain ⟨e, he, same⟩ := keeps.exists_endpoint he'
    obtain ⟨peer, layout, -⟩ := Endpoint.standing_eq_iff.mp same
    have seat := seated.seats p e he
    exact ⟨peer.trans seat.peer, layout.trans seat.layout, seat.owner⟩

/-! ### Writing and counting -/

/-- A change to the record of an endpoint that is not to its standing. -/
theorem keeps_update (net : Network) (p : PeerId) {f : Endpoint → Endpoint}
    (standing : ∀ e, (f e).standing = e.standing) : net.Keeps (net.update p f) where
  layout := rfl
  size := rfl
  globals := rfl
  standing q := by
    by_cases same : p = q
    · subst same
      rw [endpoint?_update_self, Option.map_map]
      exact congrArg (Option.map · _) (funext standing)
    · rw [endpoint?_update_of_ne same]

/-- Counting keeps all standings. -/
theorem keeps_count (net : Network) (p : PeerId) (f : Metrics → Metrics) :
    net.Keeps (net.update p (.count f)) :=
  net.keeps_update p fun _ => rfl

/-- A write into the slot of a peer. -/
theorem keeps_remember {f : Memory → Memory} (valid : l.Valid) (owner : l.HasSlot p.toUInt64)
    {lo hi : Nat} (outside : Memory.SameOutside lo hi net.memory (f net.memory))
    (within : (l.slotAt p).base ≤ lo) : net.Keeps (net.remember f) where
  layout := rfl
  size := rfl
  globals := outside.load_eq valid owner within
  standing _ := rfl

/-- A message in a slot is marked consumed. -/
theorem keeps_clear (valid : l.Valid) (owner : l.HasSlot p.toUInt64) (seen : UInt64) :
    net.Keeps (net.remember ((l.slotAt p).clear seen)) :=
  keeps_remember valid owner ((l.slotAt p).sameOutside_clear net.memory seen) (by omega)

/-- Clearing the slot of a delivery that was given up keeps all standings. -/
theorem keeps_clearGivenUp (net : Network) (valid : l.Valid) (layout : e.layout = l)
    (o : Option Delivery) : net.Keeps (net.clearGivenUp e o) := by
  cases o with
  | none => exact .refl net
  | some d =>
    simp only [clearGivenUp, clearSender, Endpoint.slotOf?, layout]
    rcases found : l.slot? d.sender.toUInt64 with _ | slot
    · exact .refl net
    · obtain rfl := Layout.slot?_eq_some valid found
      exact keeps_clear valid (Layout.hasSlot_of_slot? found) d.len

/-- An inbox changes and a delivery is given up. -/
theorem keeps_giveUp (net : Network) (valid : l.Valid) (layout : e.layout = l) (i : Inbox)
    (o : Option Delivery) :
    net.Keeps ((net.update e.peer fun e => { e with inbox := i }).clearGivenUp e o) := by
  have changed : net.Keeps (net.update e.peer fun e => { e with inbox := i }) :=
    net.keeps_update e.peer fun _ => rfl
  exact changed.trans (keeps_clearGivenUp _ valid layout o)

/-- Installing a delivery keeps all standings. -/
theorem keeps_install (net : Network) (valid : l.Valid) (layout : e.layout = l) (sender : PeerId)
    (len : UInt64) : net.Keeps (net.install e sender len) := by
  unfold Network.install
  rcases e.inbox.install sender len with ⟨inbox, displaced⟩
  have installed : net.Keeps (net.update e.peer fun e =>
      { e with inbox := inbox, metrics.delivered := e.metrics.delivered + 1 }) :=
    net.keeps_update e.peer fun _ => rfl
  cases displaced with
  | none => exact installed
  | some previous =>
    have counted := installed.trans (keeps_count _ e.peer fun c =>
      { c with incomingStomps := c.incomingStomps + 1 })
    simp only
    split
    · exact counted
    · exact counted.trans (keeps_clearGivenUp _ valid layout (some previous))

/-! ### Receiving -/

/-- A wait keeps all standings. -/
theorem keeps_await (net : Network) (valid : l.Valid) (layout : e.layout = l)
    (patience : Patience) : net.Keeps (net.await e patience).2 := by
  unfold Network.await
  rcases e.inbox.pending with _ | d
  · exact .refl net
  · simp only
    split <;> exact net.keeps_giveUp valid layout _ _

/-- A release keeps all standings. -/
theorem keeps_release (net : Network) (valid : l.Valid) (layout : e.layout = l) :
    net.Keeps (net.release e).2 :=
  net.keeps_giveUp valid layout _ _

/-- A framed read keeps all standings. -/
theorem Seated.keeps_read (seated : net.Seated l) (seat : e.Seated l p) (buffer : List UInt8) :
    net.Keeps (net.read e buffer).2.2 := by
  have taken := net.keeps_await seated.valid seat.layout .none
  rcases net.network_read e buffer with same | ⟨e', he', same⟩
  · rw [same]
    exact taken
  · have seat' := (seated.keeps taken).seats _ e' he'
    rw [same]
    exact taken.trans (keeps_release _ seated.valid seat'.layout)

/-! ### Leaving and naming -/

/-- Who detaches keeps its standing: only rings no longer reach it. -/
theorem keeps_detach (net : Network) (p : PeerId) : net.Keeps (net.detach p).2 := by
  unfold Network.detach
  split
  · exact net.keeps_update p fun _ => rfl
  · exact .refl net

/-- Naming an endpoint keeps all standings. -/
theorem keeps_setClass (net : Network) (valid : l.Valid) (seat : e.Seated l p) (name : String) :
    net.Keeps (net.setClass e name) := by
  have named : net.Keeps (net.update e.peer fun e => { e with identity.className := name }) :=
    net.keeps_update e.peer fun _ => rfl
  unfold Network.setClass
  rw [seat.slot_eq]
  exact named.trans (keeps_remember valid seat.owner
    ((l.slotAt p).sameOutside_setClassName _ name) (by omega))

end Network

/-! ### Ringing -/

/-- A ring keeps what stays, if everybody sits at its peer. -/
def Bell.Keeps (l : Layout) (ring : Bell) : Prop :=
  ∀ (busyPeers : List PeerId) (net : Network) (w : DoorbellWord), net.Seated l →
    net.Keeps (ring busyPeers net w)

/-- A ring that is only queued keeps all standings. -/
theorem Bell.keeps_queue (l : Layout) : Bell.queue.Keeps l :=
  fun _ _ _ _ => ⟨rfl, rfl, rfl, fun _ => rfl⟩

namespace Network

variable {net mid after : Network} {l : Layout} {p : PeerId} {e : Endpoint} {ring : Bell}

/-- A message is staged in the slot of an endpoint. -/
theorem keeps_stage (net : Network) (valid : l.Valid) (seat : e.Seated l p) (target : UInt64)
    {message : List UInt8} (short : message.length < l.maxPayload) :
    net.Keeps (net.stage e target message) := by
  rw [stage, seat.slot_eq]
  exact keeps_remember valid seat.owner
    ((l.slotAt p).sameOutside_post net.memory target short) (by omega)

/-- A send keeps all standings, if its doorbell does. -/
theorem Seated.keeps_send (seated : net.Seated l) (bell : ring.Keeps l) (seat : e.Seated l p)
    (busyPeers : List PeerId) (mode : WaitMode) (dest : Destination) (message : List UInt8) :
    net.Keeps (net.send ring busyPeers e mode dest message).2 := by
  unfold Network.send
  rcases admitted : e.admit dest message with fault | target
  · exact .refl net
  · obtain ⟨-, -, short⟩ := admit_eq_ok seat.layout admitted
    simp only
    split
    · exact net.keeps_count _ _
    · have staged := net.keeps_stage seated.valid seat target short
      have rung := bell (e.peer :: busyPeers) _ (.new e.peer target.toUInt16) (seated.keeps staged)
      exact (staged.trans rung).trans (keeps_count _ _ _)

/-- A reply keeps all standings, if its doorbell does. -/
theorem Seated.keeps_reply (seated : net.Seated l) (bell : ring.Keeps l) (seat : e.Seated l p)
    (busyPeers : List PeerId) (sender : PeerId) (answer : List UInt8) :
    net.Keeps (net.reply ring busyPeers e sender answer).2 := by
  have sent := seated.keeps_send bell seat busyPeers .spin (.peer sender) answer
  unfold Network.reply
  rcases outcome : net.send ring busyPeers e .spin (.peer sender) answer with ⟨fault | len, after⟩
  · rw [outcome] at sent
    exact sent.trans (keeps_count _ _ _)
  · rwa [outcome] at sent

/-- A patient send keeps all standings, if its doorbell does. -/
theorem Seated.keeps_sendPatiently (bell : ring.Keeps l) (seat : e.Seated l p)
    (dest : Destination) (body : List UInt8) (attempts : Nat) (seated : net.Seated l) :
    net.Keeps (net.sendPatiently ring e dest body attempts).2 := by
  induction attempts generalizing net with
  | zero => exact .refl net
  | succ attempts ih =>
    have sent := seated.keeps_send bell seat [] .sleep dest body
    unfold Network.sendPatiently
    rcases outcome : net.send ring [] e .sleep dest body with ⟨result, after⟩
    rw [outcome] at sent
    split
    next peer deadline again same =>
      obtain ⟨rfl, rfl⟩ := Prod.mk.inj same
      exact sent.trans (ih (seated.keeps sent))
    next => exact sent

/-- Asking for a dump keeps all standings, if the doorbell does. -/
theorem Seated.keeps_requestDump (seated : net.Seated l) (bell : ring.Keeps l)
    (seat : e.Seated l p) : net.Keeps (net.requestDump ring e).2 :=
  seated.keeps_send bell seat [] .sleep _ _

/-- A framed write keeps all standings, if its doorbell does. -/
theorem Seated.keeps_write (seated : net.Seated l) (bell : ring.Keeps l) (seat : e.Seated l p)
    (request : List UInt8) : net.Keeps (net.write ring e request).2 := by
  rcases net.network_write ring e request with same | ⟨dest, body, same⟩ <;> rw [same]
  · exact .refl net
  · exact seated.keeps_sendPatiently bell seat dest body writeAttempts

/-! ### Interrupts -/

/-- A link request is marked consumed, and the identity changes. -/
theorem keeps_acknowledge (net : Network) (valid : l.Valid) (e : Endpoint) {a : PeerId}
    (owner : l.HasSlot a.toUInt64) (identity : Link.Identity) :
    net.Keeps (net.acknowledge e (l.slotAt a) identity) := by
  unfold acknowledge
  exact (keeps_clear valid owner _).trans (keeps_update _ _ fun _ => rfl)

/-- The ids of a sender are stamped into its slot. -/
theorem keeps_stampSender (net : Network) (valid : l.Valid) {a : PeerId}
    (owner : l.HasSlot a.toUInt64) : net.Keeps (net.stampSender (l.slotAt a) a) :=
  keeps_remember valid owner
    ((l.slotAt a).sameOutside_stamp net.memory (firstCid a) subnetWord) (by omega)

/-- A dispatch keeps all standings, if the doorbell for its answer does. -/
theorem Seated.keeps_dispatch (seated : net.Seated l) (bell : ring.Keeps l) (seat : e.Seated l p)
    (busyPeers : List PeerId) {a : PeerId} (owner : l.HasSlot a.toUInt64) :
    net.Keeps (net.dispatch ring busyPeers e a (l.slotAt a)).2 := by
  have stamped := net.keeps_stampSender seated.valid owner
  by_cases idle : ((l.slotAt a).staged net.memory).len = 0
  · rw [dispatch_of_idle _ _ idle]
    exact stamped.trans (keeps_count _ _ _)
  · rcases response : Link.respond e.identity ((l.slotAt a).staged net.memory).message with
      _ | ⟨identity, answer⟩
    · rw [dispatch_of_plain _ _ idle (Link.respond_eq_none_iff.mp response)]
      exact stamped.trans (keeps_install _ seated.valid seat.layout a _)
    · rw [dispatch_of_request _ _ idle response]
      have cleared := stamped.trans (keeps_acknowledge _ seated.valid e owner identity)
      exact cleared.trans ((seated.keeps cleared).keeps_reply bell seat busyPeers a answer)

/-- An interrupt keeps all standings, if the doorbell for its answer does. -/
theorem Seated.keeps_interrupt (seated : net.Seated l) (bell : ring.Keeps l)
    (seat : e.Seated l p) (busyPeers : List PeerId) (vector : UInt32) :
    net.Keeps (net.interrupt ring busyPeers e vector).2 := by
  rcases net.interrupt_dispatches_or seated.valid seat ring busyPeers vector with
    ⟨dropped, -⟩ | ⟨a, owner, -, dispatched⟩
  · rw [dropped]
    exact net.keeps_count _ _
  · rw [dispatched]
    exact seated.keeps_dispatch bell seat busyPeers owner

/-- A ring keeps all standings, if the doorbell for an answer does. -/
theorem Seated.keeps_raise (seated : net.Seated l) (bell : ring.Keeps l)
    (busyPeers : List PeerId) (w : DoorbellWord) : net.Keeps (net.raise ring busyPeers w).2 := by
  rcases net.raise_interrupts_or ring busyPeers w with ⟨lost, -⟩ | ⟨e, vector, he, -, reached⟩
  · rw [lost]
    exact .refl net
  · rw [reached]
    exact seated.keeps_interrupt bell (seated.seats _ e he) busyPeers vector

/-- Taking a ring off the queue keeps all standings. -/
theorem keeps_dequeue (net : Network) (place : Nat) : net.Keeps (net.dequeue place) :=
  ⟨rfl, rfl, rfl, fun _ => rfl⟩

/-- One delivery keeps all standings. -/
theorem Seated.keeps_deliver? (seated : net.Seated l) {place : Nat} {w : DoorbellWord}
    {result : RingResult} (h : net.deliver? place = some (w, result, after)) : net.Keeps after := by
  rcases found : net.rings[place]? with _ | word
  · simp [Network.deliver?, found] at h
  · rw [deliver?_of_ring found, Option.some.injEq, Prod.mk.injEq, Prod.mk.injEq] at h
    obtain ⟨rfl, rfl, rfl⟩ := h
    have dropped := net.keeps_dequeue place
    exact dropped.trans ((seated.keeps dropped).keeps_raise (Bell.keeps_queue l) [] word)

/-- Deliveries keep all standings, however many there are. -/
theorem Seated.keeps_deliverMany (count : Nat) (seated : net.Seated l) :
    net.Keeps (deliverMany count net).2 := by
  induction count generalizing net with
  | zero => exact .refl net
  | succ count ih =>
    unfold Network.deliverMany
    rcases delivered : net.deliver? 0 with _ | ⟨w, result, mid⟩
    · exact .refl net
    · have keeps := seated.keeps_deliver? delivered
      exact keeps.trans (ih (seated.keeps keeps))

/-- Settling keeps all standings. -/
theorem Seated.keeps_settle (seated : net.Seated l) : net.Keeps net.settle :=
  seated.keeps_deliverMany _

end Network

/-- A doorbell that acts at once keeps what stays, however deep rings nest. -/
theorem Bell.keeps_nestedTo (l : Layout) (depth : Nat) : (Bell.nestedTo depth).Keeps l := by
  induction depth with
  | zero => exact fun _ net _ _ => .refl net
  | succ depth ih => exact fun busyPeers net w seated => seated.keeps_raise ih busyPeers w

/-- Rings that arrive at once keep all standings. -/
theorem Bell.keeps_nested (l : Layout) : Bell.nested.Keeps l :=
  fun busyPeers net w => Bell.keeps_nestedTo l _ busyPeers net w

/-! ### Runs -/

/-- An endpoint comes or goes. -/
def Action.ComesOrGoes : Action → Prop
  | .attach .. | .forget _ => True
  | _ => False

namespace Network

variable {net after : Network} {l : Layout} {ring : Bell}

/-- What an endpoint does keeps all standings if it does where the endpoint is there. -/
theorem keeps_actAs {p : PeerId} {act : Endpoint → Outcome × Network}
    (acts : ∀ e, net.endpoint? p = some e → net.Keeps (act e).2) :
    net.Keeps (net.actAs p act).2 := by
  unfold Network.actAs
  rcases he : net.endpoint? p with _ | e
  · exact .refl net
  · exact acts e he

/-- Every action keeps what stays, unless an endpoint comes or goes by it. -/
theorem Seated.keeps_perform (seated : net.Seated l) (bell : ring.Keeps l) {action : Action}
    (stays : ¬ action.ComesOrGoes) : net.Keeps (net.perform ring action).2 := by
  -- Endpoints come by attaching and go by being forgotten; all else keeps the record of each.
  have seats := fun p e he => seated.seats p e he
  cases action with
  | attach => exact absurd trivial stays
  | forget => exact absurd trivial stays
  | detach p => exact net.keeps_detach p
  | send p mode dest message =>
    exact keeps_actAs fun e he => seated.keeps_send bell (seats p e he) [] mode dest message
  | requestDump p => exact keeps_actAs fun e he => seated.keeps_requestDump bell (seats p e he)
  | write p request => exact keeps_actAs fun e he => seated.keeps_write bell (seats p e he) request
  | deliver place =>
    simp only [Network.perform]
    rcases delivered : net.deliver? place with _ | ⟨w, result, after⟩
    · exact .refl net
    · exact seated.keeps_deliver? delivered
  | raise w => exact seated.keeps_raise bell [] w
  | interrupt p vector =>
    exact keeps_actAs fun e he => seated.keeps_interrupt bell (seats p e he) [] vector
  | await p patience =>
    exact keeps_actAs fun e he => net.keeps_await seated.valid (seats p e he).layout patience
  | release p => exact keeps_actAs fun e he => net.keeps_release seated.valid (seats p e he).layout
  | read p buffer => exact keeps_actAs fun e he => seated.keeps_read (seats p e he) buffer
  | setClass p name =>
    exact keeps_actAs fun e he => net.keeps_setClass seated.valid (seats p e he) name

/-- Attaching writes into the own slot, and the region stays as long as it was. -/
theorem size_attach {p : PeerId} {vectors : VectorTable} {config : EndpointConfig}
    {host : HostAnswer} (h : net.attach l p vectors config host = .ok after) :
    after.size = net.size := by
  obtain ⟨slot, -, -, rfl⟩ := attach_eq_ok h
  rfl

/-- Every action keeps the parameters and the size, and leaves everybody at its peer. -/
theorem Seated.perform (seated : net.Seated l) (bell : ring.Keeps l) (action : Action) :
    (net.perform ring action).2.Seated l ∧ (net.perform ring action).2.size = net.size ∧
      Layout.load (net.perform ring action).2.memory = Layout.load net.memory := by
  have unchanged : net.Seated l ∧ net.size = net.size ∧
    Layout.load net.memory = Layout.load net.memory := ⟨seated, rfl, rfl⟩
  by_cases comes : action.ComesOrGoes
  · cases action with
    | attach p vectors config host =>
      simp only [Network.perform, seated.layout]
      rcases made : net.attach l p vectors config host with fault | after
      · exact unchanged
      · have acts := acts_attach seated.valid made
        exact ⟨seated.acts acts, size_attach made, acts.deeds.load_eq seated.valid⟩
    | forget p => exact ⟨seated.acts (acts_forget net l p), rfl, rfl⟩
    | _ => exact absurd comes id
  · have keeps := seated.keeps_perform bell comes
    exact ⟨seated.keeps keeps, keeps.size, keeps.globals⟩

/-- So does a run. -/
theorem Seated.run (seated : net.Seated l) (bell : ring.Keeps l) (actions : List Action) :
    (net.run ring actions).Seated l ∧ (net.run ring actions).size = net.size ∧
      Layout.load (net.run ring actions).memory = Layout.load net.memory := by
  induction actions generalizing net with
  | nil => exact ⟨seated, rfl, rfl⟩
  | cons action rest ih =>
    obtain ⟨seated', size, globals⟩ := seated.perform bell action
    obtain ⟨seated'', size', globals'⟩ := ih seated'
    exact ⟨seated'', size'.trans size, globals'.trans globals⟩

end Network

end SharedMailbox
