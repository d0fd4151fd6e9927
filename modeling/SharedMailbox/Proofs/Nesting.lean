import SharedMailbox.Proofs.Answers
import SharedMailbox.Proofs.Routing
import SharedMailbox.Proofs.Standing

namespace SharedMailbox

/-!
# Rings that act at once

It makes no difference whether a ring reaches its destination while the sender still rings, or
later: an interrupt does not see whether its sender has finished, and what it may ring for itself is
an answer, which is not answered.

* `Network.noteSent`: what a sender does once its ring is over; `Network.raise_noteSent`: an
  interrupt may come before or after it.
* `Network.Calls`, `Network.calls_raise`: what a ring makes of its destination, and that the
  doorbell matters only to an answer.
* `Network.Rings`, `Network.rings_send`: an endpoint rings once at most, for what it has staged.
* `Network.nested_eq_settled`: the two ways of delivery have the same result and lead to the same
  network.
-/

/-- An endpoint counts a send of so many bytes. -/
def Endpoint.countSent (len : Nat) : Endpoint → Endpoint :=
  .count fun c =>
    { c with
      messagesSent := c.messagesSent + 1
      bytesSent := c.bytesSent + UInt64.ofNat len }

namespace Endpoint

variable (len : Nat) (e : Endpoint)

/-- Counting a send leaves the id of an endpoint. -/
@[simp] theorem peer_countSent : (e.countSent len).peer = e.peer := rfl

/-- Counting a send leaves the layout of an endpoint. -/
@[simp] theorem layout_countSent : (e.countSent len).layout = e.layout := rfl

/-- Counting a send leaves the vectors of an endpoint. -/
@[simp] theorem vectors_countSent : (e.countSent len).vectors = e.vectors := rfl

/-- Counting a send leaves the identity of an endpoint. -/
@[simp] theorem identity_countSent : (e.countSent len).identity = e.identity := rfl

/-- Counting a send leaves the inbox of an endpoint. -/
@[simp] theorem inbox_countSent : (e.countSent len).inbox = e.inbox := rfl

/-- Counting a send leaves an endpoint listening, or not. -/
@[simp] theorem listening_countSent : (e.countSent len).listening = e.listening := rfl

/-- Two sends may be counted in either order. -/
theorem countSent_comm (n : Nat) :
    (e.countSent len).countSent n = (e.countSent n).countSent len := by
  have bytes : e.metrics.bytesSent + UInt64.ofNat len + UInt64.ofNat n =
      e.metrics.bytesSent + UInt64.ofNat n + UInt64.ofNat len := by
    rw [UInt64.add_assoc, UInt64.add_comm (UInt64.ofNat len), UInt64.add_assoc]
  simp only [countSent, count, bytes]

end Endpoint

namespace Network

variable {net mid after : Network} {l : Layout} {p : PeerId} {e : Endpoint} {len : Nat}

/-! ### After a ring -/

/-- A peer counts a send. -/
def noteSent (p : PeerId) (len : Nat) (net : Network) : Network := net.update p (.countSent len)

/-- Noting a send concerns no ring. -/
@[simp] theorem rings_noteSent (net : Network) : (net.noteSent p len).rings = net.rings := rfl

/-- Noting a send commutes with taking a ring off the queue. -/
@[simp] theorem dequeue_noteSent (net : Network) (place : Nat) :
    (net.noteSent p len).dequeue place = (net.dequeue place).noteSent p len := rfl

/-- Noting a send commutes with writing to memory. -/
@[simp] theorem remember_noteSent (net : Network) (f : Memory → Memory) :
    (net.noteSent p len).remember f = (net.remember f).noteSent p len := rfl

/-- Noting a send of a peer counts it there, and nowhere else. -/
theorem endpoint?_noteSent (net : Network) (q : PeerId) : (net.noteSent p len).endpoint? q =
    (net.endpoint? q).map fun e => if p = q then e.countSent len else e := by
  by_cases same : p = q
  · subst same
    simp [noteSent]
  · simp [noteSent, endpoint?_update_of_ne same, same]

/-- A change to the record of an endpoint that does not touch what it has sent. -/
theorem update_noteSent (net : Network) (q : PeerId) (f : Endpoint → Endpoint)
    (apart : ∀ e, f (e.countSent len) = (f e).countSent len) :
    (net.noteSent p len).update q f = (net.update q f).noteSent p len := by
  have same : (net.endpoints.modify p (.countSent len)).modify q f =
      (net.endpoints.modify q f).modify p (.countSent len) := by
    -- records are looked up peer by peer: both changes, one of them, or none is at that peer
    apply Std.ExtTreeMap.ext_getElem?
    intro r
    simp only [Std.ExtTreeMap.getElem?_modify, Std.LawfulEqCmp.compare_eq_iff_eq]
    by_cases own : q = r
    · by_cases sent : p = r
      · subst own
        subst sent
        simp [Function.comp_def, apart]
      · subst own
        simp [sent]
    · by_cases sent : p = r
      · subst sent
        simp [own]
      · simp [own, sent]
  unfold noteSent update
  rw [same]

/-- Noting a send commutes with clearing the slot of a delivery that was given up. -/
theorem clearGivenUp_noteSent (net : Network) (o : Option Delivery) :
    (net.noteSent p len).clearGivenUp e o = (net.clearGivenUp e o).noteSent p len := by
  cases o with
  | none => rfl
  | some d =>
    simp only [clearGivenUp, clearSender]
    split <;> rfl

/-- Noting a send commutes with installing a delivery. -/
theorem install_noteSent (net : Network) (a : PeerId) (n : UInt64) :
    (net.noteSent p len).install e a n = (net.install e a n).noteSent p len := by
  unfold install
  rcases e.inbox.install a n with ⟨inbox, displaced⟩
  simp only
  rw [update_noteSent]
  · cases displaced with
    | none => rfl
    | some d =>
      simp only
      rw [update_noteSent]
      · split
        · rfl
        · exact clearGivenUp_noteSent _ (some d)
      · exact fun _ => rfl
  · exact fun _ => rfl

/-- Noting a send commutes with another send. -/
theorem send_noteSent (net : Network) (busyPeers : List PeerId) (mode : WaitMode)
    (dest : Destination) (message : List UInt8) :
    (net.noteSent p len).send .queue busyPeers e mode dest message =
      ((net.send .queue busyPeers e mode dest message).1,
        (net.send .queue busyPeers e mode dest message).2.noteSent p len) := by
  unfold send
  rcases e.admit dest message with fault | target
  · rfl
  · have alike : (net.noteSent p len).Wedged busyPeers e mode ↔ net.Wedged busyPeers e mode :=
      Iff.rfl
    simp only [alike]
    split
    · exact congrArg (Prod.mk _) (update_noteSent net e.peer _ fun _ => rfl)
    · -- two sends are counted in either order
      have counted := update_noteSent (p := p)
        ((net.stage e target message).enqueue (.new e.peer target.toUInt16)) e.peer
        (.countSent message.length) fun e => e.countSent_comm len message.length
      exact congrArg (Prod.mk _) counted

/-! An endpoint that has counted a send rings and answers as before. -/

/-- What an endpoint has counted does not matter to a send. -/
theorem send_countSent (net : Network) (ring : Bell) (busyPeers : List PeerId) (mode : WaitMode)
    (dest : Destination) (message : List UInt8) :
    net.send ring busyPeers (e.countSent len) mode dest message =
      net.send ring busyPeers e mode dest message := by
  unfold send
  rfl

/-- What an endpoint has counted does not matter to a reply. -/
theorem reply_countSent (net : Network) (ring : Bell) (busyPeers : List PeerId) (a : PeerId)
    (answer : List UInt8) :
    net.reply ring busyPeers (e.countSent len) a answer = net.reply ring busyPeers e a answer := by
  unfold reply
  rw [send_countSent]
  rfl

/-- What an endpoint has counted does not matter to a delivery. -/
theorem install_countSent (net : Network) (a : PeerId) (n : UInt64) :
    net.install (e.countSent len) a n = net.install e a n := by
  unfold install
  rfl

/-- What an endpoint has counted does not matter to a dispatch. -/
theorem dispatch_countSent (net : Network) (ring : Bell) (busyPeers : List PeerId) (a : PeerId)
    (slot : Slot) :
    net.dispatch ring busyPeers (e.countSent len) a slot =
      net.dispatch ring busyPeers e a slot := by
  simp only [dispatch, reply_countSent, install_countSent, Endpoint.peer_countSent,
    Endpoint.identity_countSent, Endpoint.inbox_countSent]

/-- What an endpoint has counted does not matter to an interrupt. -/
theorem interrupt_countSent (net : Network) (ring : Bell) (busyPeers : List PeerId)
    (vector : UInt32) : net.interrupt ring busyPeers (e.countSent len) vector =
      net.interrupt ring busyPeers e vector := by
  simp only [interrupt, dispatch_countSent, Endpoint.peer_countSent, Endpoint.vectors_countSent,
    Endpoint.slotOf?, Endpoint.layout_countSent]

/-- Noting a send commutes with a reply. -/
theorem reply_noteSent (net : Network) (busyPeers : List PeerId) (a : PeerId)
    (answer : List UInt8) :
    (net.noteSent p len).reply .queue busyPeers e a answer =
      ((net.reply .queue busyPeers e a answer).1,
        (net.reply .queue busyPeers e a answer).2.noteSent p len) := by
  unfold reply
  rw [send_noteSent]
  rcases net.send .queue busyPeers e .spin (.peer a) answer with ⟨fault | sent, after⟩
  · exact congrArg (Prod.mk _) (update_noteSent after e.peer _ fun _ => rfl)
  · rfl

/-- Noting a send commutes with a dispatch. -/
theorem dispatch_noteSent (net : Network) (busyPeers : List PeerId) (a : PeerId) (slot : Slot) :
    (net.noteSent p len).dispatch .queue busyPeers e a slot =
      ((net.dispatch .queue busyPeers e a slot).1,
        (net.dispatch .queue busyPeers e a slot).2.noteSent p len) := by
  have stamped : (net.noteSent p len).stampSender slot a =
      (net.stampSender slot a).noteSent p len := rfl
  unfold dispatch
  simp only [stamped]
  generalize net.stampSender slot a = net
  -- noting a send touches a counter only, and a dispatch looks at the region
  have memory : (net.noteSent p len).memory = net.memory := rfl
  rw [memory]
  rcases (slot.busy net.memory).occupied with _ | n
  · exact congrArg (Prod.mk _) (update_noteSent net e.peer _ fun _ => rfl)
  · simp only
    rcases Link.respond e.identity (slot.payload net.memory n.toNat) with _ | ⟨identity, answer⟩
    · exact congrArg (Prod.mk _) (install_noteSent net a _)
    · simp only [remember_noteSent]
      rw [update_noteSent _ _ _ ?_, reply_noteSent]
      · exact fun _ => rfl

/-- Noting a send commutes with an interrupt. -/
theorem interrupt_noteSent (net : Network) (busyPeers : List PeerId) (vector : UInt32) :
    (net.noteSent p len).interrupt .queue busyPeers e vector =
      ((net.interrupt .queue busyPeers e vector).1,
        (net.interrupt .queue busyPeers e vector).2.noteSent p len) := by
  unfold interrupt
  rcases e.vectors.peerFor vector with _ | a
  · exact congrArg (Prod.mk _) (update_noteSent net e.peer _ fun _ => rfl)
  · simp only
    rcases e.slotOf? a with _ | slot
    · exact congrArg (Prod.mk _) (update_noteSent net e.peer _ fun _ => rfl)
    · simp only [dispatch_noteSent]

/-- A ring comes to the same before its sender has counted it and after. -/
theorem raise_noteSent (net : Network) (busyPeers : List PeerId) (w : DoorbellWord) :
    (net.noteSent p len).raise .queue busyPeers w =
      ((net.raise .queue busyPeers w).1, (net.raise .queue busyPeers w).2.noteSent p len) := by
  unfold raise
  rw [endpoint?_noteSent]
  rcases net.endpoint? w.dest with _ | e
  · rfl
  · by_cases own : p = w.dest
    · simp only [Option.map_some, own, if_true, Endpoint.listening_countSent,
        Endpoint.vectors_countSent, interrupt_countSent, interrupt_noteSent]
      split
      · rcases e.vectors.vectorFor w.origin with _ | vector <;> rfl
      · rfl
    · simp only [Option.map_some, own, if_false, interrupt_noteSent]
      split
      · rcases e.vectors.vectorFor w.origin with _ | vector <;> rfl
      · rfl

/-! ### What a ring comes to -/

/-- What a ring makes of its destination, whatever the doorbell and whoever is in the middle of a
    send: it does not answer and does not ring, or it answers the link request of a peer. -/
inductive Calls (l : Layout) (net : Network) (w : DoorbellWord) : Prop
  | quiet {after : Network} (rings : after.rings = net.rings)
      (same : ∀ ring busyPeers, (net.raise ring busyPeers w).2 = after)
  | answers {e : Endpoint} {a : PeerId} {vector : UInt32} {identity : Link.Identity}
      {answer : List UInt8} (he : net.endpoint? w.dest = some e)
      (raised : e.vectors.vectorFor w.origin = some vector)
      (behind : e.vectors.peerFor vector = some a) (owner : l.HasSlot a.toUInt64)
      (response : Link.respond e.identity ((l.slotAt a).staged net.memory).message =
        some (identity, answer))
      (same : ∀ ring busyPeers, (net.raise ring busyPeers w).2 =
        (((net.stampSender (l.slotAt a) a).acknowledge e (l.slotAt a) identity).reply ring
          busyPeers e a answer).2)

/-- Updating an endpoint concerns no ring. -/
@[simp] theorem rings_update (net : Network) (q : PeerId) (f : Endpoint → Endpoint) :
    (net.update q f).rings = net.rings := rfl

/-- Writing to memory concerns no ring. -/
@[simp] theorem rings_remember (net : Network) (f : Memory → Memory) :
    (net.remember f).rings = net.rings := rfl

/-- Clearing the slot of a sender concerns no ring. -/
theorem rings_clearSender (net : Network) (e : Endpoint) (d : Delivery) :
    (net.clearSender e d).rings = net.rings := by
  unfold clearSender
  split <;> simp only [rings_remember]

/-- Installing a delivery concerns no ring. -/
theorem rings_install (net : Network) (e : Endpoint) (a : PeerId) (n : UInt64) :
    (net.install e a n).rings = net.rings := by
  unfold install
  rcases e.inbox.install a n with ⟨inbox, _ | d⟩
  · rfl
  · simp only
    split
    · rw [rings_update, rings_update]
    · rw [rings_clearSender, rings_update, rings_update]

/-- A ring answers a link request, or the doorbell of its destination does not matter. -/
theorem calls_raise (seated : net.Seated l) (w : DoorbellWord) : net.Calls l w := by
  -- Up to the dispatch a ring may get lost in five ways, and in none of them is the doorbell of
  -- its destination used; after it, only the answer to a request uses it.
  rcases he : net.endpoint? w.dest with _ | e
  · exact .quiet rfl fun ring busyPeers => by simp only [raise, he]
  rcases listens : e.listening with _ | _
  · exact .quiet rfl fun ring busyPeers => by simp [raise, he, listens]
  rcases raised : e.vectors.vectorFor w.origin with _ | vector
  · exact .quiet rfl fun ring busyPeers => by simp [raise, he, listens, raised]
  have reached : ∀ ring busyPeers, (net.raise ring busyPeers w).2 =
      (net.interrupt ring busyPeers e vector).2 := fun ring busyPeers => by
    simp only [raise, he, listens, raised, if_true]
  rcases behind : e.vectors.peerFor vector with _ | a
  · refine .quiet ?_ fun ring busyPeers => by rw [reached, interrupt, behind]
    exact rings_update _ _ _
  rcases found : l.slot? a.toUInt64 with _ | slot
  · have lost : e.slotOf? a = none := by rw [Endpoint.slotOf?, (seated.seats _ e he).layout, found]
    refine .quiet ?_ fun ring busyPeers => by
      simp only [reached, interrupt, behind, lost]
      rfl
    exact rings_update _ _ _
  obtain rfl := Layout.slot?_eq_some seated.valid found
  have slot : e.slotOf? a = some (l.slotAt a) := by
    rw [Endpoint.slotOf?, (seated.seats _ e he).layout, found]
  have dispatched : ∀ ring busyPeers, (net.raise ring busyPeers w).2 =
      (net.dispatch ring busyPeers e a (l.slotAt a)).2 := fun ring busyPeers => by
    simp only [reached, interrupt, behind, slot]
  by_cases idle : ((l.slotAt a).staged net.memory).len = 0
  · refine .quiet ?_ fun ring busyPeers => by rw [dispatched, dispatch_of_idle _ _ idle]
    exact rings_update _ _ _
  rcases response : Link.respond e.identity ((l.slotAt a).staged net.memory).message with
    _ | ⟨identity, answer⟩
  · have plain := Link.respond_eq_none_iff.mp response
    refine .quiet ?_ fun ring busyPeers => by rw [dispatched, dispatch_of_plain _ _ idle plain]
    exact rings_install _ _ _ _
  · refine .answers he raised behind (Layout.hasSlot_of_slot? found) response
      fun ring busyPeers => ?_
    rw [dispatched, dispatch_of_request _ _ idle response]

/-- A ring of a peer that has staged no link request, at a destination whose vectors tell who
    rings. -/
theorem quiet_of_plain (seated : net.Seated l) {w : DoorbellWord}
    (distinct : ∀ q e, net.endpoint? q = some e → e.vectors.NoRepeats)
    (plain : ¬ Link.IsRequest ((l.slotAt w.origin).staged net.memory).message) :
    ∃ after, after.rings = net.rings ∧
      ∀ ring busyPeers, (net.raise ring busyPeers w).2 = after := by
  cases calls_raise seated w with
  | quiet rings same => exact ⟨_, rings, same⟩
  | answers he raised behind _ response _ =>
    rw [VectorTable.peerFor_of_vectorFor (distinct _ _ he) raised] at behind
    obtain rfl := Option.some.inj behind
    rw [Link.respond_eq_none_iff.mpr plain] at response
    cases response

/-! ### Ringing once -/

/-- What a peer does that sends at most one message, whatever the doorbell, while it is not in the
    middle of a send: it does not ring, or it rings once with the message staged, and counts it. -/
inductive Rings (l : Layout) (net : Network) (p : PeerId) (dest : Destination)
    (message : List UInt8) (act : Bell → List PeerId → Except MessageError Nat × Network) : Prop
  | never {fault : MessageError} {after : Network} (rings : after.rings = net.rings)
      (same : ∀ ring busyPeers, p ∉ busyPeers → act ring busyPeers = (.error fault, after))
  | once {mid : Network} {target : UInt64} (resolved : dest.resolve l = .ok target)
      (keeps : net.Keeps mid) (rings : mid.rings = net.rings)
      (staged : ((l.slotAt p).staged mid.memory).message = message)
      (same : ∀ ring busyPeers, p ∉ busyPeers → act ring busyPeers = (.ok message.length,
        (ring (p :: busyPeers) mid (.new p target.toUInt16)).noteSent p message.length))

/-- Peers that are in the middle of a send do not matter to a peer that is not. -/
theorem wedged_iff {busyPeers : List PeerId} {mode : WaitMode} (free : e.peer ∉ busyPeers) :
    net.Wedged busyPeers e mode ↔ ¬ (e.slot.busy net.memory).IsIdle := by
  simp [Wedged, free]

/-- A send rings once, at its end, or not at all. -/
theorem rings_send (seated : net.Seated l) (seat : e.Seated l p) (mode : WaitMode)
    (dest : Destination) (message : List UInt8) :
    net.Rings l p dest message fun ring busyPeers =>
      net.send ring busyPeers e mode dest message := by
  have own := seat.slot_eq
  obtain rfl := seat.peer
  rcases admitted : e.admit dest message with fault | target
  · have refused : ∀ ring busyPeers,
        net.send ring busyPeers e mode dest message = (.error fault, net) :=
      fun ring busyPeers => by simp only [send, admitted]
    exact .never rfl fun ring busyPeers _ => refused ring busyPeers
  obtain ⟨resolved, -, short⟩ := admit_eq_ok seat.layout admitted
  -- It is the slot that decides whether it rings, and not the doorbell that it rings.
  by_cases idle : (e.slot.busy net.memory).IsIdle
  · refine .once resolved (net.keeps_stage seated.valid seat target short) rfl ?_
      fun ring busyPeers free => ?_
    · have posted := (l.slotAt e.peer).staged_post net.memory target short
      rw [stage, own]
      exact (congrArg Staged.message posted).trans
        (Staged.message_put (Nat.lt_trans short l.maxPayload_lt))
    · have unwedged : ¬ net.Wedged busyPeers e mode := fun wedged =>
        (wedged_iff free).mp wedged idle
      simp only [send, admitted, unwedged, if_false]
      rfl
  · refine .never ?_ fun ring busyPeers free => by
      simp only [send, admitted, (wedged_iff free).mpr idle, if_true]
      rfl
    exact rings_update _ _ _

/-- A reply rings once, at its end, or not at all. -/
theorem rings_reply (seated : net.Seated l) (seat : e.Seated l p) (a : PeerId)
    (answer : List UInt8) :
    net.Rings l p (.peer a) answer fun ring busyPeers => net.reply ring busyPeers e a answer := by
  cases rings_send seated seat .spin (.peer a) answer with
  | @never fault after rings same =>
    refine .never ?_ fun ring busyPeers free => by
      simp only [reply, same ring busyPeers free]
      rfl
    rw [rings_update, rings]
  | once resolved keeps rings staged same =>
    exact .once resolved keeps rings staged fun ring busyPeers free => by
      simp only [reply, same ring busyPeers free]

/-- A ring at a peer that is not in the middle of a send comes to the same whatever the doorbell, or
    to one ring of an answer. -/
theorem raise_cases (seated : net.Seated l) (w : DoorbellWord) :
    (∃ after, after.rings = net.rings ∧ ∀ ring busyPeers, w.dest ∉ busyPeers →
      (net.raise ring busyPeers w).2 = after) ∨
    ∃ mid reply len, net.Keeps mid ∧ mid.rings = net.rings ∧ reply.origin = w.dest ∧
      ¬ Link.IsRequest ((l.slotAt w.dest).staged mid.memory).message ∧
      ∀ ring busyPeers, w.dest ∉ busyPeers → (net.raise ring busyPeers w).2 =
        (ring (w.dest :: busyPeers) mid reply).noteSent w.dest len := by
  cases calls_raise seated w with
  | quiet rings same => exact .inl ⟨_, rings, fun ring busyPeers _ => same ring busyPeers⟩
  | @answers e a _ identity answer he _ _ owner response same =>
    have stamped := net.keeps_stampSender seated.valid owner
    have cleared := stamped.trans (keeps_acknowledge _ seated.valid e owner identity)
    have waiting : ((net.stampSender (l.slotAt a) a).acknowledge e (l.slotAt a) identity).rings =
        net.rings := by
      rw [acknowledge, rings_update, rings_remember, stampSender, rings_remember]
    -- what is answered is no request, so that nothing is answered again
    have plain := Link.not_isRequest_of_respond response
    cases rings_reply (seated.keeps cleared) (seated.seats _ e he) a answer with
    | never rings once =>
      refine .inl ⟨_, rings.trans waiting, fun ring busyPeers free => ?_⟩
      rw [same, once ring busyPeers free]
    | @once mid target _ keeps rings staged once =>
      refine .inr ⟨mid, .new w.dest target.toUInt16, answer.length, cleared.trans keeps,
        rings.trans waiting, DoorbellWord.origin_new _ _, by rwa [staged],
        fun ring busyPeers free => ?_⟩
      rw [same, once ring busyPeers free]

/-! ### Delivering until nothing is left -/

/-- Where no ring is under way there is nothing to drain. -/
theorem Drain.eq_of_rings {count : Nat} (drain : net.Drain count after) (none : net.rings = []) :
    after = net := by
  cases drain with
  | done => rfl
  | next delivered _ => simp [deliver?, none] at delivered

/-- The only ring under way is delivered first. -/
theorem Drain.deliver {count : Nat} {w : DoorbellWord} (drain : net.Drain count after)
    (one : net.rings = [w]) (all : after.rings = []) :
    ∃ rest, ((net.dequeue 0).raise .queue [] w).2.Drain rest after := by
  cases drain with
  | done => simp [one] at all
  | @next _ mid _ place rest _ _ delivered drain =>
    cases place with
    | succ place => simp [deliver?, one] at delivered
    | zero =>
      rw [deliver?_of_ring (w := w) (by simp [one]), Option.some.injEq, Prod.mk.injEq,
        Prod.mk.injEq] at delivered
      obtain ⟨-, -, rfl⟩ := delivered
      exact ⟨rest, drain⟩

/-- The only ring under way is the one that is taken off the queue. -/
theorem dequeue_enqueue (none : net.rings = []) (w : DoorbellWord) :
    (net.enqueue w).dequeue 0 = net := by
  simp only [dequeue, enqueue, none, List.nil_append, List.eraseIdx_cons_zero]
  rw [← none]

/-- Deliveries in the order of the queue drain it. -/
theorem drain_deliverMany (count : Nat) (net : Network) :
    ∃ delivered, net.Drain delivered (deliverMany count net).2 := by
  induction count generalizing net with
  | zero => exact ⟨0, .done net⟩
  | succ count ih =>
    unfold deliverMany
    rcases delivered : net.deliver? 0 with _ | ⟨w, result, mid⟩
    · exact ⟨0, .done net⟩
    · obtain ⟨rest, drain⟩ := ih mid
      exact ⟨rest + 1, .next delivered drain⟩

/-- A ring that waits until its sender has counted it, and whatever it leads to, comes to the same
    as if it acts at once. -/
theorem Drain.eq_nested (seated : net.Seated l) (calm : net.rings = [])
    (distinct : ∀ q e, net.endpoint? q = some e → e.vectors.NoRepeats)
    (some : net.endpoints.size ≠ 0) {w : DoorbellWord} (other : w.dest ≠ p) {count : Nat}
    (drain : ((net.enqueue w).noteSent p len).Drain count after) (all : after.rings = []) :
    after = (Bell.nested [p] net w).noteSent p len := by
  -- There is an endpoint, so that the bound on the depth allows for at least one ring.
  obtain ⟨depth, size⟩ := Nat.exists_eq_succ_of_ne_zero some
  have nested : Bell.nested [p] net w = (net.raise (Bell.nestedTo (depth + 1)) [p] w).2 := by
    rw [Bell.nested, size]
    rfl
  obtain ⟨rest, drain⟩ := drain.deliver (w := w) (by simp [enqueue, calm]) all
  rw [dequeue_noteSent, dequeue_enqueue calm, raise_noteSent] at drain
  have free : w.dest ∉ [p] := by simpa using other
  rcases raise_cases seated w with
    ⟨last, rings, same⟩ | ⟨mid, reply, n, keeps, rings, origin, plain, same⟩
  · rw [same _ _ (by simp)] at drain
    rw [nested, same _ _ free]
    exact drain.eq_of_rings (rings.trans calm)
  · -- the answer is no request, so that it is the last ring
    obtain ⟨last, rings', same'⟩ := quiet_of_plain (seated.keeps keeps) (w := reply)
      (keeps.vectors (P := fun _ t => t.NoRepeats) distinct) (by rwa [origin])
    have none := rings.trans calm
    rw [same _ _ (by simp)] at drain
    obtain ⟨rest, drain⟩ := drain.deliver (w := reply) (by simp [Bell.queue, enqueue, none]) all
    rw [dequeue_noteSent, dequeue_noteSent, Bell.queue, dequeue_enqueue none, raise_noteSent,
      raise_noteSent, same'] at drain
    rw [nested, same _ _ free, Bell.nestedTo, same']
    exact drain.eq_of_rings (rings'.trans none)

/-- There are endpoints where one is found. -/
theorem size_endpoints (he : net.endpoint? p = some e) : net.endpoints.size ≠ 0 := by
  intro none
  rw [endpoint?, Std.ExtTreeMap.eq_empty_iff_size_eq_zero.mpr none,
    Std.ExtTreeMap.getElem?_empty] at he
  cases he

/-- A send comes to the same whether its ring acts at once or waits until everything is
    delivered. -/
theorem perform_nested (seated : net.Seated l) (calm : net.rings = [])
    (distinct : ∀ q e, net.endpoint? q = some e → e.vectors.NoRepeats) (mode : WaitMode)
    {dest : Destination} (message : List UInt8) (other : dest.resolve l ≠ .ok p.toUInt64) :
    (net.perform .nested (.send p mode dest message)).1 =
      (net.perform .queue (.send p mode dest message)).1 ∧
    ∀ count after, (net.perform .queue (.send p mode dest message)).2.Drain count after →
      after.rings = [] → after = (net.perform .nested (.send p mode dest message)).2 := by
  simp only [perform, actAs]
  rcases he : net.endpoint? p with _ | e
  · exact ⟨rfl, fun count after drain _ => drain.eq_of_rings calm⟩
  simp only
  have seat := seated.seats p e he
  -- A send that fails rings no doorbell; one that succeeds rings one, at another endpoint.
  cases rings_send seated seat mode dest message with
  | never rings same =>
    rw [same .nested [] (by simp), same .queue [] (by simp)]
    exact ⟨rfl, fun count after drain _ => drain.eq_of_rings (rings.trans calm)⟩
  | @once mid target resolved keeps rings _ same =>
    rw [same .nested [] (by simp), same .queue [] (by simp)]
    refine ⟨rfl, fun count after drain all => ?_⟩
    obtain ⟨e', he', -⟩ : ∃ e', mid.endpoint? p = some e' ∧ e'.standing = e.standing := by
      have stays := keeps.standing p
      rwa [he, Option.map_some, Option.map_eq_some_iff] at stays
    have elsewhere : (DoorbellWord.new p target.toUInt16).dest ≠ p := by
      rw [DoorbellWord.dest_new]
      rintro rfl
      rw [(Destination.hasSlot_of_resolve resolved).toUInt16_toUInt64 seated.valid] at other
      exact other resolved
    exact drain.eq_nested (seated.keeps keeps) (rings.trans calm)
      (keeps.vectors (P := fun _ t => t.NoRepeats) distinct) (size_endpoints he') elsewhere all

/-- **Nesting.** While no ring is under way and no endpoint has a vector twice, whoever sends to
    another peer has the same result, and leaves the same network, whether the ring acts at once or
    waits with all that follow until they are delivered, in whatever order. What stands in the
    region does not matter, and endpoints sit at their peers in every run (`Seated.run`). -/
theorem nested_eq_settled (seated : net.Seated l) (calm : net.rings = [])
    (distinct : ∀ q e, net.endpoint? q = some e → e.vectors.NoRepeats) {mode : WaitMode}
    {dest : Destination} {message : List UInt8} (other : dest.resolve l ≠ .ok p.toUInt64) :
    net.perform .nested (.send p mode dest message) =
      ((net.perform .queue (.send p mode dest message)).1,
        (net.perform .queue (.send p mode dest message)).2.settle) ∧
    (net.perform .nested (.send p mode dest message)).2.rings = [] ∧
    ∀ count after, (net.perform .queue (.send p mode dest message)).2.Drain count after →
      after.rings = [] → after = (net.perform .nested (.send p mode dest message)).2 := by
  obtain ⟨result, drains⟩ := perform_nested seated calm distinct mode message other
  have stays : ¬ (Action.send p mode dest message).ComesOrGoes := id
  have queued := seated.keeps (seated.keeps_perform (Bell.keeps_queue l) stays)
  -- settling is one of the ways to deliver everything
  obtain ⟨count, drain⟩ := drain_deliverMany _ (net.perform .queue (.send p mode dest message)).2
  have settled := drains count _ drain queued.rings_settle
  refine ⟨Prod.ext result settled.symm, ?_, drains⟩
  rw [← settled]
  exact queued.rings_settle

/-- Peer 1 asks peer 2 for a sign of life, and has the answer before its own send is over. -/
theorem nested_eq_settled_small :
    let net := (ofMailbox smallMailbox).run .queue [join 1, join 2]
    let asked := net.perform .queue (.send 1 .spin (.peer 2) Link.ping)
    net.perform .nested (.send 1 .spin (.peer 2) Link.ping) = (asked.1, asked.2.settle) ∧
      ((asked.2.settle.endpoint? 1).bind Endpoint.pendingSender) = some 2 := by
  have orderly : ∀ action ∈ [join 1, join 2], action.Orderly := by decide
  have wf := (path_of_once False create_small (fun action h => .inr (orderly action h))
    (by decide +kernel)).1
  have distinct := fun q e he => (wf.fits q e he).vectors.resolve_left id
  exact ⟨(nested_eq_settled wf.seated (by decide +kernel) distinct (by decide)).1,
    by decide +kernel⟩

end Network

end SharedMailbox
