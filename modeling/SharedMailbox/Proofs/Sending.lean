import SharedMailbox.Proofs.View

namespace SharedMailbox

/-!
# Sending and interrupts on views

What a send, a ring and an interrupt make of the view of a network, with all that they may come to.
Rings wait until they are delivered.

* `View.Admits`, `View.Sends`: a message may be staged; what may come of a send.
* `Link.IsRequest`: a message that the endpoint answers by itself, whoever it is.
* `View.Handles`, `View.Raises`: what an endpoint makes of an interrupt, and what may come of a
  ring.
* `WellFormed.send`, `WellFormed.dispatch`, `WellFormed.raise` and so on: the operations keep a
  network well-formed and do to its view what these say.
-/

/-! ### Sending -/

/-- A message that was sent: by whom, where to, and the message. -/
structure Sent where
  origin : PeerId
  dest : Destination
  message : List UInt8
  deriving DecidableEq

/-- A message may be staged for a target: its destination resolves to the target, there is a message
    that fits into a slot, and the slot of the sender is idle. -/
structure View.Admits (l : Layout) (v : View) (s : Sent) (target : UInt64) : Prop where
  resolved : s.dest.resolve l = .ok target
  nonempty : s.message ≠ []
  short : s.message.length < l.maxPayload
  idle : (v.staged s.origin).len = 0

/-- What may come of a send: it is refused and nothing shows, or the message is staged and
    announced. -/
inductive View.Sends (l : Layout) (v : View) (s : Sent) : Except MessageError Nat → View → Prop
  | refused (fault : MessageError) : Sends l v s (.error fault) v
  | posted {target : UInt64} (admits : v.Admits l s target) :
      Sends l v s (.ok s.message.length) (v.post s.origin target s.message)

namespace Network

variable {net : Network} {l : Layout} {stray : Prop} {p : PeerId} {e : Endpoint}

/-- A message that is admitted has a destination, at least one byte, and room for its NUL. -/
theorem admit_eq_ok (layout : e.layout = l) {dest : Destination} {message : List UInt8}
    {target : UInt64} (h : e.admit dest message = .ok target) :
    dest.resolve l = .ok target ∧ message ≠ [] ∧ message.length < l.maxPayload := by
  unfold Endpoint.admit at h
  rw [layout] at h
  split at h
  next => cases h
  next resolved =>
    split_ifs at h with empty long
    cases h
    exact ⟨resolved, empty, Nat.lt_of_not_le long⟩

/-- A send keeps the network well-formed; either it is refused and nothing shows, or the message
    is posted and one ring is under way. -/
theorem WellFormed.send (wf : WellFormed l stray net) (fits : e.Fits l stray p)
    (busyPeers : List PeerId) (mode : WaitMode) (dest : Destination) (message : List UInt8) :
    WellFormed l stray (net.send .queue busyPeers e mode dest message).2 ∧
      net.view.Sends l ⟨p, dest, message⟩ (net.send .queue busyPeers e mode dest message).1
        (net.send .queue busyPeers e mode dest message).2.view := by
  obtain rfl := fits.peer
  unfold Network.send
  rcases admitted : e.admit dest message with fault | target
  · exact ⟨wf, .refused fault⟩
  · obtain ⟨resolved, nonempty, short⟩ := admit_eq_ok fits.layout admitted
    -- with a busy slot the send times out, and only a counter changes
    by_cases wedged : net.Wedged busyPeers e mode
    · simp only [wedged, if_true, view_count]
      exact ⟨wf.count _ _, .refused _⟩
    · -- the slot that the endpoint writes is the one that the view shows for its peer
      have own : e.slot = net.layout.slotAt e.peer := by
        rw [Endpoint.slot, fits.layout, ← wf.layout]
        rfl
      have idle : (net.view.staged e.peer).len = 0 := by
        have idle := (not_or.mp wedged).2
        rw [own, Decidable.not_not] at idle
        exact idle
      have staged := wf.remember fun m => e.slot.publish (UInt64.ofNat message.length)
        (e.slot.setLastResponder target (e.slot.stage message m))
      have queued : WellFormed l stray ((net.stage e target message).enqueue
          (.new e.peer target.toUInt16)) := ⟨staged.layout, staged.valid, staged.fits⟩
      have posted : ((net.stage e target message).enqueue (.new e.peer target.toUInt16)).view =
          net.view.post e.peer target message := by
        rw [view_enqueue, wf.view_stage fits target short]
        rfl
      simp only [wedged, if_false, view_count, Bell.queue, posted]
      exact ⟨queued.count _ _, .posted ⟨resolved, nonempty, short, idle⟩⟩

/-- An answer is a send to the peer that it answers. -/
theorem WellFormed.reply (wf : WellFormed l stray net) (fits : e.Fits l stray p)
    (busyPeers : List PeerId) (sender : PeerId) (answer : List UInt8) :
    WellFormed l stray (net.reply .queue busyPeers e sender answer).2 ∧
      net.view.Sends l ⟨p, .peer sender, answer⟩ (net.reply .queue busyPeers e sender answer).1
        (net.reply .queue busyPeers e sender answer).2.view := by
  have sent := wf.send fits busyPeers .spin (.peer sender) answer
  unfold Network.reply
  rcases outcome : net.send .queue busyPeers e .spin (.peer sender) answer with ⟨fault | len, after⟩
  · rw [outcome] at sent
    exact ⟨sent.1.count _ _, by rw [view_count]; exact sent.2⟩
  · rwa [outcome] at sent

/-- A patient sender sends once, however often it tries. -/
theorem WellFormed.sendPatiently (fits : e.Fits l stray p) (dest : Destination)
    (body : List UInt8) (attempts : Nat) (wf : WellFormed l stray net) :
    WellFormed l stray (net.sendPatiently .queue e dest body attempts).2 ∧
      net.view.Sends l ⟨p, dest, body⟩ (net.sendPatiently .queue e dest body attempts).1
        (net.sendPatiently .queue e dest body attempts).2.view := by
  induction attempts generalizing net with
  | zero => exact ⟨wf, .refused _⟩
  | succ attempts ih =>
    have sent := wf.send fits [] .sleep dest body
    unfold Network.sendPatiently
    rcases outcome : net.send .queue [] e .sleep dest body with ⟨result, after⟩
    rw [outcome] at sent
    obtain ⟨wf', sends⟩ := sent
    split
    next peer deadline again same =>
      -- the attempt found the slot busy, and the view is as before it
      obtain ⟨rfl, rfl⟩ := Prod.mk.inj same
      generalize unseen : after.view = u at sends
      cases sends
      rw [← unseen]
      exact ih wf'
    next => exact ⟨wf', sends⟩

/-- Asking for a dump is a send to the coordinator. -/
theorem WellFormed.requestDump (wf : WellFormed l stray net) (fits : e.Fits l stray p) :
    WellFormed l stray (net.requestDump .queue e).2 ∧
      net.view.Sends l ⟨p, .coordinator l, Link.switchDump⟩ (net.requestDump .queue e).1
        (net.requestDump .queue e).2.view := by
  rw [Network.requestDump, fits.layout]
  exact wf.send fits [] .sleep _ _

/-- A write sends the payload of its request to the destination that the request names, or it shows
    nothing. -/
theorem WellFormed.write (wf : WellFormed l stray net) (fits : e.Fits l stray p)
    (request : List UInt8) :
    WellFormed l stray (net.write .queue e request).2 ∧
      ((∃ fault, (net.write .queue e request).1 = .error fault ∧
          (net.write .queue e request).2.view = net.view) ∨
        ∃ dest body target, (net.write .queue e request).1 = .ok request.length ∧
          Request.parse l request = .ok (dest, body) ∧
          net.view.Admits l ⟨p, dest, body⟩ target ∧
          (net.write .queue e request).2.view = net.view.post p target body) := by
  unfold Network.write
  simp only [fits.layout]
  split
  next => exact ⟨wf, .inl ⟨_, rfl, rfl⟩⟩
  next =>
    rcases parsed : Request.parse l request with fault | ⟨dest, body⟩
    · exact ⟨wf, .inl ⟨_, rfl, rfl⟩⟩
    · -- a write sends its body as a send does, and shows what that shows
      have sent := wf.sendPatiently fits dest body writeAttempts
      rcases outcome : net.sendPatiently .queue e dest body writeAttempts with ⟨result, after⟩
      rw [outcome] at sent
      obtain ⟨wf', sends⟩ := sent
      simp only [outcome]
      generalize shown : after.view = u at sends
      cases sends with
      | refused fault => exact ⟨wf', .inl ⟨fault, rfl, shown⟩⟩
      | @posted target admits =>
        simp only [ne_eq, not_true_eq_false, if_false]
        exact ⟨wf', .inr ⟨dest, body, target, trivial, rfl, admits, shown⟩⟩

end Network

/-! ### Interrupts -/

/-- A message that endpoints answer by themselves. -/
def Link.IsRequest (message : List UInt8) : Prop :=
  message = ping ∨ (Utf8.encode peerAttribute).isPrefixOf message ∨ CtlWrite.parse? message ≠ none

instance (message : List UInt8) : Decidable (Link.IsRequest message) :=
  inferInstanceAs (Decidable (_ ∨ _))

/-- Whether a message is answered does not depend on who the endpoint is. -/
theorem Link.respond_eq_none_iff {id : Identity} {message : List UInt8} :
    respond id message = none ↔ ¬ IsRequest message := by
  unfold respond IsRequest
  split_ifs with isPing isQuery
  · simp [isPing]
  · simp [isQuery]
  · cases CtlWrite.parse? message <;> simp [isPing, isQuery]

/-- What an endpoint makes of an interrupt of a sender: nothing, if the sender has no slot or
    nothing staged; a link request is marked consumed and answered; any other message becomes the
    pending delivery, unless one of the same sender is pending. -/
inductive View.Handles (l : Layout) (v : View) (p : PeerId) (i : Inbox) (a : PeerId) :
    Receipt → View → Prop
  | slotless (nowhere : ¬ l.HasSlot a.toUInt64) : Handles l v p i a .slotless v
  | spurious (idle : (v.staged a).len = 0) : Handles l v p i a .spurious v
  | answered {answer : List UInt8} {result : Except MessageError Nat} {w : View}
      (busy : (v.staged a).len ≠ 0) (request : Link.IsRequest (v.staged a).message)
      (sends : (v.clear a (v.staged a).len).Sends l ⟨p, .peer a, answer⟩ result w) :
      Handles l v p i a (.answered a answer result) w
  | waiting (busy : (v.staged a).len ≠ 0) (plain : ¬ Link.IsRequest (v.staged a).message)
      (stale : i.fresh? a (v.staged a).len = none) : Handles l v p i a (.left a none) v
  | installed {d : Delivery} (owner : l.HasSlot a.toUInt64) (busy : (v.staged a).len ≠ 0)
      (plain : ¬ Link.IsRequest (v.staged a).message)
      (fresh : i.fresh? a (v.staged a).len = some d) :
      Handles l v p i a (.left a (some d)) (v.install p i d)

namespace Network

variable {net : Network} {l : Layout} {stray : Prop} {p : PeerId} {e : Endpoint}

/-- A new inbox for an endpoint, which refers to no message of a peer without a slot, and whatever
    else of its record is neither its place nor its vectors. -/
theorem WellFormed.setInbox (wf : WellFormed l stray net) (he : net.endpoint? p = some e)
    {i : Inbox} {f : Endpoint → Endpoint} (place : (f e).peer = e.peer ∧ (f e).layout = e.layout)
    (vectors : (f e).vectors = e.vectors) (inbox : (f e).inbox = i)
    (refers : ∀ d, i.Refers d → l.HasSlot d.sender.toUInt64) :
    WellFormed l stray (net.update p f) := by
  have fits := wf.fits p e he
  refine wf.update fun e' he' => ?_
  obtain rfl := Option.some.inj (he.symm.trans he')
  exact ⟨place.1.trans fits.peer, place.2.trans fits.layout, fits.owner, vectors ▸ fits.vectors,
    inbox ▸ refers⟩

/-- Installing a delivery keeps the network well-formed. A fresh one shows in the inbox, and in
    the slot of the one that it displaces; one that is not fresh shows nowhere. -/
theorem WellFormed.install (wf : WellFormed l stray net) (he : net.endpoint? p = some e)
    {a : PeerId} (owner : l.HasSlot a.toUInt64) (len : UInt64) :
    WellFormed l stray (net.install e a len) ∧
      (∀ d, e.inbox.fresh? a len = some d →
        (net.install e a len).view = net.view.install p e.inbox d) ∧
      (e.inbox.fresh? a len = none → (net.install e a len).view = net.view) := by
  have fits := wf.fits p e he
  obtain rfl := fits.peer
  unfold Network.install
  -- an installation shows iff no delivery of the same sender is pending
  rcases fresh : e.inbox.fresh? a len with _ | d
  · simp only [Inbox.install_of_stale fresh]
    have here := inbox?_of_endpoint? he
    refine ⟨wf.setInbox he ⟨rfl, rfl⟩ rfl rfl fits.refers, by simp, fun _ => ?_⟩
    rw [view_update he]
    exact net.view.setInbox_self here
  · have refers : ∀ c, (e.inbox.accept d).Refers c → l.HasSlot c.sender.toUInt64 := by
      intro c hc
      rcases Inbox.refers_accept hc with rfl | old
      · rw [(Inbox.fresh?_eq_some.mp fresh).2]
        exact owner
      · exact fits.refers c (.inr old)
    let received : Endpoint → Endpoint := fun e' =>
      { e' with inbox := e.inbox.accept d, metrics.delivered := e'.metrics.delivered + 1 }
    have wf₁ : WellFormed l stray (net.update e.peer received) :=
      wf.setInbox he ⟨rfl, rfl⟩ rfl rfl refers
    have shown₁ : (net.update e.peer received).view =
        net.view.setInbox e.peer (some (e.inbox.accept d)) := view_update he _
    simp only [Inbox.install_of_fresh? fresh, Option.some.injEq, reduceCtorEq, false_implies,
      and_true, forall_eq']
    rw [View.install, ← shown₁]
    -- what was pending is given up, unless it is the delivery in hand
    rcases pending : e.inbox.pending with _ | q
    · have kept : e.inbox.stomped = none := by simp [Inbox.stomped, pending]
      rw [kept]
      exact ⟨wf₁, rfl⟩
    · have wf₂ := wf₁.count e.peer fun c => { c with incomingStomps := c.incomingStomps + 1 }
      have shown₂ := view_count (net.update e.peer received) e.peer fun c =>
        { c with incomingStomps := c.incomingStomps + 1 }
      by_cases held : e.inbox.Holds q
      · have kept : e.inbox.stomped = none := by simp [Inbox.stomped, pending, held]
        have held' : (e.inbox.accept d).Holds q := held
        simp only [held', if_true, kept]
        exact ⟨wf₂, shown₂⟩
      · have given : e.inbox.stomped = some q := Inbox.stomped_eq_some.mpr ⟨pending, held⟩
        have held' : ¬ (e.inbox.accept d).Holds q := held
        simp only [held', if_false, given]
        rw [← shown₂]
        refine ⟨wf₂.clearGivenUp e (some q), wf₂.view_clearGivenUp fits (o := some q) ?_⟩
        rintro _ ⟨⟩
        exact fits.refers q (.inl pending)

/-! What a dispatch does depends on what is staged in the slot of the sender. -/

/-- The occupied length is the staged one, if that is not zero. -/
theorem occupied_busy (s : Slot) (m : Memory) : (s.busy m).occupied =
    if (s.staged m).len = 0 then none else some (s.staged m).len := rfl

/-- Stamps leave what is staged alone. -/
theorem staged_stampSender (net : Network) (slot : Slot) (a : PeerId) :
    slot.staged (net.stampSender slot a).memory = slot.staged net.memory :=
  slot.staged_stamp net.memory (firstCid a) subnetWord

/-- The network once a link request is marked consumed, before its answer is sent. -/
def acknowledge (net : Network) (e : Endpoint) (slot : Slot) (identity : Link.Identity) :
    Network :=
  (net.remember (slot.clear (slot.staged net.memory).len)).update e.peer fun e =>
    { e with identity := identity, metrics.linkHandled := e.metrics.linkHandled + 1 }

/-- An interrupt whose sender has nothing staged is spurious. -/
theorem dispatch_of_idle (ring : Bell) (busyPeers : List PeerId) {a : PeerId} {slot : Slot}
    (idle : (slot.staged net.memory).len = 0) :
    net.dispatch ring busyPeers e a slot =
      (.spurious, (net.stampSender slot a).update e.peer (.count fun c =>
        { c with spuriousInterrupts := c.spuriousInterrupts + 1 })) := by
  simp only [dispatch, occupied_busy, staged_stampSender, idle, if_true]

/-- A message that is no request is left for the consumer. -/
theorem dispatch_of_plain (ring : Bell) (busyPeers : List PeerId) {a : PeerId} {slot : Slot}
    (busy : (slot.staged net.memory).len ≠ 0)
    (plain : ¬ Link.IsRequest (slot.staged net.memory).message) :
    net.dispatch ring busyPeers e a slot =
      (.left a (e.inbox.fresh? a (slot.staged net.memory).len),
        (net.stampSender slot a).install e a (slot.staged net.memory).len) := by
  have message := slot.payload_len_staged (net.stampSender slot a).memory
  rw [staged_stampSender] at message
  simp only [dispatch, occupied_busy, staged_stampSender, busy, if_false, message,
    Link.respond_eq_none_iff.mpr plain]

/-- A request is acknowledged, which frees the slot of its sender, and answered. -/
theorem dispatch_of_request (ring : Bell) (busyPeers : List PeerId) {a : PeerId} {slot : Slot}
    {identity : Link.Identity} {answer : List UInt8} (busy : (slot.staged net.memory).len ≠ 0)
    (response : Link.respond e.identity (slot.staged net.memory).message =
      some (identity, answer)) :
    net.dispatch ring busyPeers e a slot =
      (.answered a answer (((net.stampSender slot a).acknowledge e slot identity).reply ring
          busyPeers e a answer).1,
        (((net.stampSender slot a).acknowledge e slot identity).reply ring busyPeers e a
          answer).2) := by
  have message := slot.payload_len_staged (net.stampSender slot a).memory
  rw [staged_stampSender] at message
  simp only [dispatch, occupied_busy, staged_stampSender, busy, if_false, message, response,
    acknowledge]

/-- Before the answer is sent, the request shows no more. -/
theorem WellFormed.acknowledge (wf : WellFormed l stray net) (e : Endpoint) (a : PeerId)
    (identity : Link.Identity) :
    WellFormed l stray ((net.stampSender (l.slotAt a) a).acknowledge e (l.slotAt a) identity) ∧
      ((net.stampSender (l.slotAt a) a).acknowledge e (l.slotAt a) identity).view =
        net.view.clear a (net.view.staged a).len := by
  have stamped : WellFormed l stray (net.stampSender (l.slotAt a) a) := wf.remember _
  have there : (l.slotAt a).staged net.memory = net.view.staged a := by
    rw [staged_view, Network.staged, wf.layout]
  refine ⟨(stamped.remember _).update_of_inbox (fun _ => ⟨rfl, rfl⟩) (fun _ => rfl) fun _ => rfl,
    ?_⟩
  rw [← there, ← staged_stampSender net _ a, ← wf.view_stampSender, ← stamped.view_clear]
  exact view_update_of_inbox fun _ => rfl

/-- A dispatch keeps the network well-formed, and shows as one of the ways to handle a message. -/
theorem WellFormed.dispatch (wf : WellFormed l stray net) (he : net.endpoint? p = some e)
    (busyPeers : List PeerId) {a : PeerId} (owner : l.HasSlot a.toUInt64) :
    WellFormed l stray (net.dispatch .queue busyPeers e a (l.slotAt a)).2 ∧
      net.view.Handles l p e.inbox a (net.dispatch .queue busyPeers e a (l.slotAt a)).1
        (net.dispatch .queue busyPeers e a (l.slotAt a)).2.view := by
  have fits := wf.fits p e he
  obtain rfl := fits.peer
  -- the ids of the sender are stamped first, which the view does not show
  have stamped : WellFormed l stray (net.stampSender (l.slotAt a) a) := wf.remember _
  have unseen := wf.view_stampSender a
  have there : (l.slotAt a).staged net.memory = net.view.staged a := by
    rw [staged_view, Network.staged, wf.layout]
  by_cases idle : (net.view.staged a).len = 0
  · rw [dispatch_of_idle _ _ (there ▸ idle)]
    simp only [view_count, unseen]
    exact ⟨stamped.count _ _, .spurious idle⟩
  · rcases response : Link.respond e.identity (net.view.staged a).message with
      _ | ⟨identity, answer⟩
    · have plain := Link.respond_eq_none_iff.mp response
      rw [dispatch_of_plain _ _ (there ▸ idle) (there ▸ plain), there]
      obtain ⟨wf', new, stale⟩ := stamped.install he owner (net.view.staged a).len
      refine ⟨wf', ?_⟩
      rw [unseen] at new stale
      rcases fresh : e.inbox.fresh? a (net.view.staged a).len with _ | d
      · rw [stale fresh]
        exact .waiting idle plain fresh
      · rw [new d fresh]
        exact .installed owner idle plain fresh
    · -- a request: the slot of the sender is cleared, then the answer is sent
      have request : Link.IsRequest (net.view.staged a).message := by
        by_contra plain
        rw [Link.respond_eq_none_iff.mpr plain] at response
        cases response
      rw [dispatch_of_request _ _ (there ▸ idle) (there ▸ response)]
      obtain ⟨cleared, shown⟩ := wf.acknowledge e a identity
      have replied := cleared.reply fits busyPeers a answer
      rw [shown] at replied
      exact ⟨replied.1, .answered idle request replied.2⟩

/-- An interrupt without a vector of the endpoint is dropped. -/
theorem WellFormed.interrupt_foreign (wf : WellFormed l stray net) (busyPeers : List PeerId)
    {vector : UInt32} (unknown : e.vectors.peerFor vector = none) :
    WellFormed l stray (net.interrupt .queue busyPeers e vector).2 ∧
      (net.interrupt .queue busyPeers e vector).1 = .foreign ∧
      (net.interrupt .queue busyPeers e vector).2.view = net.view := by
  simp only [Network.interrupt, unknown, view_count]
  exact ⟨wf.count _ _, trivial, trivial⟩

/-- An interrupt of a sender is handled. -/
theorem WellFormed.interrupt (wf : WellFormed l stray net) (he : net.endpoint? p = some e)
    (busyPeers : List PeerId) {vector : UInt32} {a : PeerId}
    (known : e.vectors.peerFor vector = some a) :
    WellFormed l stray (net.interrupt .queue busyPeers e vector).2 ∧
      ∃ receipt, (net.interrupt .queue busyPeers e vector).1 = .handled receipt ∧
        net.view.Handles l p e.inbox a receipt
          (net.interrupt .queue busyPeers e vector).2.view := by
  have fits := wf.fits p e he
  simp only [Network.interrupt, known, Endpoint.slotOf?, fits.layout]
  by_cases owner : l.HasSlot a.toUInt64
  · have dispatched := wf.dispatch he busyPeers owner
    rw [Layout.slot?_of_hasSlot wf.valid owner]
    rcases outcome : net.dispatch .queue busyPeers e a (l.slotAt a) with ⟨receipt, after⟩
    rw [outcome] at dispatched
    simp only [outcome]
    exact ⟨dispatched.1, receipt, rfl, dispatched.2⟩
  · -- the interrupt of a sender without a slot is dropped
    have nowhere : l.slot? a.toUInt64 = none := by
      rcases found : l.slot? a.toUInt64 with _ | slot
      · rfl
      · exact absurd (Layout.hasSlot_of_slot? found) owner
    rw [nowhere]
    simp only [view_count]
    exact ⟨wf.count _ _, .slotless, rfl, .slotless owner⟩

end Network

/-- What may come of a ring: it reaches nobody, or the endpoint at its destination handles it as an
    interrupt of its origin, or of some other peer where vectors may repeat. -/
inductive View.Raises (l : Layout) (stray : Prop) (v : View) (w : DoorbellWord) :
    RingResult → View → Prop
  | unattached : Raises l stray v w .unattached v
  | noVector : Raises l stray v w .noVector v
  | foreign : Raises l stray v w (.reached .foreign) v
  | reached {i : Inbox} {a : PeerId} {receipt : Receipt} {u : View}
      (here : v.inbox w.dest = some i) (origin : stray ∨ a = w.origin)
      (handles : v.Handles l w.dest i a receipt u) :
      Raises l stray v w (.reached (.handled receipt)) u

namespace Network

variable {net : Network} {l : Layout} {stray : Prop} {p : PeerId} {e : Endpoint}

/-- A ring keeps the network well-formed, and shows as one of the things that it may come to. -/
theorem WellFormed.raise (wf : WellFormed l stray net) (busyPeers : List PeerId)
    (w : DoorbellWord) :
    WellFormed l stray (net.raise .queue busyPeers w).2 ∧
      net.view.Raises l stray w (net.raise .queue busyPeers w).1
        (net.raise .queue busyPeers w).2.view := by
  unfold Network.raise
  rcases he : net.endpoint? w.dest with _ | e
  · exact ⟨wf, .unattached⟩
  · by_cases listening : e.listening
    · simp only [listening, if_true]
      rcases raised : e.vectors.vectorFor w.origin with _ | vector
      · exact ⟨wf, .noVector⟩
      · simp only
        rcases known : e.vectors.peerFor vector with _ | a
        · obtain ⟨wf', handling, unseen⟩ := wf.interrupt_foreign busyPeers known
          rw [handling, unseen]
          exact ⟨wf', .foreign⟩
        · obtain ⟨wf', receipt, handling, handles⟩ := wf.interrupt he busyPeers known
          -- without repeats a vector leads back to the peer that it was chosen for
          have origin : stray ∨ a = w.origin := (wf.fits _ e he).vectors.imp_right fun distinct =>
            Option.some.inj (known.symm.trans (VectorTable.peerFor_of_vectorFor distinct raised))
          rw [handling]
          exact ⟨wf', .reached (inbox?_of_endpoint? he) origin handles⟩
    · simp only [listening]
      exact ⟨wf, .unattached⟩

/-- A ring that is delivered leaves the queue first. -/
theorem WellFormed.deliver? (wf : WellFormed l stray net) {place : Nat} {w : DoorbellWord}
    {result : RingResult} {after : Network} (h : net.deliver? place = some (w, result, after)) :
    WellFormed l stray after ∧ net.view.rings[place]? = some w ∧
      (net.view.drop place).Raises l stray w result after.view := by
  unfold Network.deliver? at h
  split at h
  next => cases h
  next ring found =>
    simp only [Option.some.injEq, Prod.mk.injEq] at h
    obtain ⟨rfl, rfl, rfl⟩ := h
    have dropped : WellFormed l stray { net with rings := net.rings.eraseIdx place } :=
      ⟨wf.layout, wf.valid, wf.fits⟩
    obtain ⟨wf', raises⟩ := dropped.raise [] ring
    exact ⟨wf', found, raises⟩

end Network

end SharedMailbox
