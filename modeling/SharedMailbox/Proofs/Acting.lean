import SharedMailbox.Proofs.Footprint

namespace SharedMailbox

/-!
# What an endpoint does

Whatever the state of the region, the inboxes, the vectors and the rings: an operation of an
endpoint leaves other endpoints as they are, writes what it may write, and raises a ring for what it
sends.

* `Network.Acts`: what an endpoint does to a network.
* `Network.Submits`: what comes of it when it sends; `Network.Responds`: what comes of an interrupt.
* `Network.acts_install`, `Network.submits_send`, `Network.responds_interrupt` and so on: it is so
  for each operation.
-/

/-- An endpoint sits at a peer: it sees the region through the layout, and the peer owns a slot. -/
structure Endpoint.Seated (l : Layout) (p : PeerId) (e : Endpoint) : Prop where
  peer : e.peer = p
  layout : e.layout = l
  owner : l.HasSlot p.toUInt64

/-- The slot of an endpoint that has its seat is where the layout has it. -/
theorem Endpoint.Seated.slot_eq {l : Layout} {p : PeerId} {e : Endpoint} (seat : e.Seated l p) :
    e.slot = l.slotAt p := by
  rw [Endpoint.slot, seat.peer, seat.layout]
  rfl

/-- The message of a send, if the send has this result. -/
def Sent.ofResult? (s : Sent) : Except MessageError Nat → Option Sent
  | .ok _ => some s
  | .error _ => none

namespace Network

/-- The mailbox has this layout, which divides its region, and every endpoint sits at its peer. The
    memory, the inboxes, the vectors and the rings may be whatever they are. -/
structure Seated (l : Layout) (net : Network) : Prop where
  layout : net.layout = l
  valid : l.Valid
  seats : ∀ p e, net.endpoint? p = some e → e.Seated l p

/-- What the endpoint of `p` does to a network, with the message that it sends by it: it writes what
    it may write, its ring gets under way, and the other endpoints stay as they are. -/
structure Acts (l : Layout) (p : PeerId) (net : Network) (sent : Option Sent) (after : Network) :
    Prop where
  layout : after.layout = net.layout
  deeds : Memory.Deeds l p net.memory sent after.memory
  rings : after.rings.map DoorbellWord.origin =
    net.rings.map DoorbellWord.origin ++ sent.toList.map Sent.origin
  others : ∀ q, q ≠ p → after.endpoint? q = net.endpoint? q
  /-- Its record stays where it was, with the vectors that it had, or is a new one. -/
  seat : ∀ e', after.endpoint? p = some e' →
    (∃ e, net.endpoint? p = some e ∧ e'.peer = e.peer ∧ e'.layout = e.layout ∧
      e'.vectors = e.vectors) ∨
    (e'.Seated l p ∧ l.nEvents.toNat ≤ e'.vectors.size)

variable {net mid after : Network} {l : Layout} {p : PeerId} {e : Endpoint} {sent : Option Sent}

/-- To do nothing is to act within bounds. -/
theorem Acts.refl (l : Layout) (p : PeerId) (net : Network) : net.Acts l p none net where
  layout := rfl
  deeds := .refl l p _
  rings := by simp
  others _ _ := rfl
  seat e' he := .inl ⟨e', he, rfl, rfl, rfl⟩

/-- After an act that sends nothing another one may follow. -/
theorem Acts.andThen (first : net.Acts l p none mid) (later : mid.Acts l p sent after) :
    net.Acts l p sent after where
  layout := later.layout.trans first.layout
  deeds := first.deeds.andThen later.deeds
  rings := by simpa using later.rings.trans (congrArg (· ++ _) first.rings)
  others q other := (later.others q other).trans (first.others q other)
  seat e' he := by
    rcases later.seat e' he with ⟨e, he, peer, layout, vectors⟩ | new
    · rcases first.seat e he with ⟨e₀, he₀, peer₀, layout₀, vectors₀⟩ | ⟨seat, enough⟩
      · exact .inl ⟨e₀, he₀, peer.trans peer₀, layout.trans layout₀, vectors.trans vectors₀⟩
      · exact .inr ⟨⟨peer.trans seat.peer, layout.trans seat.layout, seat.owner⟩, vectors ▸ enough⟩
    · exact .inr new

/-- An act adds one ring for what it sends, and no other. -/
theorem Acts.length_rings (acts : net.Acts l p sent after) :
    after.rings.length = net.rings.length + sent.toList.length := by
  simpa using congrArg List.length acts.rings

/-- A change to the record of an endpoint that keeps its seat and its vectors. -/
theorem acts_update (net : Network) (l : Layout) {f : Endpoint → Endpoint}
    (place : ∀ e, (f e).peer = e.peer ∧ (f e).layout = e.layout)
    (vectors : ∀ e, (f e).vectors = e.vectors) : net.Acts l p none (net.update p f) where
  layout := rfl
  deeds := .refl l p _
  rings := by simp [update]
  others q other := endpoint?_update_of_ne (Ne.symm other)
  seat e' he := by
    rw [endpoint?_update_self, Option.map_eq_some_iff] at he
    obtain ⟨e, he, rfl⟩ := he
    exact .inl ⟨e, he, (place e).1, (place e).2, vectors e⟩

/-- Counting is an act that sends nothing. -/
theorem acts_count (net : Network) (l : Layout) (p : PeerId) (f : Metrics → Metrics) :
    net.Acts l p none (net.update p (.count f)) :=
  acts_update net l (fun _ => ⟨rfl, rfl⟩) fun _ => rfl

/-- A write that announces nothing. -/
theorem acts_remember {f : Memory → Memory} (write : Memory.Write l p net.memory (f net.memory)) :
    net.Acts l p none (net.remember f) where
  layout := rfl
  deeds := write.deeds
  rings := by simp [remember]
  others _ _ := rfl
  seat e' he := .inl ⟨e', he, rfl, rfl, rfl⟩

/-- A delivery given up is marked consumed in the slot of its sender, if that has one. -/
theorem acts_clearGivenUp (net : Network) (valid : l.Valid) (seat : e.Seated l p)
    (o : Option Delivery) : net.Acts l p none (net.clearGivenUp e o) := by
  cases o with
  | none => exact .refl l p net
  | some d =>
    simp only [clearGivenUp, clearSender, Endpoint.slotOf?, seat.layout]
    rcases found : l.slot? d.sender.toUInt64 with _ | slot
    · exact .refl l p net
    · obtain rfl := Layout.slot?_eq_some valid found
      exact acts_remember (.clear (Layout.hasSlot_of_slot? found) d.len)

/-- In a well-formed network everybody has a seat. -/
theorem WellFormed.seated {stray : Prop} (wf : WellFormed l stray net) : net.Seated l where
  layout := wf.layout
  valid := wf.valid
  seats p e he :=
    have fits := wf.fits p e he
    ⟨fits.peer, fits.layout, fits.owner⟩

/-! ### Sending -/

/-- What comes of it when the endpoint of `p` sends: as long as nothing is sent the memory stays,
    and a message is sent only while the slot is idle. -/
structure Submits (l : Layout) (p : PeerId) (net : Network) (sent : Option Sent) (after : Network) :
    Prop extends net.Acts l p sent after where
  unsent : sent = none → after.memory = net.memory
  idle : sent ≠ none → ((l.slotAt p).busy net.memory).IsIdle

/-- To do nothing is to submit nothing. -/
theorem Submits.refl (l : Layout) (p : PeerId) (net : Network) : net.Submits l p none net where
  toActs := .refl l p net
  unsent _ := rfl
  idle h := absurd rfl h

/-- An attempt that sends nothing may come first. -/
theorem Submits.andThen (first : net.Submits l p none mid) (later : mid.Submits l p sent after) :
    net.Submits l p sent after where
  toActs := first.toActs.andThen later.toActs
  unsent h := (later.unsent h).trans (first.unsent rfl)
  idle h := first.unsent rfl ▸ later.idle h

/-- A change to a counter may come last. -/
theorem Submits.count (submits : net.Submits l p sent after) (f : Metrics → Metrics) :
    net.Submits l p sent (after.update p (.count f)) where
  layout := submits.layout
  deeds := submits.deeds
  rings := submits.rings
  others q other := (endpoint?_update_of_ne (Ne.symm other)).trans (submits.others q other)
  seat e' he := by
    rw [endpoint?_update_self, Option.map_eq_some_iff] at he
    obtain ⟨e, he, rfl⟩ := he
    rcases submits.seat e he with old | ⟨seat, enough⟩
    · exact .inl old
    · exact .inr ⟨⟨seat.peer, seat.layout, seat.owner⟩, enough⟩
  unsent := submits.unsent
  idle := submits.idle

/-- A send submits its message iff it succeeds. -/
theorem submits_send (net : Network) (seat : e.Seated l p) (busyPeers : List PeerId)
    (mode : WaitMode) (dest : Destination) (message : List UInt8) :
    net.Submits l p
      (Sent.ofResult? ⟨p, dest, message⟩ (net.send .queue busyPeers e mode dest message).1)
      (net.send .queue busyPeers e mode dest message).2 := by
  have own := seat.slot_eq
  obtain rfl := seat.peer
  unfold Network.send
  rcases admitted : e.admit dest message with fault | target
  · exact .refl l _ net
  · obtain ⟨resolved, nonempty, short⟩ := admit_eq_ok seat.layout admitted
    -- a slot that stays busy is counted as a timeout, and left as it is
    by_cases wedged : net.Wedged busyPeers e mode
    · simp only [wedged, if_true]
      exact (Submits.refl l _ net).count _
    · have idle : ((l.slotAt e.peer).busy net.memory).IsIdle := by
        rw [← own]
        exact Decidable.not_not.mp (not_or.mp wedged).2
      have posted : Memory.Deeds l e.peer net.memory (some ⟨e.peer, dest, message⟩)
          (net.stage e target message).memory := by
        rw [stage, own]
        exact .posted seat.owner .refl rfl resolved nonempty short idle
      simp only [wedged, if_false, Bell.queue]
      have sent : net.Submits l e.peer (some ⟨e.peer, dest, message⟩)
          ((net.stage e target message).enqueue (.new e.peer target.toUInt16)) :=
        { layout := rfl
          deeds := posted
          rings := by simp [enqueue, stage, remember]
          others := fun _ _ => rfl
          seat := fun e' he => .inl ⟨e', he, rfl, rfl, rfl⟩
          unsent := by simp
          idle := fun _ => idle }
      exact sent.count _

/-- An answer is a send to the peer that it answers. -/
theorem submits_reply (net : Network) (seat : e.Seated l p) (busyPeers : List PeerId)
    (sender : PeerId) (answer : List UInt8) :
    net.Submits l p
      (Sent.ofResult? ⟨p, .peer sender, answer⟩ (net.reply .queue busyPeers e sender answer).1)
      (net.reply .queue busyPeers e sender answer).2 := by
  have submits := net.submits_send seat busyPeers .spin (.peer sender) answer
  unfold Network.reply
  rcases outcome : net.send .queue busyPeers e .spin (.peer sender) answer with ⟨fault | len, after⟩
  · rw [outcome] at submits
    rw [seat.peer]
    exact submits.count _
  · rwa [outcome] at submits

/-- A patient sender sends once, however often it tries. -/
theorem submits_sendPatiently (seat : e.Seated l p) (dest : Destination) (body : List UInt8)
    (attempts : Nat) (net : Network) :
    net.Submits l p
      (Sent.ofResult? ⟨p, dest, body⟩ (net.sendPatiently .queue e dest body attempts).1)
      (net.sendPatiently .queue e dest body attempts).2 := by
  -- Induction on the attempts: one that failed has sent nothing, so that the next one may.
  induction attempts generalizing net with
  | zero => exact .refl l p net
  | succ attempts ih =>
    have submits := net.submits_send seat [] .sleep dest body
    unfold Network.sendPatiently
    rcases outcome : net.send .queue [] e .sleep dest body with ⟨result, after⟩
    rw [outcome] at submits
    split
    next peer deadline again same =>
      obtain ⟨rfl, rfl⟩ := Prod.mk.inj same
      exact submits.andThen (ih after)
    next => exact submits

/-- Asking for a dump submits the request iff it succeeds. -/
theorem submits_requestDump (net : Network) (seat : e.Seated l p) :
    net.Submits l p
      (Sent.ofResult? ⟨p, .coordinator l, Link.switchDump⟩ (net.requestDump .queue e).1)
      (net.requestDump .queue e).2 := by
  rw [Network.requestDump, seat.layout]
  exact net.submits_send seat [] .sleep _ _

/-- The result of a send is the length of its message. -/
theorem length_of_send {busyPeers : List PeerId} {mode : WaitMode} {dest : Destination}
    {message : List UInt8} {len : Nat}
    (ok : (net.send .queue busyPeers e mode dest message).1 = .ok len) : len = message.length := by
  unfold Network.send at ok
  split at ok
  · cases ok
  · split at ok
    · cases ok
    · exact (Except.ok.inj ok).symm

/-- A patient send that succeeds reports the length of its body. -/
theorem length_of_sendPatiently {dest : Destination} {body : List UInt8} {attempts len : Nat}
    (ok : (net.sendPatiently .queue e dest body attempts).1 = .ok len) : len = body.length := by
  induction attempts generalizing net with
  | zero => cases ok
  | succ attempts ih =>
    unfold Network.sendPatiently at ok
    split at ok
    · exact ih ok
    · exact length_of_send ok

/-- A write sends the payload of its request to the destination that the request names. -/
theorem submits_write (net : Network) (seat : e.Seated l p) (request : List UInt8) :
    net.Submits l p
      (match Request.parse l request with
        | .ok (dest, body) => Sent.ofResult? ⟨p, dest, body⟩ (net.write .queue e request).1
        | .error _ => none)
      (net.write .queue e request).2 := by
  unfold Network.write
  simp only [seat.layout]
  split_ifs with long
  · split <;> exact .refl l p net
  · rcases parsed : Request.parse l request with fault | ⟨dest, body⟩
    · exact .refl l p net
    · have submits := submits_sendPatiently seat dest body writeAttempts net
      simp only
      rcases outcome : net.sendPatiently .queue e dest body writeAttempts with
        ⟨fault | len, after⟩
      · rwa [outcome] at submits
      · rw [outcome] at submits
        -- a send that succeeds sends all of the body, so that no write is partial
        have full : len = body.length := length_of_sendPatiently (congrArg Prod.fst outcome)
        simp only [full, ne_eq, not_true_eq_false, if_false]
        exact submits

/-! ### Receiving -/

/-- Installing a delivery is an act that sends nothing. -/
theorem acts_install (net : Network) (valid : l.Valid) (seat : e.Seated l p) (sender : PeerId)
    (len : UInt64) : net.Acts l p none (net.install e sender len) := by
  obtain rfl := seat.peer
  unfold Network.install
  rcases e.inbox.install sender len with ⟨inbox, displaced⟩
  -- the inbox changes and a delivery is counted; what is displaced is given up after that
  have installed : net.Acts l e.peer none (net.update e.peer fun e =>
      { e with inbox := inbox, metrics.delivered := e.metrics.delivered + 1 }) :=
    acts_update net l (fun _ => ⟨rfl, rfl⟩) fun _ => rfl
  cases displaced with
  | none => exact installed
  | some previous =>
    have counted := installed.andThen (acts_count _ l e.peer fun c =>
      { c with incomingStomps := c.incomingStomps + 1 })
    simp only
    split
    · exact counted
    · exact counted.andThen (acts_clearGivenUp _ valid seat (some previous))

/-- An inbox changes, and a delivery is given up. -/
theorem acts_giveUp (net : Network) (valid : l.Valid) (seat : e.Seated l p) (i : Inbox)
    (o : Option Delivery) :
    net.Acts l p none ((net.update e.peer fun e => { e with inbox := i }).clearGivenUp e o) := by
  obtain rfl := seat.peer
  have changed : net.Acts l e.peer none (net.update e.peer fun e => { e with inbox := i }) :=
    acts_update net l (fun _ => ⟨rfl, rfl⟩) fun _ => rfl
  exact changed.andThen (acts_clearGivenUp _ valid seat o)

/-- A wait is an act that sends nothing. -/
theorem acts_await (net : Network) (valid : l.Valid) (seat : e.Seated l p) (patience : Patience) :
    net.Acts l p none (net.await e patience).2 := by
  unfold Network.await
  rcases e.inbox.pending with _ | d
  · exact .refl l p net
  · simp only
    split <;> exact net.acts_giveUp valid seat _ _

/-- A release is an act that sends nothing. -/
theorem acts_release (net : Network) (valid : l.Valid) (seat : e.Seated l p) :
    net.Acts l p none (net.release e).2 :=
  net.acts_giveUp valid seat _ _

/-- An operation of an endpoint leaves it at its peer. -/
theorem Acts.seated (acts : net.Acts l p sent after)
    (seats : ∀ e, net.endpoint? p = some e → e.Seated l p) :
    ∀ e, after.endpoint? p = some e → e.Seated l p := by
  intro e' he'
  rcases acts.seat e' he' with ⟨e, he, peer, layout, -⟩ | ⟨seat, -⟩
  · have seat := seats e he
    exact ⟨peer.trans seat.peer, layout.trans seat.layout, seat.owner⟩
  · exact seat

/-- An operation of an endpoint leaves every endpoint at its peer. -/
theorem Seated.acts (seated : net.Seated l) (acts : net.Acts l p sent after) : after.Seated l where
  layout := acts.layout.trans seated.layout
  valid := seated.valid
  seats q e he := by
    by_cases same : q = p
    · subst same
      exact acts.seated (seated.seats q) e he
    · rw [acts.others q same] at he
      exact seated.seats q e he

/-- Every endpoint has as many vectors as there may be origins. -/
def Equipped (l : Layout) (net : Network) : Prop :=
  ∀ q e, net.endpoint? q = some e → l.nEvents.toNat ≤ e.vectors.size

/-- Who acts takes nobody else's slot away, so that all endpoints stay equipped. -/
theorem Equipped.acts (equipped : net.Equipped l) (acts : net.Acts l p sent after) :
    after.Equipped l := by
  intro q e he
  by_cases own : q = p
  · subst own
    rcases acts.seat e he with ⟨e', he', -, -, same⟩ | ⟨-, enough⟩
    · rw [same]
      exact equipped q e' he'
    · exact enough
  · rw [acts.others q own] at he
    exact equipped q e he

/-- A framed read is an act that sends nothing. -/
theorem acts_read (valid : l.Valid) (seats : ∀ e, net.endpoint? p = some e → e.Seated l p)
    (he : net.endpoint? p = some e) (buffer : List UInt8) :
    net.Acts l p none (net.read e buffer).2.2 := by
  have taken := net.acts_await valid (seats e he) .none
  rcases net.network_read e buffer with same | ⟨e', he', same⟩
  · rw [same]
    exact taken
  · rw [(seats e he).peer] at he'
    rw [same]
    exact taken.andThen (acts_release _ valid (taken.seated seats e' he'))

/-! ### Interrupts -/

/-- What comes of an interrupt at the endpoint of `p`: it sends nothing, or it marks a link request
    consumed and then tries to send the answer. -/
inductive Responds (l : Layout) (p : PeerId) (net : Network) : Option Sent → Network → Prop
  | silent {after : Network} (acts : net.Acts l p none after) : Responds l p net none after
  | answered {a : PeerId} {id id' : Link.Identity} {answer : List UInt8}
      {result : Except MessageError Nat} {mid after : Network} (owner : l.HasSlot a.toUInt64)
      (busy : ((l.slotAt a).staged net.memory).len ≠ 0)
      (responds : Link.respond id ((l.slotAt a).staged net.memory).message = some (id', answer))
      (clears : net.Acts l p none mid) (idle : ((l.slotAt a).staged mid.memory).len = 0)
      (kept : p ≠ a → (l.slotAt p).staged mid.memory = (l.slotAt p).staged net.memory)
      (replies : mid.Submits l p (Sent.ofResult? ⟨p, .peer a, answer⟩ result) after) :
      Responds l p net (Sent.ofResult? ⟨p, .peer a, answer⟩ result) after

/-- A response is an act. -/
theorem Responds.acts (responds : net.Responds l p sent after) : net.Acts l p sent after := by
  cases responds with
  | silent acts => exact acts
  | answered _ _ _ clears _ _ replies => exact clears.andThen replies.toActs

end Network

/-- The answer that an endpoint has sent. -/
def Receipt.sent? (p : PeerId) : Receipt → Option Sent
  | .answered a answer result => Sent.ofResult? ⟨p, .peer a, answer⟩ result
  | _ => none

/-- What handling an interrupt has sent. -/
def Handling.sent? (p : PeerId) : Handling → Option Sent
  | .foreign => none
  | .handled receipt => receipt.sent? p

/-- What a ring has made its destination send. -/
def RingResult.sent? (p : PeerId) : RingResult → Option Sent
  | .reached handling => handling.sent? p
  | _ => none

namespace Layout

variable {l : Layout}

/-- Stamps leave what is staged alone, in every slot. -/
theorem staged_stamp (valid : l.Valid) (q r : PeerId) (cid sid : UInt64) (m : Memory) :
    (l.slotAt q).staged ((l.slotAt r).stamp cid sid m) = (l.slotAt q).staged m := by
  by_cases same : r = q
  · subst same
    exact Slot.staged_stamp _ m cid sid
  · have := (l.slotAt r).header_le_limit
    exact Slot.staged_of_apart ((l.slotAt r).sameOutside_stamp m cid sid) (by omega) (by omega)
      (slotAt_apart valid same)

/-- Giving up a length in one slot does not concern what is staged in another. -/
theorem staged_clear_of_ne (valid : l.Valid) {q r : PeerId} (other : q ≠ r) (seen : UInt64)
    (m : Memory) : (l.slotAt q).staged ((l.slotAt r).clear seen m) = (l.slotAt q).staged m := by
  have := (l.slotAt r).header_le_limit
  exact Slot.staged_of_apart ((l.slotAt r).sameOutside_clear m seen) (by omega) (by omega)
    (slotAt_apart valid (Ne.symm other))

end Layout

namespace Network

variable {net after : Network} {l : Layout} {p : PeerId} {e : Endpoint} {w : DoorbellWord}

/-- A dispatch responds with the answer that it sends, if any. -/
theorem responds_dispatch (net : Network) (valid : l.Valid) (seat : e.Seated l p)
    (busyPeers : List PeerId) {a : PeerId} (owner : l.HasSlot a.toUInt64) :
    net.Responds l p ((net.dispatch .queue busyPeers e a (l.slotAt a)).1.sent? p)
      (net.dispatch .queue busyPeers e a (l.slotAt a)).2 := by
  obtain rfl := seat.peer
  have stamps : net.Acts l e.peer none (net.stampSender (l.slotAt a) a) :=
    acts_remember (.stamp owner)
  by_cases idle : ((l.slotAt a).staged net.memory).len = 0
  · rw [dispatch_of_idle _ _ idle]
    exact .silent (stamps.andThen (acts_count _ l _ _))
  · rcases response : Link.respond e.identity ((l.slotAt a).staged net.memory).message with
      _ | ⟨identity, answer⟩
    · rw [dispatch_of_plain _ _ idle (Link.respond_eq_none_iff.mp response)]
      exact .silent (stamps.andThen (acts_install _ valid seat a _))
    · rw [dispatch_of_request _ _ idle response]
      have clears : (net.stampSender (l.slotAt a) a).Acts l e.peer none
          ((net.stampSender (l.slotAt a) a).acknowledge e (l.slotAt a) identity) :=
        (acts_remember (.clear owner _)).andThen
          (acts_update _ l (fun _ => ⟨rfl, rfl⟩) fun _ => rfl)
      refine .answered owner idle response (stamps.andThen clears) ?_ (fun other => ?_)
        (submits_reply _ seat busyPeers a answer)
      · -- the slot of the request is idle before the answer, and others are as they were
        rw [acknowledge, memory_update, memory_remember, Slot.staged_clear]
        exact Staged.len_clear_self
      · rw [acknowledge, memory_update, memory_remember, Layout.staged_clear_of_ne valid other]
        exact Layout.staged_stamp valid e.peer a (firstCid a) subnetWord net.memory

/-- An interrupt is counted as dropped, or it is the dispatch of a sender that has a slot. -/
theorem interrupt_dispatches_or (net : Network) (valid : l.Valid) (seat : e.Seated l p)
    (ring : Bell) (busyPeers : List PeerId) (vector : UInt32) :
    ((net.interrupt ring busyPeers e vector).2 = net.update p (.count fun c =>
        { c with droppedInterrupts := c.droppedInterrupts + 1 }) ∧
      ((net.interrupt ring busyPeers e vector).1 = .foreign ∨
        (net.interrupt ring busyPeers e vector).1 = .handled .slotless)) ∨
    ∃ a, l.HasSlot a.toUInt64 ∧
      (net.interrupt ring busyPeers e vector).1 =
        .handled (net.dispatch ring busyPeers e a (l.slotAt a)).1 ∧
      (net.interrupt ring busyPeers e vector).2 =
        (net.dispatch ring busyPeers e a (l.slotAt a)).2 := by
  obtain rfl := seat.peer
  rcases known : e.vectors.peerFor vector with _ | a
  · simp [Network.interrupt, known]
  · rcases found : l.slot? a.toUInt64 with _ | slot
    · simp [Network.interrupt, known, Endpoint.slotOf?, seat.layout, found]
    · obtain rfl := Layout.slot?_eq_some valid found
      refine .inr ⟨a, Layout.hasSlot_of_slot? found, ?_, ?_⟩ <;>
        simp only [Network.interrupt, known, Endpoint.slotOf?, seat.layout, found]

/-- A ring reaches nobody, or it is an interrupt at its destination. -/
theorem raise_interrupts_or (net : Network) (ring : Bell) (busyPeers : List PeerId)
    (w : DoorbellWord) :
    ((net.raise ring busyPeers w).2 = net ∧
      ((net.raise ring busyPeers w).1 = .unattached ∨
        (net.raise ring busyPeers w).1 = .noVector)) ∨
    ∃ e vector, net.endpoint? w.dest = some e ∧
      (net.raise ring busyPeers w).1 = .reached (net.interrupt ring busyPeers e vector).1 ∧
      (net.raise ring busyPeers w).2 = (net.interrupt ring busyPeers e vector).2 := by
  rcases he : net.endpoint? w.dest with _ | e
  · simp [Network.raise, he]
  · by_cases listening : e.listening
    · rcases known : e.vectors.vectorFor w.origin with _ | vector
      · simp [Network.raise, he, listening, known]
      · exact .inr ⟨e, vector, rfl, by simp only [Network.raise, he, listening, known, if_true],
          by simp only [Network.raise, he, listening, known, if_true]⟩
    · simp [Network.raise, he, listening]

/-- An interrupt makes the endpoint respond, or does nothing. -/
theorem responds_interrupt (net : Network) (valid : l.Valid) (seat : e.Seated l p)
    (busyPeers : List PeerId) (vector : UInt32) :
    net.Responds l p ((net.interrupt .queue busyPeers e vector).1.sent? p)
      (net.interrupt .queue busyPeers e vector).2 := by
  have drops := acts_count net l p fun c => { c with droppedInterrupts := c.droppedInterrupts + 1 }
  rcases net.interrupt_dispatches_or valid seat .queue busyPeers vector with
    ⟨dropped, foreign | slotless⟩ | ⟨a, owner, handling, dispatched⟩
  · rw [dropped, foreign]
    exact .silent drops
  · rw [dropped, slotless]
    exact .silent drops
  · rw [handling, dispatched, Handling.sent?]
    exact net.responds_dispatch valid seat busyPeers owner

/-- A ring makes its destination respond, if there is one. -/
theorem responds_raise (net : Network) (valid : l.Valid) (busyPeers : List PeerId)
    (seats : ∀ e, net.endpoint? w.dest = some e → e.Seated l w.dest) :
    net.Responds l w.dest ((net.raise .queue busyPeers w).1.sent? w.dest)
      (net.raise .queue busyPeers w).2 := by
  have nothing := Acts.refl l w.dest net
  rcases net.raise_interrupts_or .queue busyPeers w with
    ⟨lost, unattached | noVector⟩ | ⟨e, vector, he, result, reached⟩
  · rw [lost, unattached]
    exact .silent nothing
  · rw [lost, noVector]
    exact .silent nothing
  · rw [result, reached, RingResult.sent?]
    exact net.responds_interrupt valid (seats e he) busyPeers vector

/-- The network without the ring at a place. -/
def dequeue (net : Network) (place : Nat) : Network :=
  { net with rings := net.rings.eraseIdx place }

/-- One ring fewer is under way once one is taken off the queue. -/
theorem length_dequeue {place : Nat} (found : net.rings[place]? = some w) :
    (net.dequeue place).rings.length + 1 = net.rings.length := by
  obtain ⟨bound, -⟩ := List.getElem?_eq_some_iff.mp found
  rw [dequeue, List.length_eraseIdx_of_lt bound]
  omega

/-- A ring that is delivered leaves the queue first. -/
theorem deliver?_of_ring {place : Nat} (found : net.rings[place]? = some w) :
    net.deliver? place = some (w, ((net.dequeue place).raise .queue [] w).1,
      ((net.dequeue place).raise .queue [] w).2) := by
  simp only [deliver?, found, dequeue]

/-! ### Coming and going -/

/-- Who attaches acts, and sends nothing. -/
theorem acts_attach {vectors : VectorTable} {config : EndpointConfig} {host : HostAnswer}
    (valid : l.Valid) (h : net.attach l p vectors config host = .ok after) :
    net.Acts l p none after := by
  obtain ⟨slot, found, enough, rfl⟩ := attach_eq_ok h
  obtain rfl := Layout.slot?_eq_some valid found
  have owner := Layout.hasSlot_of_slot? found
  exact
    { layout := rfl
      deeds := (Memory.Write.occupy owner (config.label host p) config.className).deeds
      rings := by simp [remember]
      others := fun q other => by
        simp [endpoint?, Std.ExtTreeMap.getElem?_insert, Ne.symm other]
      seat := fun e' he => by
        simp only [endpoint?, Std.ExtTreeMap.getElem?_insert_self, Option.some.injEq] at he
        subst he
        exact .inr ⟨⟨rfl, rfl, owner⟩, enough⟩ }

/-- Who detaches acts, and sends nothing. -/
theorem acts_detach (net : Network) (l : Layout) (p : PeerId) :
    net.Acts l p none (net.detach p).2 := by
  unfold Network.detach
  split
  · exact acts_update net l (fun _ => ⟨rfl, rfl⟩) fun _ => rfl
  · exact .refl l p net

/-- Who is forgotten acts, and sends nothing. -/
theorem acts_forget (net : Network) (l : Layout) (p : PeerId) :
    net.Acts l p none (net.forget p).2 where
  layout := rfl
  deeds := .refl l p _
  rings := by simp [Network.forget]
  others q other := by
    simp [Network.forget, endpoint?, Std.ExtTreeMap.getElem?_erase, Ne.symm other]
  seat e' he := by simp [Network.forget, endpoint?] at he

/-- Naming an endpoint is an act that sends nothing. -/
theorem acts_setClass (net : Network) (seat : e.Seated l p) (name : String) :
    net.Acts l p none (net.setClass e name) := by
  have own := seat.slot_eq
  obtain rfl := seat.peer
  have named : net.Acts l e.peer none
      (net.update e.peer fun e => { e with identity.className := name }) :=
    acts_update net l (fun _ => ⟨rfl, rfl⟩) fun _ => rfl
  unfold Network.setClass
  rw [own]
  exact named.andThen (acts_remember (.rename seat.owner name))

end Network

end SharedMailbox
