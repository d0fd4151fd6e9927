import SharedMailbox.Proofs.Nesting

namespace SharedMailbox

/-!
# A send is all or nothing

Whatever stands in the region, in the inboxes and among the rings: a message that may be sent is
staged byte by byte where it belongs and announced by one ring, and one that may not leaves
everything as it was, but for the count of the sends that gave up on a busy slot.

* `Slot.Posted`: what a slot holds after a send, and which bytes may have changed.
* `Network.Sendable`: what a message must be to be sent; `Network.Refuses`: why it is refused, the
  first reason counting.
* `Network.send_of_sendable`, `Network.send_of_refuses`: the two outcomes;
  `Network.sendable_or_refuses`: there is no third.
* `Network.send?`: a send that checks the assertion of staging; `Network.send?_eq`: it never fails.
* `Network.sendsWhole`: all of it.
-/

/-! ### A slot with a message -/

namespace Slot

/-- Stage a message under the assertion that it leaves room for its NUL, `none` if that fails. -/
def stage? (s : Slot) (message : List UInt8) (m : Memory) : Option Memory :=
  if message.length < s.capacity then some (s.stage message m) else none

/-- The second memory differs from the first by a message for a peer in the slot: the payload area
    starts with the message and one NUL and goes on as before, and the length and the destination
    are announced. -/
structure Posted (s : Slot) (q : PeerId) (message : List UInt8) (m n : Memory) : Prop where
  payload : n.bytes (s.base + 128) s.capacity =
    message ++ 0 :: (m.bytes (s.base + 128) s.capacity).drop (message.length + 1)
  lastResponder : s.lastResponder n = q.toUInt64
  busy : (s.busy n).len.toNat = message.length
  /-- Only the length, the destination, the message and its NUL are written. -/
  rest : ∀ c, n.byte c ≠ m.byte c → (s.base + 64 ≤ c ∧ c < s.base + 72) ∨
    (s.base + 80 ≤ c ∧ c < s.base + 88) ∨
    (s.base + 128 ≤ c ∧ c ≤ s.base + 128 + message.length)

/-- Posting a message that fits has this effect on the slot. -/
theorem posted_post (s : Slot) (m : Memory) (q : PeerId) {message : List UInt8}
    (fits : message.length < s.capacity) (word : message.length < UInt64.size) :
    s.Posted q message m (s.post q.toUInt64 message m) := by
  have staged := s.staged_post m q.toUInt64 fits
  have len : (s.busy (s.post q.toUInt64 message m)).len.toNat = message.length := by
    rw [← len_staged, staged, Staged.toNat_len_put word]
  simp only [Slot.staged, Staged.put, Staged.mk.injEq] at staged
  refine ⟨staged.2.2, staged.2.1, len, fun c changed => ?_⟩
  -- the message with its NUL, the destination, the length: a byte outside all three stays
  have body := Memory.sameOutside_store m (s.base + 128) (message ++ [0])
  have addressed := Memory.sameOutside_storeWord (s.stage message m) (s.base + 80) q.toUInt64
  have published := Memory.sameOutside_storeWord
    (s.setLastResponder q.toUInt64 (s.stage message m)) (s.base + 64) (UInt64.ofNat message.length)
  rw [List.length_append, List.length_singleton] at body
  by_contra outside
  refine changed ((published c (by omega)).trans ?_)
  exact (addressed c (by omega)).trans (body c (by omega))

end Slot

/-- An endpoint counts sends that gave up on its busy slot. -/
def Endpoint.countBusy (times : Nat) : Endpoint → Endpoint :=
  .count fun c => { c with outgoingBusy := c.outgoingBusy + UInt64.ofNat times }

/-- To count no send is to count nothing. -/
theorem Endpoint.countBusy_zero (e : Endpoint) : e.countBusy 0 = e := by
  simp [countBusy, count]

/-- Sends that gave up may be counted one after the other or all at once. -/
theorem Endpoint.countBusy_countBusy (e : Endpoint) (k n : Nat) :
    (e.countBusy k).countBusy n = e.countBusy (k + n) := by
  simp only [countBusy, count, UInt64.ofNat_add, UInt64.add_assoc]

namespace Network

/-! ### What may be sent -/

/-- The endpoint of `p` may send a message to `q`, where `busyPeers` are in the middle of a send:
    the destination reaches `q`, there is a message, it leaves room for its NUL, and the slot of the
    sender is idle. A spinning sender must not be in the middle of a send itself. -/
structure Sendable (net : Network) (l : Layout) (p : PeerId) (busyPeers : List PeerId)
    (mode : WaitMode) (dest : Destination) (message : List UInt8) (q : PeerId) : Prop where
  reaches : dest.Reaches l q
  some : message ≠ []
  short : message.length < l.maxPayload
  idle : ((l.slotAt p).busy net.memory).IsIdle
  free : mode = .spin → p ∉ busyPeers

/-- Why the endpoint of `p`, which waits this long, may not send a message. The checks come in this
    order, and each reason says that the earlier checks pass. -/
inductive Refuses (net : Network) (l : Layout) (p : PeerId) (wait : Duration)
    (busyPeers : List PeerId) (mode : WaitMode) (dest : Destination) (message : List UInt8) :
    MessageError → Prop
  | address {fault : MessageError} (strays : dest.Strays l fault) :
      Refuses net l p wait busyPeers mode dest message fault
  | empty {q : PeerId} (reaches : dest.Reaches l q) (none : message = []) :
      Refuses net l p wait busyPeers mode dest message .emptyPayload
  | long {q : PeerId} (reaches : dest.Reaches l q) (some : message ≠ [])
      (long : l.maxPayload ≤ message.length) : Refuses net l p wait busyPeers mode dest message
        (.oversizedPayload message.length (l.maxPayload - 1))
  | busy {q : PeerId} (reaches : dest.Reaches l q) (some : message ≠ [])
      (short : message.length < l.maxPayload)
      (wedged : ¬ ((l.slotAt p).busy net.memory).IsIdle ∨ (mode = .spin ∧ p ∈ busyPeers)) :
      Refuses net l p wait busyPeers mode dest message
        (.slotBusyTimeout ((l.slotAt p).lastResponder net.memory) wait)

/-- What a refused send of a peer leaves: it is counted if it gave up on the busy slot, and nothing
    else shows. -/
def noteRefused (p : PeerId) (net : Network) : MessageError → Network
  | .slotBusyTimeout .. => net.update p (.countBusy 1)
  | _ => net

variable {net : Network} {l : Layout} {p : PeerId} {e : Endpoint} {ring : Bell}
  {busyPeers : List PeerId} {mode : WaitMode} {dest : Destination} {message : List UInt8}

/-- A message can be sent, or there is a reason against it. -/
theorem sendable_or_refuses (valid : l.Valid) (net : Network) (p : PeerId) (wait : Duration)
    (busyPeers : List PeerId) (mode : WaitMode) (dest : Destination) (message : List UInt8) :
    (∃ q, net.Sendable l p busyPeers mode dest message q) ∨
      ∃ fault, net.Refuses l p wait busyPeers mode dest message fault := by
  rcases resolved : dest.resolve l with fault | target
  · exact .inr ⟨fault, .address ((Destination.resolve_eq_error_iff valid).mp resolved)⟩
  obtain ⟨q, reaches, rfl⟩ := (Destination.resolve_eq_ok_iff valid).mp resolved
  by_cases some : message = []
  · exact .inr ⟨_, .empty reaches some⟩
  by_cases short : message.length < l.maxPayload
  · by_cases wedged : ¬ ((l.slotAt p).busy net.memory).IsIdle ∨ (mode = .spin ∧ p ∈ busyPeers)
    · exact .inr ⟨_, .busy reaches some short wedged⟩
    · rw [not_or, Decidable.not_not, not_and] at wedged
      exact .inl ⟨q, reaches, some, short, wedged.1, wedged.2⟩
  · exact .inr ⟨_, .long reaches some (Nat.le_of_not_lt short)⟩

/-! ### The two outcomes -/

/-- A message that reaches somebody, has a byte and leaves room for its NUL is admitted. -/
theorem admit_of_reaches (valid : l.Valid) (layout : e.layout = l) {q : PeerId}
    (reaches : dest.Reaches l q) (some : message ≠ []) (short : message.length < l.maxPayload) :
    e.admit dest message = .ok q.toUInt64 := by
  have resolved := (Destination.resolve_eq_ok_iff valid).mpr ⟨q, reaches, rfl⟩
  simp only [layout, Endpoint.admit, resolved, some, if_false, Nat.not_le_of_lt short]

/-- A sender is stuck while its slot is busy, or while it spins in the middle of another send. -/
theorem wedged_of_seated (seat : e.Seated l p) : net.Wedged busyPeers e mode ↔
    ¬ ((l.slotAt p).busy net.memory).IsIdle ∨ (mode = .spin ∧ p ∈ busyPeers) := by
  rw [Wedged, seat.slot_eq, seat.peer, or_comm]

/-- A message that may be sent is staged, announced by one ring, and counted. -/
theorem send_of_sendable (valid : l.Valid) (seat : e.Seated l p) (ring : Bell) {q : PeerId}
    (sendable : net.Sendable l p busyPeers mode dest message q) :
    net.send ring busyPeers e mode dest message = (.ok message.length,
      (ring (p :: busyPeers) (net.remember ((l.slotAt p).post q.toUInt64 message))
        (.new p q)).noteSent p message.length) := by
  have admitted := admit_of_reaches valid seat.layout sendable.reaches sendable.some sendable.short
  have unwedged : ¬ net.Wedged busyPeers e mode := by
    rw [wedged_of_seated seat, not_or, Decidable.not_not, not_and]
    exact ⟨sendable.idle, sendable.free⟩
  simp only [send, admitted, unwedged, if_false, stage, seat.slot_eq, seat.peer,
    UInt16.toUInt16_toUInt64]
  rfl

/-- A message that may not be sent is refused for this reason. -/
theorem send_of_refuses (valid : l.Valid) (seat : e.Seated l p) (ring : Bell)
    {fault : MessageError}
    (refuses : net.Refuses l p e.sendDeadline busyPeers mode dest message fault) :
    net.send ring busyPeers e mode dest message = (.error fault, net.noteRefused p fault) := by
  -- one reason after the other, in the order in which a send checks for them
  cases refuses with
  | address strays =>
    have resolved := (Destination.resolve_eq_error_iff valid).mpr strays
    have unreached : net.noteRefused p fault = net := by cases strays <;> rfl
    simp only [send, Endpoint.admit, seat.layout, resolved, unreached]
  | empty reaches none =>
    have resolved := (Destination.resolve_eq_ok_iff valid).mpr ⟨_, reaches, rfl⟩
    simp only [send, Endpoint.admit, seat.layout, resolved, none, if_true]
    rfl
  | long reaches some long =>
    have resolved := (Destination.resolve_eq_ok_iff valid).mpr ⟨_, reaches, rfl⟩
    simp only [send, Endpoint.admit, seat.layout, resolved, some, long, if_true, if_false]
    rfl
  | busy reaches some short wedged =>
    have admitted := admit_of_reaches valid seat.layout reaches some short
    simp only [send, admitted, (wedged_of_seated seat).mpr wedged, if_true, seat.slot_eq, seat.peer]
    rfl

/-- Whether a send succeeds tells whether the message may be sent. -/
theorem send_iff (valid : l.Valid) (seat : e.Seated l p) (ring : Bell) (busyPeers : List PeerId)
    (mode : WaitMode) (dest : Destination) (message : List UInt8) :
    (∀ len, (net.send ring busyPeers e mode dest message).1 = .ok len ↔
      (∃ q, net.Sendable l p busyPeers mode dest message q) ∧ len = message.length) ∧
    ∀ fault, (net.send ring busyPeers e mode dest message).1 = .error fault ↔
      net.Refuses l p e.sendDeadline busyPeers mode dest message fault :=
  outcome_iff_of_or (sendable_or_refuses valid net p e.sendDeadline busyPeers mode dest message)
    (fun ⟨_, sendable⟩ => congrArg Prod.fst (send_of_sendable valid seat ring sendable))
    (fun _ refuses => congrArg Prod.fst (send_of_refuses valid seat ring refuses))

/-- A send succeeds iff the message can be sent, whatever the doorbell does. -/
theorem send_eq_ok_iff (valid : l.Valid) (seat : e.Seated l p) (ring : Bell) :
    (∃ len after, net.send ring busyPeers e mode dest message = (.ok len, after)) ↔
      ∃ q, net.Sendable l p busyPeers mode dest message q := by
  constructor
  · rintro ⟨len, after, sent⟩
    exact (((send_iff valid seat ring busyPeers mode dest message).1 len).mp (by rw [sent])).1
  · exact fun ⟨q, sendable⟩ => ⟨_, _, send_of_sendable valid seat ring sendable⟩

/-- A send fails iff there is a reason, and for the first one. -/
theorem send_eq_error_iff (valid : l.Valid) (seat : e.Seated l p) (ring : Bell)
    {fault : MessageError} : (net.send ring busyPeers e mode dest message).1 = .error fault ↔
      net.Refuses l p e.sendDeadline busyPeers mode dest message fault :=
  (send_iff valid seat ring busyPeers mode dest message).2 fault

/-! ### The assertion of staging -/

/-- A send that stages under the assertion that the message leaves room for its NUL, `none` if that
    fails. -/
def send? (ring : Bell) (busyPeers : List PeerId) (net : Network) (e : Endpoint) (mode : WaitMode)
    (dest : Destination) (message : List UInt8) : Option (Except MessageError Nat × Network) :=
  match e.admit dest message with
  | .error fault => some (.error fault, net)
  | .ok target =>
    if net.Wedged busyPeers e mode then
      some (.error (.slotBusyTimeout (e.slot.lastResponder net.memory) e.sendDeadline),
        net.update e.peer (.countBusy 1))
    else
      match e.slot.stage? message net.memory with
      | none => none
      | some staged =>
        let announced : Network := { net with
          memory := e.slot.publish (UInt64.ofNat message.length)
            (e.slot.setLastResponder target staged) }
        some (.ok message.length,
          (ring (e.peer :: busyPeers) announced (.new e.peer target.toUInt16)).noteSent e.peer
            message.length)

/-- Staging never fails its assertion, whatever the endpoint: what is admitted fits. -/
theorem send?_eq (ring : Bell) (busyPeers : List PeerId) (net : Network) (e : Endpoint)
    (mode : WaitMode) (dest : Destination) (message : List UInt8) :
    net.send? ring busyPeers e mode dest message =
      some (net.send ring busyPeers e mode dest message) := by
  unfold send? send
  rcases admitted : e.admit dest message with fault | target
  · rfl
  · have room : message.length < e.slot.capacity := (admit_eq_ok rfl admitted).2.2
    simp only [Slot.stage?, room, if_true]
    split <;> rfl

/-! ### All or nothing -/

/-- The second network differs from the first by a message that the endpoint `e` of `p` has sent to
    `q`: it is in the slot of `p`, one ring is under way for it, and `e` has counted it. -/
structure Handed (l : Layout) (p : PeerId) (e : Endpoint) (q : PeerId) (message : List UInt8)
    (net after : Network) : Prop where
  posted : (l.slotAt p).Posted q message net.memory after.memory
  rings : after.rings = net.rings ++ [.new p q]
  own : after.endpoint? p = some (e.countSent message.length)
  others : ∀ r, r ≠ p → after.endpoint? r = net.endpoint? r
  region : after.layout = net.layout ∧ after.size = net.size ∧ after.backing = net.backing

/-- What a send of the endpoint `e` of `p` comes to. -/
structure SendsWhole (net : Network) (l : Layout) (p : PeerId) (e : Endpoint)
    (busyPeers : List PeerId) (mode : WaitMode) (dest : Destination) (message : List UInt8) :
    Prop where
  /-- It succeeds if and only if the message may be sent, -/
  succeeds : ∀ ring, (∃ len after, net.send ring busyPeers e mode dest message = (.ok len, after)) ↔
    ∃ q, net.Sendable l p busyPeers mode dest message q
  /-- and fails for the first reason that there is. -/
  fails : ∀ ring fault, (net.send ring busyPeers e mode dest message).1 = .error fault ↔
    net.Refuses l p e.sendDeadline busyPeers mode dest message fault
  /-- A message that is sent is in the slot and announced, -/
  sent : ∀ q, net.Sendable l p busyPeers mode dest message q →
    ∃ after, net.send .queue busyPeers e mode dest message = (.ok message.length, after) ∧
      Handed l p e q message net after
  /-- and the doorbell, whatever it does, is used once, with the message in the slot. -/
  rung : ∀ q, net.Sendable l p busyPeers mode dest message q →
    ∃ m, (l.slotAt p).Posted q message net.memory m ∧ ∀ ring,
      net.send ring busyPeers e mode dest message = (.ok message.length,
        (ring (p :: busyPeers) { net with memory := m } (.new p q)).noteSent p message.length)
  /-- A message that is refused leaves no trace, but that giving up on a busy slot is counted. -/
  refused : ∀ ring fault, (net.send ring busyPeers e mode dest message).1 = .error fault →
    (net.send ring busyPeers e mode dest message).2 = net.noteRefused p fault
  /-- Staging never fails its assertion. -/
  asserted : ∀ ring, net.send? ring busyPeers e mode dest message =
    some (net.send ring busyPeers e mode dest message)

/-- A message that can be sent is handed over. -/
theorem handed_of_sendable (he : net.endpoint? p = some e) {q : PeerId}
    (sendable : net.Sendable l p busyPeers mode dest message q) :
    Handed l p e q message net
      (((net.remember ((l.slotAt p).post q.toUInt64 message)).enqueue (.new p q)).noteSent p
        message.length) where
  posted := (l.slotAt p).posted_post net.memory q sendable.short
    (Nat.lt_trans sendable.short l.maxPayload_lt)
  rings := rfl
  own := by
    have there : ((net.remember ((l.slotAt p).post q.toUInt64 message)).enqueue
        (.new p q)).endpoint? p = some e := he
    rw [endpoint?_noteSent, there, Option.map_some, if_pos rfl]
  others r other := endpoint?_update_of_ne (Ne.symm other)
  region := ⟨rfl, rfl, rfl⟩

/-- **All or nothing.** For every state of an endpoint, destination, message and wait mode: a send
    succeeds exactly when the message may be sent, and then its slot holds the message, one ring is
    issued and the send is counted; else the first failing check is the error, and nothing changes
    but the count of the sends that gave up on a busy slot. -/
theorem sendsWhole (valid : l.Valid) (seat : e.Seated l p) (he : net.endpoint? p = some e)
    (busyPeers : List PeerId) (mode : WaitMode) (dest : Destination) (message : List UInt8) :
    net.SendsWhole l p e busyPeers mode dest message where
  succeeds ring := send_eq_ok_iff valid seat ring
  fails ring _ := send_eq_error_iff valid seat ring
  sent q sendable :=
    ⟨_, send_of_sendable valid seat .queue sendable, handed_of_sendable he sendable⟩
  rung q sendable :=
    ⟨_, (l.slotAt p).posted_post net.memory q sendable.short
      (Nat.lt_trans sendable.short l.maxPayload_lt),
      fun ring => send_of_sendable valid seat ring sendable⟩
  refused ring fault failed := by
    have refuses := (send_eq_error_iff valid seat ring).mp failed
    rw [send_of_refuses valid seat ring refuses]
  asserted ring := send?_eq ring busyPeers net e mode dest message

/-- Peers 1 and 2 have attached to a new mailbox. -/
def smallPair : Network := (ofMailbox smallMailbox).run .queue [join 1, join 2]

/-- Both endpoints sit at their peers. -/
theorem seated_smallPair : smallPair.Seated smallLayout := by
  have orderly : ∀ action ∈ [join 1, join 2], action.Orderly := by decide
  exact (path_of_once False create_small (fun action h => .inr (orderly action h))
    (by decide +kernel)).1.seated

/-- The first peer of the small pair has an endpoint in its seat. -/
theorem exists_smallPair : ∃ e, smallPair.endpoint? 1 = some e ∧ e.Seated smallLayout 1 := by
  obtain ⟨e, he⟩ := Option.isSome_iff_exists.mp
    (show (smallPair.endpoint? 1).isSome by decide +kernel)
  exact ⟨e, he, seated_smallPair.seats 1 e he⟩

/-- Peer 1 sends to peer 2 the longest message for which there is room. -/
theorem sendsWhole_small :
    let message := List.replicate 127 7
    ∃ e, smallPair.SendsWhole smallLayout 1 e [] .spin (.peer 2) message ∧
      smallPair.Sendable smallLayout 1 [] .spin (.peer 2) message 2 := by
  obtain ⟨e, he, seat⟩ := exists_smallPair
  exact ⟨e, sendsWhole seated_smallPair.valid seat he [] .spin (.peer 2) _,
    ⟨.peer 2, by decide⟩, by simp,
    by rw [List.length_replicate]; decide, by decide +kernel, by decide⟩

end Network

end SharedMailbox
