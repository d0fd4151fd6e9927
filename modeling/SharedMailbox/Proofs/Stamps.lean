import SharedMailbox.Proofs.Acting

namespace SharedMailbox

/-!
# Stamps

The reader of a message stamps the ids of its sender into the slot where it lies. The stamps stay
until the sender claims its slot again.

* `Layout.Stamped`: the slot of a peer bears the ids of the peer.
* `Memory.KeepsStamps`: what was stamped stays so; `Network.keepsStamps_send` and so on: it does
  whatever endpoints do but claim their slots.
* `Network.stamped_dispatch`: a dispatch stamps the slot of the sender.
* `Network.Dispatched`, `Network.Seated.dispatched_of_installed`: what is installed was left by a
  dispatch.
* `Network.WellFormed.stamped_of_story`: once a delivery was installed, the slot of its sender is
  stamped until the sender claims it again.
-/

/-- The slot of a peer bears the component id and the subnet id of the peer. -/
def Layout.Stamped (l : Layout) (q : PeerId) (m : Memory) : Prop :=
  (l.slotAt q).peerCid m = firstCid q ∧ (l.slotAt q).peerSid m = subnetWord

/-- Slots that are stamped in the first memory are so in the second. -/
def Memory.KeepsStamps (l : Layout) (m n : Memory) : Prop := ∀ q, l.Stamped q m → l.Stamped q n

/-! ### Writes -/

namespace Memory

variable {l : Layout} {m n k : Memory} {q : PeerId}

/-- To do nothing keeps all stamps. -/
theorem KeepsStamps.refl (l : Layout) (m : Memory) : KeepsStamps l m m := fun _ h => h

/-- One thing after another keeps all stamps if both do. -/
theorem KeepsStamps.trans (first : KeepsStamps l m n) (later : KeepsStamps l n k) :
    KeepsStamps l m k :=
  fun q h => later q (first q h)

/-- What other peers make of a slot keeps its stamps. -/
theorem stamped_of_spared (spared : (l.slotAt q).Spared q m n) (stamped : l.Stamped q m) :
    l.Stamped q n := by
  rcases spared.ids with ⟨cid, sid⟩ | stamps
  · exact ⟨cid.trans stamped.1, sid.trans stamped.2⟩
  · exact stamps

/-- Giving up a length keeps all stamps. -/
theorem keepsStamps_clear (valid : l.Valid) (r : PeerId) (seen : UInt64) (m : Memory) :
    KeepsStamps l m ((l.slotAt r).clear seen m) :=
  fun q => stamped_of_spared (Layout.spared_clear valid q r seen m)

/-- Stamping a slot again keeps all stamps. -/
theorem keepsStamps_stamp (valid : l.Valid) (r : PeerId) (m : Memory) :
    KeepsStamps l m ((l.slotAt r).stamp (firstCid r) subnetWord m) :=
  fun q => stamped_of_spared (Layout.spared_stamp valid q r m)

/-- A write into the slot of a peer that misses its stamps. -/
theorem keepsStamps_of_sameOutside (valid : l.Valid) (r : PeerId) {lo hi : Nat}
    (same : SameOutside lo hi m n) (within : (l.slotAt r).base ≤ lo ∧ hi ≤ (l.slotAt r).limit)
    (stamps : (l.slotAt r).peerCid n = (l.slotAt r).peerCid m ∧
      (l.slotAt r).peerSid n = (l.slotAt r).peerSid m) : KeepsStamps l m n := by
  intro q stamped
  by_cases own : q = r
  · subst own
    exact ⟨stamps.1.trans stamped.1, stamps.2.trans stamped.2⟩
  · have apart := Layout.slotAt_apart valid own
    exact stamped_of_spared (.of_sameOutside same (by omega)) stamped

/-- Writing a class keeps all stamps. -/
theorem keepsStamps_rename (valid : l.Valid) (r : PeerId) (name : String) (m : Memory) :
    KeepsStamps l m ((l.slotAt r).setClassName name m) := by
  have outside := (l.slotAt r).sameOutside_setClassName m name
  have := (l.slotAt r).header_le_limit
  exact keepsStamps_of_sameOutside valid r outside ⟨by omega, by omega⟩
    ⟨outside.word_eq (by omega), outside.word_eq (by omega)⟩

/-- Posting a message that fits keeps all stamps. -/
theorem keepsStamps_post (valid : l.Valid) (r : PeerId) (target : UInt64) {message : List UInt8}
    (short : message.length < l.maxPayload) (m : Memory) :
    KeepsStamps l m ((l.slotAt r).post target message m) := by
  -- the ids lie between the destination and the payload
  have staged := (l.slotAt r).sameOutside_stage m short
  have addressed := sameOutside_storeWord ((l.slotAt r).stage message m)
    ((l.slotAt r).base + 80) target
  have published := sameOutside_storeWord
    ((l.slotAt r).setLastResponder target ((l.slotAt r).stage message m))
    ((l.slotAt r).base + 64) (UInt64.ofNat message.length)
  have kept : ∀ a, a + 8 ≤ (l.slotAt r).base + 128 → (l.slotAt r).base + 88 ≤ a →
      ((l.slotAt r).post target message m).word a = m.word a := fun a below above =>
    (published.word_eq (by omega)).trans
      ((addressed.word_eq (by omega)).trans (staged.word_eq (by omega)))
  exact keepsStamps_of_sameOutside valid r ((l.slotAt r).sameOutside_post m target short)
    ⟨by omega, Nat.le_refl _⟩ ⟨kept _ (by omega) (by omega), kept _ (by omega) (by omega)⟩

/-- A slot is stamped with the ids of its owner. -/
theorem stamped_stamp (l : Layout) (q : PeerId) (m : Memory) :
    l.Stamped q ((l.slotAt q).stamp (firstCid q) subnetWord m) := by
  have last := sameOutside_storeWord ((l.slotAt q).setPeerSid subnetWord m)
    ((l.slotAt q).base + 96) (firstCid q)
  exact ⟨word_storeWord_self _ _ _, (last.word_eq (by omega)).trans (word_storeWord_self _ _ _)⟩

end Memory

/-! ### Where deliveries are installed -/

section Installed

variable {p q : PeerId} {d : Delivery}

/-- A send installs no delivery. -/
theorem Sent.not_installed_of_events (s : Sent) (result : Except MessageError Nat) :
    .installed p d ∉ s.events result := by
  cases result <;> simp [events]

namespace Inbox

variable (i : Inbox)

/-- A delivery that is taken in hand was installed before. -/
theorem not_installed_of_onTaking (q : PeerId) : .installed p d ∉ i.onTaking q := by
  simp [onTaking]

/-- A release installs no delivery. -/
theorem not_installed_of_onRelease (q : PeerId) : .installed p d ∉ i.onRelease q := by
  simp [onRelease]

/-- A framed read installs no delivery. -/
theorem not_installed_of_onReading (q : PeerId) (result : Except MessageError Nat) :
    .installed p d ∉ i.onReading q result := by
  intro told
  unfold onReading at told
  split at told
  · rcases List.mem_append.mp told with taken | released
    · exact i.not_installed_of_onTaking q taken
    · exact not_installed_of_onRelease _ q released
  · exact i.not_installed_of_onTaking q told

end Inbox

/-- An arrival is told of a message that was left for the consumer. -/
theorem exists_left_of_installed {i : Inbox} {handling : Handling}
    (told : .installed p d ∈ handling.events i q) :
    ∃ a, handling = .handled (.left a (some d)) := by
  cases handling with
  | foreign => cases told
  | @handled receipt =>
    cases receipt with
    | slotless | spurious => cases told
    | answered a answer result => exact absurd told (Sent.not_installed_of_events _ result)
    | left a fresh =>
      cases fresh with
      | none => cases told
      | some c =>
        obtain ⟨-, rfl⟩ := Inbox.installed_of_mem_onArrival told
        exact ⟨a, rfl⟩

/-- A ring that installs a delivery has reached its destination, and left a message there. -/
theorem exists_reached_of_installed {i : Inbox} {result : RingResult}
    (told : .installed p d ∈ result.events i q) :
    ∃ a, result = .reached (.handled (.left a (some d))) := by
  cases result with
  | unattached | noVector => cases told
  | reached handling =>
    obtain ⟨a, rfl⟩ := exists_left_of_installed told
    exact ⟨a, rfl⟩

/-- What is told of an inbox is told of one that is there. -/
theorem Network.exists_of_mem_onInbox {net : Network} {event : Event} {f : Inbox → Story}
    (told : event ∈ net.onInbox p f) : ∃ i, event ∈ f i := by
  unfold onInbox at told
  split at told
  next i _ => exact ⟨i, told⟩
  next => cases told

end Installed

/-! ### Operations -/

namespace Network

open Memory (KeepsStamps)

variable {net after : Network} {l : Layout} {p : PeerId} {e : Endpoint}

/-- Clearing the slot of a delivery that was given up keeps all stamps. -/
theorem keepsStamps_clearGivenUp (net : Network) (valid : l.Valid) (seat : e.Seated l p)
    (o : Option Delivery) : KeepsStamps l net.memory (net.clearGivenUp e o).memory := by
  cases o with
  | none => exact .refl l _
  | some d =>
    simp only [clearGivenUp, clearSender, Endpoint.slotOf?, seat.layout]
    rcases found : l.slot? d.sender.toUInt64 with _ | slot
    · exact .refl l _
    · obtain rfl := Layout.slot?_eq_some valid found
      simp only [memory_remember]
      exact Memory.keepsStamps_clear valid d.sender d.len net.memory

/-- An inbox changes, and a delivery is given up. -/
theorem keepsStamps_giveUp (net : Network) (valid : l.Valid) (seat : e.Seated l p) (i : Inbox)
    (o : Option Delivery) : KeepsStamps l net.memory
      ((net.update e.peer fun e => { e with inbox := i }).clearGivenUp e o).memory :=
  keepsStamps_clearGivenUp (net.update e.peer fun e => { e with inbox := i }) valid seat o

/-- A wait keeps all stamps. -/
theorem keepsStamps_await (net : Network) (valid : l.Valid) (seat : e.Seated l p)
    (patience : Patience) : KeepsStamps l net.memory (net.await e patience).2.memory := by
  unfold Network.await
  rcases e.inbox.pending with _ | d
  · exact .refl l _
  · simp only
    split <;> exact net.keepsStamps_giveUp valid seat _ _

/-- A release keeps all stamps. -/
theorem keepsStamps_release (net : Network) (valid : l.Valid) (seat : e.Seated l p) :
    KeepsStamps l net.memory (net.release e).2.memory :=
  net.keepsStamps_giveUp valid seat _ _

/-- A framed read keeps all stamps. -/
theorem keepsStamps_read (valid : l.Valid) (seats : ∀ e, net.endpoint? p = some e → e.Seated l p)
    (he : net.endpoint? p = some e) (buffer : List UInt8) :
    KeepsStamps l net.memory (net.read e buffer).2.2.memory := by
  have seat := seats e he
  have taken := net.keepsStamps_await valid seat .none
  have acts := net.acts_await valid seat .none
  rcases net.network_read e buffer with same | ⟨e', he', same⟩
  · rw [same]
    exact taken
  · rw [seat.peer] at he'
    rw [same]
    exact taken.trans (keepsStamps_release _ valid (acts.seated seats e' he'))

/-- Installing a delivery keeps all stamps. -/
theorem keepsStamps_install (net : Network) (valid : l.Valid) (seat : e.Seated l p)
    (sender : PeerId) (len : UInt64) :
    KeepsStamps l net.memory (net.install e sender len).memory := by
  unfold Network.install
  rcases e.inbox.install sender len with ⟨inbox, displaced⟩
  cases displaced with
  | none => exact .refl l _
  | some previous =>
    simp only
    split
    · exact .refl l _
    · refine KeepsStamps.trans ?_ (keepsStamps_clearGivenUp _ valid seat (some previous))
      exact .refl l _

/-- A send keeps all stamps, whether it succeeds or not. -/
theorem keepsStamps_send (net : Network) (valid : l.Valid) (seat : e.Seated l p)
    (busyPeers : List PeerId) (mode : WaitMode) (dest : Destination) (message : List UInt8) :
    KeepsStamps l net.memory (net.send .queue busyPeers e mode dest message).2.memory := by
  unfold Network.send
  rcases admitted : e.admit dest message with fault | target
  · exact .refl l _
  · obtain ⟨-, -, short⟩ := admit_eq_ok seat.layout admitted
    simp only
    split
    · exact .refl l _
    · show KeepsStamps l net.memory (net.stage e target message).memory
      rw [stage, seat.slot_eq]
      exact Memory.keepsStamps_post valid p target short net.memory

/-- A reply keeps all stamps, whether it can be sent or not. -/
theorem keepsStamps_reply (net : Network) (valid : l.Valid) (seat : e.Seated l p)
    (busyPeers : List PeerId) (sender : PeerId) (answer : List UInt8) :
    KeepsStamps l net.memory (net.reply .queue busyPeers e sender answer).2.memory := by
  have sends := net.keepsStamps_send valid seat busyPeers .spin (.peer sender) answer
  unfold Network.reply
  split <;> next outcome => rwa [outcome] at sends

/-- A patient send keeps all stamps, whatever the number of attempts. -/
theorem keepsStamps_sendPatiently (valid : l.Valid) (seat : e.Seated l p) (dest : Destination)
    (body : List UInt8) (attempts : Nat) (net : Network) :
    KeepsStamps l net.memory (net.sendPatiently .queue e dest body attempts).2.memory := by
  induction attempts generalizing net with
  | zero => exact .refl l _
  | succ attempts ih =>
    have sends := net.keepsStamps_send valid seat [] .sleep dest body
    unfold Network.sendPatiently
    split
    next outcome =>
      rw [outcome] at sends
      exact sends.trans (ih _)
    next => exact sends

/-- A framed write keeps all stamps. -/
theorem keepsStamps_write (net : Network) (valid : l.Valid) (seat : e.Seated l p)
    (request : List UInt8) : KeepsStamps l net.memory (net.write .queue e request).2.memory := by
  rcases net.network_write .queue e request with same | ⟨dest, body, same⟩ <;> rw [same]
  · exact .refl l _
  · exact keepsStamps_sendPatiently valid seat dest body writeAttempts net

/-- Naming an endpoint keeps all stamps. -/
theorem keepsStamps_setClass (net : Network) (valid : l.Valid) (seat : e.Seated l p)
    (name : String) : KeepsStamps l net.memory (net.setClass e name).memory := by
  unfold Network.setClass
  rw [seat.slot_eq]
  exact Memory.keepsStamps_rename valid p name net.memory

/-- A stamp of a sender writes its first component id and the subnet. -/
theorem memory_stampSender (net : Network) (l : Layout) (a : PeerId) :
    (net.stampSender (l.slotAt a) a).memory =
      (l.slotAt a).stamp (firstCid a) subnetWord net.memory := rfl

/-- What follows the stamping in a dispatch. -/
theorem keepsStamps_dispatch (net : Network) (valid : l.Valid) (seat : e.Seated l p)
    (busyPeers : List PeerId) (a : PeerId) :
    KeepsStamps l (net.stampSender (l.slotAt a) a).memory
      (net.dispatch .queue busyPeers e a (l.slotAt a)).2.memory := by
  by_cases idle : ((l.slotAt a).staged net.memory).len = 0
  · rw [dispatch_of_idle _ _ idle]
    exact .refl l _
  · rcases response : Link.respond e.identity ((l.slotAt a).staged net.memory).message with
      _ | ⟨identity, answer⟩
    · rw [dispatch_of_plain _ _ idle (Link.respond_eq_none_iff.mp response)]
      exact (net.stampSender _ a).keepsStamps_install valid seat a _
    · rw [dispatch_of_request _ _ idle response]
      refine KeepsStamps.trans ?_ (keepsStamps_reply _ valid seat busyPeers a answer)
      rw [acknowledge, memory_update, memory_remember]
      exact Memory.keepsStamps_clear valid a _ _

/-- A dispatch stamps the slot of the sender. -/
theorem stamped_dispatch (net : Network) (valid : l.Valid) (seat : e.Seated l p)
    (busyPeers : List PeerId) (a : PeerId) :
    l.Stamped a (net.dispatch .queue busyPeers e a (l.slotAt a)).2.memory :=
  net.keepsStamps_dispatch valid seat busyPeers a a (Memory.stamped_stamp l a net.memory)

/-- The delivery that a dispatch leaves is of the sender, with the length that stands in its
    slot. -/
theorem seen_of_dispatch {busyPeers : List PeerId} {a b : PeerId} {slot : Slot} {d : Delivery}
    (left : (net.dispatch .queue busyPeers e a slot).1 = .left b (some d)) :
    d.sender = a ∧ d.len = (slot.staged net.memory).len ∧ d.len ≠ 0 := by
  by_cases idle : (slot.staged net.memory).len = 0
  · rw [dispatch_of_idle _ _ idle] at left
    cases left
  · rcases response : Link.respond e.identity (slot.staged net.memory).message with
      _ | ⟨identity, answer⟩
    · rw [dispatch_of_plain _ _ idle (Link.respond_eq_none_iff.mp response)] at left
      obtain ⟨-, rfl⟩ := Inbox.fresh?_eq_some.mp (Receipt.left.inj left).2
      exact ⟨rfl, rfl, idle⟩
    · rw [dispatch_of_request _ _ idle response] at left
      cases left

/-- An interrupt keeps all stamps, whatever its vector. -/
theorem keepsStamps_interrupt (net : Network) (valid : l.Valid) (seat : e.Seated l p)
    (busyPeers : List PeerId) (vector : UInt32) :
    KeepsStamps l net.memory (net.interrupt .queue busyPeers e vector).2.memory := by
  rcases net.interrupt_dispatches_or valid seat .queue busyPeers vector with
    ⟨dropped, -⟩ | ⟨a, -, -, dispatched⟩
  · rw [dropped]
    exact .refl l _
  · rw [dispatched]
    refine KeepsStamps.trans ?_ (net.keepsStamps_dispatch valid seat busyPeers a)
    rw [memory_stampSender]
    exact Memory.keepsStamps_stamp valid a net.memory

/-- An interrupt that leaves a delivery is a dispatch that leaves it. -/
theorem exists_dispatch_of_interrupt (valid : l.Valid) (seat : e.Seated l p) {vector : UInt32}
    {a : PeerId} {d : Delivery}
    (left : (net.interrupt .queue [] e vector).1 = .handled (.left a (some d))) :
    ∃ b, (net.dispatch .queue [] e b (l.slotAt b)).1 = .left a (some d) ∧
      (net.interrupt .queue [] e vector).2 = (net.dispatch .queue [] e b (l.slotAt b)).2 := by
  rcases net.interrupt_dispatches_or valid seat .queue [] vector with
    ⟨-, foreign | slotless⟩ | ⟨b, -, handling, dispatched⟩
  · rw [foreign] at left
    cases left
  · rw [slotless] at left
    cases left
  · rw [handling] at left
    exact ⟨b, by injection left, dispatched⟩

/-- A ring keeps all stamps. -/
theorem keepsStamps_raise (net : Network) (valid : l.Valid) (busyPeers : List PeerId)
    {w : DoorbellWord} (seats : ∀ e, net.endpoint? w.dest = some e → e.Seated l w.dest) :
    KeepsStamps l net.memory (net.raise .queue busyPeers w).2.memory := by
  rcases net.raise_interrupts_or .queue busyPeers w with ⟨lost, -⟩ | ⟨e, vector, he, -, reached⟩
  · rw [lost]
    exact .refl l _
  · rw [reached]
    exact net.keepsStamps_interrupt valid (seats e he) busyPeers vector

/-- A delivery was left by a dispatch that led to a network and had found the memory as it is in
    another one. The queue may have changed between. -/
inductive Dispatched (l : Layout) (net : Network) (d : Delivery) : Network → Prop
  | dispatch {mid : Network} {e : Endpoint} {p a b : PeerId} (memory : mid.memory = net.memory)
      (seat : e.Seated l p)
      (left : (mid.dispatch .queue [] e a (l.slotAt a)).1 = .left b (some d)) :
      Dispatched l net d (mid.dispatch .queue [] e a (l.slotAt a)).2

/-- What a ring leaves was left by a dispatch. -/
theorem Seated.dispatched_raise {mid : Network} (seated : mid.Seated l)
    (memory : mid.memory = net.memory) {w : DoorbellWord} {a : PeerId} {d : Delivery}
    (left : (mid.raise .queue [] w).1 = .reached (.handled (.left a (some d)))) :
    net.Dispatched l d (mid.raise .queue [] w).2 := by
  rcases mid.raise_interrupts_or .queue [] w with
    ⟨-, unattached | noVector⟩ | ⟨e, vector, he, result, reached⟩
  · rw [unattached] at left
    cases left
  · rw [noVector] at left
    cases left
  · rw [result] at left
    have seat := seated.seats w.dest e he
    obtain ⟨b, dispatched, after⟩ :=
      exists_dispatch_of_interrupt seated.valid seat (RingResult.reached.inj left)
    rw [reached, after]
    exact .dispatch memory seat dispatched

/-! ### Runs -/

/-- What an endpoint does keeps all stamps if it does where the endpoint is there. -/
theorem keepsStamps_actAs {act : Endpoint → Outcome × Network}
    (acts : ∀ e, net.endpoint? p = some e → KeepsStamps l net.memory (act e).2.memory) :
    KeepsStamps l net.memory (net.actAs p act).2.memory := by
  unfold Network.actAs
  rcases he : net.endpoint? p with _ | e
  · exact .refl l _
  · exact acts e he

/-- The stamps of a peer stay whatever is done, unless the peer claims its slot. -/
theorem Seated.stamped_perform (seated : net.Seated l) {action : Action} {q : PeerId}
    (unclaimed : .attached q ∉ net.events action) (stamped : l.Stamped q net.memory) :
    l.Stamped q (net.perform .queue action).2.memory := by
  have valid := seated.valid
  -- Only an attachment may touch the id in a slot, and it does so in its own slot alone; every
  -- other action restores the stamps that it rewrites.
  cases action with
  | attach p vectors config host =>
    obtain rfl := seated.layout
    unfold events at unclaimed
    simp only [Network.perform] at unclaimed ⊢
    rcases made : net.attach net.layout p vectors config host with fault | after
    · exact stamped
    · rw [made] at unclaimed
      -- the story would tell that the peer has attached
      have other : q ≠ p := by
        rintro rfl
        exact unclaimed (by simp [tell])
      exact Memory.stamped_of_spared ((acts_attach valid made).deeds.spared valid other) stamped
  | detach p =>
    have kept : (net.detach p).2.memory = net.memory := by
      unfold Network.detach
      split <;> rfl
    simp only [Network.perform, kept]
    exact stamped
  | forget p => exact stamped
  | send p mode dest message =>
    refine keepsStamps_actAs (fun e he => ?_) q stamped
    exact net.keepsStamps_send valid (seated.seats p e he) [] mode dest message
  | requestDump p =>
    refine keepsStamps_actAs (fun e he => ?_) q stamped
    exact net.keepsStamps_send valid (seated.seats p e he) [] .sleep _ _
  | write p request =>
    refine keepsStamps_actAs (fun e he => ?_) q stamped
    exact net.keepsStamps_write valid (seated.seats p e he) request
  | deliver place =>
    simp only [Network.perform]
    rcases found : net.rings[place]? with _ | w
    · have nothing : net.deliver? place = none := by simp [Network.deliver?, found]
      rw [nothing]
      exact stamped
    · rw [deliver?_of_ring found]
      exact (net.dequeue place).keepsStamps_raise valid [] (seated.seats w.dest) q stamped
  | raise w => exact net.keepsStamps_raise valid [] (seated.seats w.dest) q stamped
  | interrupt p vector =>
    refine keepsStamps_actAs (fun e he => ?_) q stamped
    exact net.keepsStamps_interrupt valid (seated.seats p e he) [] vector
  | await p patience =>
    refine keepsStamps_actAs (fun e he => ?_) q stamped
    exact net.keepsStamps_await valid (seated.seats p e he) patience
  | release p =>
    refine keepsStamps_actAs (fun e he => ?_) q stamped
    exact net.keepsStamps_release valid (seated.seats p e he)
  | read p buffer =>
    refine keepsStamps_actAs (fun e he => ?_) q stamped
    exact keepsStamps_read valid (seated.seats p) he buffer
  | setClass p name =>
    refine keepsStamps_actAs (fun e he => ?_) q stamped
    exact net.keepsStamps_setClass valid (seated.seats p e he) name

/-- Only a ring that reaches its destination has a delivery installed. -/
theorem outcome_of_installed {action : Action} {outcome : Outcome} {p : PeerId} {d : Delivery}
    (told : .installed p d ∈ net.tell action outcome) : ∃ a,
      (∃ place w, action = .deliver place ∧
        outcome = .delivered w (.reached (.handled (.left a (some d))))) ∨
      (∃ w, action = .raise w ∧
        outcome = .raised (.reached (.handled (.left a (some d))))) ∨
      (∃ q vector, action = .interrupt q vector ∧
        outcome = .interrupted (.handled (.left a (some d)))) := by
  unfold tell at told
  -- One case for each kind of outcome, of which three are of a ring that arrives.
  split at told
  next => simp at told
  next => exact absurd told (Sent.not_installed_of_events _ _)
  next => exact absurd told (Sent.not_installed_of_events _ _)
  next =>
    split at told
    · exact absurd told (Sent.not_installed_of_events _ _)
    · cases told
  next place w result =>
    obtain ⟨i, arrived⟩ := exists_of_mem_onInbox told
    obtain ⟨a, rfl⟩ := exists_reached_of_installed arrived
    exact ⟨a, .inl ⟨place, w, rfl, rfl⟩⟩
  next w result =>
    obtain ⟨i, arrived⟩ := exists_of_mem_onInbox told
    obtain ⟨a, rfl⟩ := exists_reached_of_installed arrived
    exact ⟨a, .inr (.inl ⟨w, rfl, rfl⟩)⟩
  next q vector handling =>
    obtain ⟨i, arrived⟩ := exists_of_mem_onInbox told
    obtain ⟨a, rfl⟩ := exists_left_of_installed arrived
    exact ⟨a, .inr (.inr ⟨q, vector, rfl, rfl⟩)⟩
  next =>
    obtain ⟨i, taken⟩ := exists_of_mem_onInbox told
    exact absurd taken (i.not_installed_of_onTaking _)
  next =>
    obtain ⟨i, released⟩ := exists_of_mem_onInbox told
    exact absurd released (i.not_installed_of_onRelease _)
  next =>
    obtain ⟨i, read⟩ := exists_of_mem_onInbox told
    exact absurd read (i.not_installed_of_onReading _ _)
  next => cases told

/-- A delivery that an action has installed was left by a dispatch. -/
theorem Seated.dispatched_of_installed (seated : net.Seated l) {action : Action} {p : PeerId}
    {d : Delivery} (told : .installed p d ∈ net.events action) :
    net.Dispatched l d (net.perform .queue action).2 := by
  -- the three ways for a ring to arrive: from the queue, by hand, and as a bare interrupt
  obtain ⟨a, ⟨place, w, rfl, outcome⟩ | ⟨w, rfl, outcome⟩ | ⟨q, vector, rfl, outcome⟩⟩ :=
    outcome_of_installed told
  · simp only [Network.perform] at outcome ⊢
    rcases found : net.rings[place]? with _ | v
    · have nothing : net.deliver? place = none := by simp [Network.deliver?, found]
      rw [nothing] at outcome
      cases outcome
    · rw [deliver?_of_ring found] at outcome ⊢
      have waiting : (net.dequeue place).Seated l := ⟨seated.layout, seated.valid, seated.seats⟩
      have memory : (net.dequeue place).memory = net.memory := rfl
      exact waiting.dispatched_raise memory (Outcome.delivered.inj outcome).2
  · simp only [Network.perform] at outcome ⊢
    exact seated.dispatched_raise rfl (Outcome.raised.inj outcome)
  · rcases he : net.endpoint? q with _ | e
    · simp [Network.perform, actAs, he] at outcome
    · simp only [Network.perform, actAs, he] at outcome ⊢
      have seat := seated.seats q e he
      obtain ⟨b, left, after⟩ :=
        exists_dispatch_of_interrupt seated.valid seat (Outcome.interrupted.inj outcome)
      rw [after]
      exact .dispatch rfl seat left

/-- Its slot is stamped then. -/
theorem Dispatched.stamped {d : Delivery} (valid : l.Valid) (left : net.Dispatched l d after) :
    l.Stamped d.sender after.memory := by
  cases left with
  | @dispatch mid e p a b memory seat left =>
    rw [(seen_of_dispatch left).1]
    exact mid.stamped_dispatch valid seat [] a

/-- What was stamped stays so in a run in which the peer does not claim its slot. -/
theorem WellFormed.stamped_run (wf : WellFormed l True net) {actions : List Action}
    {q : PeerId} (unclaimed : .attached q ∉ net.story actions) (stamped : l.Stamped q net.memory) :
    l.Stamped q (net.run .queue actions).memory := by
  induction actions generalizing net with
  | nil => exact stamped
  | cons action rest ih =>
    rw [story, List.mem_append, not_or] at unclaimed
    have after := wf.perform (abides_lax net action)
    exact ih after.1 unclaimed.2 (wf.seated.stamped_perform unclaimed.1 stamped)

/-- Once a delivery was installed in a run, the slot of its sender is stamped until the sender
    claims it again. -/
theorem WellFormed.stamped_of_story (wf : WellFormed l True net) {actions : List Action} {k : Nat}
    {p : PeerId} {d : Delivery} (installed : (net.story actions)[k]? = some (.installed p d))
    (unclaimed : ∀ i, k < i → (net.story actions)[i]? ≠ some (.attached d.sender)) :
    l.Stamped d.sender (net.run .queue actions).memory := by
  -- Induction on the actions, with the place in the story counted from each of them.
  induction actions generalizing net k with
  | nil => simp [story] at installed
  | cons action rest ih =>
    have after := (wf.perform (abides_lax net action)).1
    rw [story] at installed unclaimed
    by_cases early : k < (net.events action).length
    · -- it is installed by this action, and what follows is all behind it
      rw [List.getElem?_append_left early] at installed
      have dispatched := wf.seated.dispatched_of_installed (List.mem_of_getElem? installed)
      have stamped := dispatched.stamped wf.valid
      refine after.stamped_run (fun claimed => ?_) stamped
      obtain ⟨i, told⟩ := List.mem_iff_getElem?.mp claimed
      refine unclaimed ((net.events action).length + i) (by omega) ?_
      rw [List.getElem?_append_right (Nat.le_add_right ..), Nat.add_sub_cancel_left, told]
    · rw [List.getElem?_append_right (Nat.le_of_not_lt early)] at installed
      refine ih after installed fun i later told => ?_
      refine unclaimed ((net.events action).length + i) (by omega) ?_
      rw [List.getElem?_append_right (Nat.le_add_right ..), Nat.add_sub_cancel_left, told]

end Network

end SharedMailbox
