import Mathlib.Logic.Function.Basic
import SharedMailbox.Network.Run
import SharedMailbox.Proofs.Routing
import SharedMailbox.Proofs.Staging

namespace SharedMailbox

/-!
# Views of a network

Who may send, and who refers to whose message, depends on little of a network: what is staged in
each slot, the inbox of each endpoint, and the rings under way. This is its view. Every operation
does something simple to it, whatever it does to names, stamps, identities and counters.

* `View`, `Network.view`: the view; `View.post`, `View.giveUp`, `View.install`, `View.handOut`,
  `View.release` and so on: what the operations make of it.
* `Network.WellFormed`: every endpoint sees the region through the layout of the mailbox, owns its
  slot, and refers to messages of peers that own a slot.
* `WellFormed.view_stage`, `WellFormed.view_clearGivenUp` and so on: what the writes into a slot do
  to the view.
-/

/-! ### Inboxes -/

namespace Inbox

variable {i : Inbox} {d : Delivery} {sender : PeerId} {len : UInt64}

/-- The inbox refers to the message of a delivery. -/
def Refers (i : Inbox) (d : Delivery) : Prop := i.pending = some d ∨ i.inHand = some d

instance (i : Inbox) (d : Delivery) : Decidable (i.Refers d) := inferInstanceAs (Decidable (_ ∨ _))

/-- The inbox with a new pending delivery. -/
def accept (i : Inbox) (d : Delivery) : Inbox :=
  { i with pending := some d, generation := d.generation }

/-- The pending delivery, if it is given up when another one displaces it. -/
def stomped (i : Inbox) : Option Delivery := i.pending.filter fun d => ¬ i.Holds d

/-- A delivery is not fresh iff one of its sender is pending. -/
theorem fresh?_eq_none :
    i.fresh? sender len = none ↔ i.pending.map Delivery.sender = some sender := by
  simp [fresh?]

/-- A fresh delivery gets the next generation, and none of its sender is pending. -/
theorem fresh?_eq_some : i.fresh? sender len = some d ↔
    i.pending.map Delivery.sender ≠ some sender ∧ d = ⟨sender, len, i.generation + 1⟩ := by
  simp [fresh?, eq_comm]

/-- A fresh delivery is accepted and displaces the pending one. -/
theorem install_of_fresh? (h : i.fresh? sender len = some d) :
    i.install sender len = (i.accept d, i.pending) := by
  simp [install, h, accept]

/-- One that is not fresh changes nothing. -/
theorem install_of_stale (h : i.fresh? sender len = none) : i.install sender len = (i, none) := by
  simp [install, h]

/-- Stomped is what is pending and not in hand. -/
theorem stomped_eq_some : i.stomped = some d ↔ i.pending = some d ∧ ¬ i.Holds d := by
  simp [stomped, Option.filter_eq_some_iff]

/-- What is superseded was in hand and is of another sender. -/
theorem superseded_eq_some {c : Delivery} :
    (i.handOut d).2 = some c ↔ i.inHand = some c ∧ c.sender ≠ d.sender := by
  simp [handOut, Option.filter_eq_some_iff]

/-- An inbox that has accepted a delivery refers to it, or to the one in hand. -/
theorem refers_accept {c : Delivery} (h : (i.accept d).Refers c) : c = d ∨ i.inHand = some c :=
  h.imp_left fun h => (Option.some.inj h).symm

/-- An inbox that has handed out the pending delivery refers to no other one. -/
theorem refers_handOut {c : Delivery} (pending : i.pending = some d)
    (h : (i.handOut d).1.Refers c) : c = d := by
  rcases h with h | h
  · exact Option.some.inj (h.symm.trans pending)
  · exact (Option.some.inj h).symm

/-- After a release only what was pending is referred to. -/
theorem refers_release {c : Delivery} (h : i.release.1.Refers c) : i.pending = some c := by
  unfold release at h
  split at h
  · rcases h with h | h
    · exact (Option.filter_eq_some_iff.mp h).1
    · cases h
  next idle =>
    rcases h with h | h
    · cases h
    · exact absurd (idle.symm.trans h) (by simp)

/-- What is still referred to after a release is of another sender than what was released. -/
theorem ne_of_refers_release {c : Delivery} (given : i.release.2 = some d)
    (h : i.release.1.Refers c) : c.sender ≠ d.sender := by
  -- an empty hand means that the pending delivery goes; else the one in hand goes, and a pending
  -- one of its sender with it
  rcases held : i.inHand with _ | hand
  · simp only [release, held, Refers] at h
    simp at h
  · simp only [release, held, Option.some.injEq] at given
    subst given
    simp only [release, held, Refers, reduceCtorEq, or_false] at h
    simpa using (Option.filter_eq_some_iff.mp h).2

/-- What is released was referred to. -/
theorem refers_of_released (h : i.release.2 = some d) : i.Refers d := by
  unfold release at h
  split at h
  next held => exact .inr (held.trans h)
  next => exact .inl h

end Inbox

/-! ### Views -/

/-- What of a network decides who may send and who refers to whose message. -/
@[ext] structure View where
  staged : PeerId → Staged
  inbox : PeerId → Option Inbox
  rings : List DoorbellWord

namespace View

variable (v : View)

/-- The endpoint of a peer refers to the message of a delivery. -/
def Refers (p : PeerId) (d : Delivery) : Prop := ∃ i, v.inbox p = some i ∧ i.Refers d

/-- Change what is staged in a slot. -/
def setStaged (p : PeerId) (s : Staged) : View := { v with staged := Function.update v.staged p s }

/-- Change the inbox of an endpoint. -/
def setInbox (p : PeerId) (i : Option Inbox) : View :=
  { v with inbox := Function.update v.inbox p i }

/-- Mark a staged message consumed if it has the length that was seen. -/
def clear (p : PeerId) (seen : UInt64) : View := v.setStaged p ((v.staged p).clear seen)

/-- Give up a delivery, if there is one. -/
def giveUp : Option Delivery → View
  | some d => v.clear d.sender d.len
  | none => v

/-- A message is staged for a target, whose ring gets under way. -/
def post (p : PeerId) (target : UInt64) (message : List UInt8) : View :=
  { v.setStaged p ((v.staged p).put target message) with
    rings := v.rings ++ [.new p target.toUInt16] }

/-- A delivery becomes the pending one. The one that it displaces is given up, unless it is in
    hand. -/
def install (p : PeerId) (i : Inbox) (d : Delivery) : View :=
  (v.setInbox p (some (i.accept d))).giveUp i.stomped

/-- The consumer takes a delivery in hand. -/
def handOut (p : PeerId) (i : Inbox) (d : Delivery) : View :=
  (v.setInbox p (i.handOut d).1).giveUp (i.handOut d).2

/-- The consumer is done. -/
def release (p : PeerId) (i : Inbox) : View := (v.setInbox p i.release.1).giveUp i.release.2

/-- An endpoint claims its slot. -/
def occupy (p : PeerId) (capacity : Nat) : View :=
  (v.setStaged p (Staged.blank capacity)).setInbox p (some {})

/-- A ring is taken off the queue. -/
def drop (place : Nat) : View := { v with rings := v.rings.eraseIdx place }

/-- To stage what is staged changes nothing. -/
@[simp] theorem setStaged_self (p : PeerId) : v.setStaged p (v.staged p) = v := by
  simp [setStaged]

/-- What was just staged is staged. -/
@[simp] theorem staged_setStaged_self (p : PeerId) (s : Staged) :
    (v.setStaged p s).staged p = s := by
  simp [setStaged]

/-- Staging concerns no other slot. -/
theorem staged_setStaged_of_ne {p q : PeerId} (h : q ≠ p) (s : Staged) :
    (v.setStaged p s).staged q = v.staged q := by
  simp [setStaged, h]

/-- Staging concerns no inbox. -/
@[simp] theorem inbox_setStaged (p : PeerId) (s : Staged) : (v.setStaged p s).inbox = v.inbox := rfl

/-- Staging concerns no ring. -/
@[simp] theorem rings_setStaged (p : PeerId) (s : Staged) : (v.setStaged p s).rings = v.rings := rfl

/-- Inboxes do not concern what is staged. -/
@[simp] theorem staged_setInbox (p : PeerId) (i : Option Inbox) :
    (v.setInbox p i).staged = v.staged := rfl

/-- To give a peer the inbox that it has changes nothing. -/
theorem setInbox_self {p : PeerId} {i : Option Inbox} (h : v.inbox p = i) : v.setInbox p i = v := by
  subst h
  simp [setInbox]

/-- Inboxes do not concern the rings. -/
@[simp] theorem rings_setInbox (p : PeerId) (i : Option Inbox) :
    (v.setInbox p i).rings = v.rings := rfl

/-- The inbox that a peer was given is its inbox. -/
@[simp] theorem inbox_setInbox_self (p : PeerId) (i : Option Inbox) :
    (v.setInbox p i).inbox p = i := by
  simp [setInbox]

/-- The inboxes of other peers stay. -/
theorem inbox_setInbox_of_ne {p q : PeerId} (h : q ≠ p) (i : Option Inbox) :
    (v.setInbox p i).inbox q = v.inbox q := by
  simp [setInbox, h]

/-- Clearing concerns no inbox. -/
@[simp] theorem inbox_clear (p : PeerId) (seen : UInt64) : (v.clear p seen).inbox = v.inbox := rfl

/-- Clearing concerns no ring. -/
@[simp] theorem rings_clear (p : PeerId) (seen : UInt64) : (v.clear p seen).rings = v.rings := rfl

/-- Clearing a slot clears what is staged there. -/
@[simp] theorem staged_clear_self (p : PeerId) (seen : UInt64) :
    (v.clear p seen).staged p = (v.staged p).clear seen := by
  simp [clear]

/-- Clearing concerns no other slot. -/
theorem staged_clear_of_ne {p q : PeerId} (h : q ≠ p) (seen : UInt64) :
    (v.clear p seen).staged q = v.staged q := by
  simp [clear, staged_setStaged_of_ne v h]

/-- Giving a delivery up concerns no inbox. -/
@[simp] theorem inbox_giveUp (d : Option Delivery) : (v.giveUp d).inbox = v.inbox := by
  cases d <;> rfl

/-- Giving a delivery up concerns no ring. -/
@[simp] theorem rings_giveUp (d : Option Delivery) : (v.giveUp d).rings = v.rings := by
  cases d <;> rfl

/-- Giving a delivery up clears the slot of its sender. -/
@[simp] theorem staged_giveUp_self (d : Delivery) :
    (v.giveUp (some d)).staged d.sender = (v.staged d.sender).clear d.len :=
  v.staged_clear_self d.sender d.len

/-- Giving up a delivery leaves the slots of others than its sender alone. -/
theorem staged_giveUp_of_ne {a : PeerId} {o : Option Delivery} (h : ∀ d ∈ o, d.sender ≠ a) :
    (v.giveUp o).staged a = v.staged a := by
  cases o with
  | none => rfl
  | some d => exact v.staged_clear_of_ne (Ne.symm (h d rfl)) d.len

/-- A message that is posted is put into the slot of its sender. -/
@[simp] theorem staged_post_self (p : PeerId) (target : UInt64) (message : List UInt8) :
    (v.post p target message).staged p = (v.staged p).put target message :=
  v.staged_setStaged_self p _

/-- Posting concerns no other slot. -/
theorem staged_post_of_ne {p q : PeerId} (h : q ≠ p) (target : UInt64) (message : List UInt8) :
    (v.post p target message).staged q = v.staged q :=
  v.staged_setStaged_of_ne h _

/-- Posting concerns no inbox. -/
@[simp] theorem inbox_post (p : PeerId) (target : UInt64) (message : List UInt8) :
    (v.post p target message).inbox = v.inbox := rfl

/-- A message that is posted is announced by one ring, the last one under way. -/
@[simp] theorem rings_post (p : PeerId) (target : UInt64) (message : List UInt8) :
    (v.post p target message).rings = v.rings ++ [.new p target.toUInt16] := rfl

/-- Taking a ring off the queue does not concern what is staged. -/
@[simp] theorem staged_drop (place : Nat) : (v.drop place).staged = v.staged := rfl

/-- Taking a ring off the queue concerns no inbox. -/
@[simp] theorem inbox_drop (place : Nat) : (v.drop place).inbox = v.inbox := rfl

/-- The ring that is taken off the queue is no longer under way. -/
@[simp] theorem rings_drop (place : Nat) : (v.drop place).rings = v.rings.eraseIdx place := rfl

end View

/-! ### The view of a network -/

/-- The record of an endpoint goes with a layout and a peer: it sees the region through that
    layout, the peer owns its slot, no vector stands twice in its table unless stray rings are
    reckoned with, and it refers to messages of peers that own a slot. -/
structure Endpoint.Fits (l : Layout) (stray : Prop) (p : PeerId) (e : Endpoint) : Prop where
  peer : e.peer = p
  layout : e.layout = l
  owner : l.HasSlot p.toUInt64
  vectors : stray ∨ e.vectors.NoRepeats
  refers : ∀ d, e.inbox.Refers d → l.HasSlot d.sender.toUInt64

namespace Network

/-- What is staged in the slot of a peer. -/
def staged (net : Network) (p : PeerId) : Staged := (net.layout.slotAt p).staged net.memory

/-- The inbox of the endpoint of a peer. -/
def inbox? (net : Network) (p : PeerId) : Option Inbox := (net.endpoint? p).map Endpoint.inbox

/-- The view of a network. -/
def view (net : Network) : View := ⟨net.staged, net.inbox?, net.rings⟩

/-- The mailbox has this layout, which divides its region, and every endpoint goes with it. -/
structure WellFormed (l : Layout) (stray : Prop) (net : Network) : Prop where
  layout : net.layout = l
  valid : l.Valid
  fits : ∀ p e, net.endpoint? p = some e → e.Fits l stray p

variable {net : Network} {l : Layout} {stray : Prop} {p : PeerId} {e : Endpoint}

/-- The view shows what is staged in the network. -/
@[simp] theorem staged_view (net : Network) : net.view.staged = net.staged := rfl

/-- The view shows the rings of the network. -/
@[simp] theorem rings_view (net : Network) : net.view.rings = net.rings := rfl

/-- The view shows the inboxes of the network. -/
@[simp] theorem inbox_view (net : Network) : net.view.inbox = net.inbox? := rfl

/-- A ring that is enqueued shows as the last one. -/
@[simp] theorem view_enqueue (net : Network) (w : DoorbellWord) :
    (net.enqueue w).view = { net.view with rings := net.view.rings ++ [w] } := rfl

/-- The inbox of a peer is that of its endpoint. -/
theorem inbox?_of_endpoint? (he : net.endpoint? p = some e) : net.inbox? p = some e.inbox := by
  simp [inbox?, he]

/-! ### Changing one endpoint -/

/-- A network stays well-formed when an endpoint is updated to one that fits. -/
theorem WellFormed.update (wf : WellFormed l stray net) {f : Endpoint → Endpoint}
    (hf : ∀ e, net.endpoint? p = some e → (f e).Fits l stray p) :
    WellFormed l stray (net.update p f) where
  layout := wf.layout
  valid := wf.valid
  fits q e he := by
    by_cases same : p = q
    · subst same
      rw [endpoint?_update_self, Option.map_eq_some_iff] at he
      obtain ⟨old, hold, rfl⟩ := he
      exact hf old hold
    · rw [endpoint?_update_of_ne same] at he
      exact wf.fits q e he

/-- A new inbox for an endpoint, and whatever else of its record the view does not show. -/
theorem view_update (he : net.endpoint? p = some e) (f : Endpoint → Endpoint) :
    (net.update p f).view = net.view.setInbox p (some (f e).inbox) := by
  ext1
  · rfl
  · funext q
    by_cases same : q = p
    · subst same
      simp [inbox?, he]
    · rw [View.inbox_setInbox_of_ne _ same]
      simp [inbox?, endpoint?_update_of_ne (Ne.symm same)]
  · rfl

/-- The view does not show a change that keeps the inbox. -/
theorem view_update_of_inbox {f : Endpoint → Endpoint} (hf : ∀ e, (f e).inbox = e.inbox) :
    (net.update p f).view = net.view := by
  ext1
  · rfl
  · funext q
    by_cases same : p = q
    · subst same
      simp [inbox?, hf, Function.comp_def]
    · simp [inbox?, endpoint?_update_of_ne same]
  · rfl

/-- Counters do not show. -/
@[simp] theorem view_count (net : Network) (p : PeerId) (f : Metrics → Metrics) :
    (net.update p (.count f)).view = net.view :=
  view_update_of_inbox fun _ => rfl

/-- A change to an endpoint that keeps its place, its vectors and its inbox. -/
theorem WellFormed.update_of_inbox (wf : WellFormed l stray net) {f : Endpoint → Endpoint}
    (place : ∀ e, (f e).peer = e.peer ∧ (f e).layout = e.layout)
    (vectors : ∀ e, (f e).vectors = e.vectors) (inbox : ∀ e, (f e).inbox = e.inbox) :
    WellFormed l stray (net.update p f) := by
  refine wf.update fun e he => ?_
  have fits := wf.fits p e he
  exact ⟨(place e).1.trans fits.peer, (place e).2.trans fits.layout, fits.owner,
    vectors e ▸ fits.vectors, inbox e ▸ fits.refers⟩

/-- Counting keeps the network well-formed. -/
theorem WellFormed.count (wf : WellFormed l stray net) (p : PeerId) (f : Metrics → Metrics) :
    WellFormed l stray (net.update p (.count f)) :=
  wf.update_of_inbox (fun _ => ⟨rfl, rfl⟩) (fun _ => rfl) fun _ => rfl

/-! ### Writing into one slot -/

/-- Writing to memory keeps the network well-formed, whatever is written. -/
theorem WellFormed.remember (wf : WellFormed l stray net) (f : Memory → Memory) :
    WellFormed l stray (net.remember f) :=
  ⟨wf.layout, wf.valid, wf.fits⟩

/-- A write that stays within the slot of a peer changes what is staged there and nothing else. -/
theorem WellFormed.view_remember (wf : WellFormed l stray net) {f : Memory → Memory}
    (within : Memory.SameOutside (l.slotAt p).base (l.slotAt p).limit net.memory (f net.memory)) :
    (net.remember f).view = net.view.setStaged p ((l.slotAt p).staged (f net.memory)) := by
  obtain ⟨rfl, valid, -⟩ := wf
  ext1
  · -- the slots of other peers lie apart from the one that is written
    funext q
    by_cases same : q = p
    · subst same
      simp [Network.staged, Network.remember]
    · rw [View.staged_setStaged_of_ne _ same]
      exact Slot.staged_of_apart within (Nat.le_refl _) (Nat.le_refl _)
        (Layout.slotAt_apart valid (Ne.symm same))
  · rfl
  · rfl

/-- A write that stays within the slot of a peer and misses what is staged there does not show. -/
theorem WellFormed.view_remember_of_staged (wf : WellFormed l stray net) {f : Memory → Memory}
    (within : Memory.SameOutside (l.slotAt p).base (l.slotAt p).limit net.memory (f net.memory))
    (kept : (l.slotAt p).staged (f net.memory) = (l.slotAt p).staged net.memory) :
    (net.remember f).view = net.view := by
  rw [wf.view_remember within, kept, ← wf.layout]
  exact net.view.setStaged_self p

/-- Giving up a length in a slot shows as its clearing. -/
theorem WellFormed.view_clear (wf : WellFormed l stray net) (p : PeerId) (seen : UInt64) :
    (net.remember ((l.slotAt p).clear seen)).view = net.view.clear p seen := by
  have within := ((l.slotAt p).sameOutside_clear net.memory seen).mono
    (show (l.slotAt p).base ≤ _ by omega) (show _ ≤ (l.slotAt p).limit by rw [Slot.limit]; omega)
  rw [wf.view_remember within, Slot.staged_clear, ← wf.layout]
  rfl

/-- Stamping a slot does not show. -/
theorem WellFormed.view_stampSender (wf : WellFormed l stray net) (p : PeerId) :
    (net.stampSender (l.slotAt p) p).view = net.view := by
  have within := ((l.slotAt p).sameOutside_stamp net.memory (firstCid p) subnetWord).mono
    (show (l.slotAt p).base ≤ _ by omega) (show _ ≤ (l.slotAt p).limit by rw [Slot.limit]; omega)
  exact wf.view_remember_of_staged within (Slot.staged_stamp _ _ _ _)

/-- Writing a class does not show. -/
theorem WellFormed.view_setClassName (wf : WellFormed l stray net) (p : PeerId) (name : String) :
    (net.remember ((l.slotAt p).setClassName name)).view = net.view := by
  have within := ((l.slotAt p).sameOutside_setClassName net.memory name).mono
    (show (l.slotAt p).base ≤ _ by omega) (show _ ≤ (l.slotAt p).limit by rw [Slot.limit]; omega)
  exact wf.view_remember_of_staged within (Slot.staged_setClassName _ _ _)

/-- Staging a message that fits shows as putting it into the slot. -/
theorem WellFormed.view_stage (wf : WellFormed l stray net) (fits : e.Fits l stray p)
    (target : UInt64) {message : List UInt8} (short : message.length < l.maxPayload) :
    (net.stage e target message).view =
      net.view.setStaged p ((net.staged p).put target message) := by
  obtain rfl := wf.layout
  -- the endpoint writes into the slot of its peer only
  have own : e.slot = net.layout.slotAt p := by rw [Endpoint.slot, fits.peer, fits.layout]; rfl
  have within := ((net.layout.slotAt p).sameOutside_post net.memory target short).mono
    (show (net.layout.slotAt p).base ≤ _ by omega) (Nat.le_refl _)
  have posted := (net.layout.slotAt p).staged_post net.memory target short
  rw [stage, own, Network.staged, ← posted]
  exact wf.view_remember within

/-- A delivery given up is marked consumed in the slot of its sender. -/
theorem WellFormed.view_clearGivenUp (wf : WellFormed l stray net) (fits : e.Fits l stray p)
    {o : Option Delivery} (owner : ∀ d ∈ o, l.HasSlot d.sender.toUInt64) :
    (net.clearGivenUp e o).view = net.view.giveUp o := by
  cases o with
  | none => rfl
  | some d =>
    have slot : e.slotOf? d.sender = some (l.slotAt d.sender) := by
      rw [Endpoint.slotOf?, fits.layout]
      exact Layout.slot?_of_hasSlot wf.valid (owner d rfl)
    simp only [clearGivenUp, clearSender, slot]
    exact wf.view_clear d.sender d.len

/-- Clearing the slot of a delivery that was given up keeps the network well-formed. -/
theorem WellFormed.clearGivenUp (wf : WellFormed l stray net) (e : Endpoint)
    (o : Option Delivery) : WellFormed l stray (net.clearGivenUp e o) := by
  cases o with
  | none => exact wf
  | some d =>
    simp only [Network.clearGivenUp, clearSender]
    split
    · exact wf.remember _
    · exact wf

end Network

end SharedMailbox
