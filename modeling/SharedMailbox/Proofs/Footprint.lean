import Mathlib.Logic.Relation
import SharedMailbox.Proofs.Orderly

namespace SharedMailbox

/-!
# What endpoints write

An endpoint writes into its own slot. In the slot of another peer it marks a message consumed and
stamps the ids of the owner.

* `Slot.Spared`: what may become of a slot through the endpoints of other peers.
* `Memory.Write`: the writes of an endpoint that announce nothing.
* `Memory.Deeds`: what it writes in one operation: at most one message is announced, last of all, in
  a slot that is idle by then.
-/

/-! ### Slots of other peers -/

/-- The second memory differs from the first in the slot of a peer at most as the endpoints of
    others may have it: its message is marked consumed, and its ids are stamped. -/
structure Slot.Spared (s : Slot) (q : PeerId) (m n : Memory) : Prop where
  nodename : s.nodenameField n = s.nodenameField m
  className : s.classField n = s.classField m
  busy : s.busy n = s.busy m ∨ s.busy n = .idle
  peerId : s.peerId n = s.peerId m
  lastResponder : s.lastResponder n = s.lastResponder m
  ids : (s.peerCid n = s.peerCid m ∧ s.peerSid n = s.peerSid m) ∨
    (s.peerCid n = firstCid q ∧ s.peerSid n = subnetWord)
  payload : ∀ len, s.payload n len = s.payload m len

namespace Slot

variable {s : Slot} {q : PeerId} {m n k : Memory}

/-- To write nothing spares every slot. -/
theorem Spared.refl (s : Slot) (q : PeerId) (m : Memory) : s.Spared q m m where
  nodename := rfl
  className := rfl
  busy := .inl rfl
  peerId := rfl
  lastResponder := rfl
  ids := .inl ⟨rfl, rfl⟩
  payload _ := rfl

/-- One write after another spares a slot if both do. -/
theorem Spared.trans (h : s.Spared q m n) (h' : s.Spared q n k) : s.Spared q m k where
  nodename := h'.nodename.trans h.nodename
  className := h'.className.trans h.className
  busy := by
    rcases h'.busy with same | idle
    · rw [same]
      exact h.busy
    · exact .inr idle
  peerId := h'.peerId.trans h.peerId
  lastResponder := h'.lastResponder.trans h.lastResponder
  ids := by
    rcases h'.ids with ⟨cid, sid⟩ | stamped
    · rw [cid, sid]
      exact h.ids
    · exact .inr stamped
  payload len := (h'.payload len).trans (h.payload len)

/-- A write elsewhere leaves a slot as it is. -/
theorem Spared.of_sameOutside {lo hi : Nat} (same : Memory.SameOutside lo hi m n)
    (apart : s.limit ≤ lo ∨ hi ≤ s.base) : s.Spared q m n := by
  rw [limit] at apart
  exact
    { nodename := same.bytes_eq (by rw [Name.width]; omega)
      className := same.bytes_eq (by rw [Name.width]; omega)
      busy := .inl (by rw [Slot.busy, Slot.busy, same.word_eq (by omega)])
      peerId := same.word_eq (by omega)
      lastResponder := same.word_eq (by omega)
      ids := .inl ⟨same.word_eq (by omega), same.word_eq (by omega)⟩
      payload := fun len => same.bytes_eq (by omega) }

/-- What is staged in such a slot is as before, or marked consumed. -/
theorem Spared.staged (h : s.Spared q m n) :
    s.staged n = s.staged m ∨ (s.staged n).len = 0 := by
  rcases h.busy with same | idle
  · have area : n.bytes (s.base + 128) s.capacity = m.bytes (s.base + 128) s.capacity := by
      simpa [Slot.payload] using h.payload s.capacity
    refine .inl ?_
    simp only [Slot.staged, same, h.lastResponder, area]
  · exact .inr (congrArg BusyCell.len idle)

/-- Giving up a length leaves the busy cell as it is, or idle. -/
theorem busy_clear (s : Slot) (seen : UInt64) (m : Memory) :
    s.busy (s.clear seen m) = s.busy m ∨ s.busy (s.clear seen m) = .idle := by
  have cleared := congrArg Staged.len (s.staged_clear m seen)
  rw [len_staged] at cleared
  rcases (s.staged m).clear_eq_or seen with kept | ⟨-, idle⟩
  · rw [kept] at cleared
    exact .inl (congrArg BusyCell.mk cleared)
  · rw [idle] at cleared
    exact .inr (congrArg BusyCell.mk cleared)

/-- Giving up a length spares the slot. -/
theorem spared_clear (s : Slot) (q : PeerId) (seen : UInt64) (m : Memory) :
    s.Spared q m (s.clear seen m) := by
  have outside := s.sameOutside_clear m seen
  exact
    { nodename := outside.bytes_eq (by rw [Name.width]; omega)
      className := outside.bytes_eq (by rw [Name.width]; omega)
      busy := s.busy_clear seen m
      peerId := outside.word_eq (by omega)
      lastResponder := outside.word_eq (by omega)
      ids := .inl ⟨outside.word_eq (by omega), outside.word_eq (by omega)⟩
      payload := fun len => outside.bytes_eq (by omega) }

/-- The stamp of a sender spares its slot. -/
theorem spared_stamp (s : Slot) (q : PeerId) (m : Memory) :
    s.Spared q m (s.stamp (firstCid q) subnetWord m) := by
  have outside := s.sameOutside_stamp m (firstCid q) subnetWord
  -- the component id is written last, behind the subnet id
  have last := Memory.sameOutside_storeWord (s.setPeerSid subnetWord m) (s.base + 96) (firstCid q)
  have sid : s.peerSid (s.stamp (firstCid q) subnetWord m) = subnetWord :=
    (last.word_eq (by omega)).trans (Memory.word_storeWord_self m (s.base + 88) subnetWord)
  have cid : s.peerCid (s.stamp (firstCid q) subnetWord m) = firstCid q :=
    Memory.word_storeWord_self (s.setPeerSid subnetWord m) (s.base + 96) (firstCid q)
  exact
    { nodename := outside.bytes_eq (by rw [Name.width]; omega)
      className := outside.bytes_eq (by rw [Name.width]; omega)
      busy := .inl (by rw [Slot.busy, Slot.busy, outside.word_eq (by omega)])
      peerId := outside.word_eq (by omega)
      lastResponder := outside.word_eq (by omega)
      ids := .inr ⟨cid, sid⟩
      payload := fun len => outside.bytes_eq (by omega) }

end Slot

namespace Layout

variable {l : Layout}

/-- Marking a message consumed spares every slot, also the one that it is done in. -/
theorem spared_clear (valid : l.Valid) (q r : PeerId) (seen : UInt64) (m : Memory) :
    (l.slotAt q).Spared q m ((l.slotAt r).clear seen m) := by
  by_cases same : q = r
  · subst same
    exact (l.slotAt q).spared_clear q seen m
  · have apart := slotAt_apart valid same
    have := (l.slotAt r).header_le_limit
    exact .of_sameOutside ((l.slotAt r).sameOutside_clear m seen) (by omega)

/-- So does stamping the ids of the owner. -/
theorem spared_stamp (valid : l.Valid) (q r : PeerId) (m : Memory) :
    (l.slotAt q).Spared q m ((l.slotAt r).stamp (firstCid r) subnetWord m) := by
  by_cases same : q = r
  · subst same
    exact (l.slotAt q).spared_stamp q m
  · have apart := slotAt_apart valid same
    have := (l.slotAt r).header_le_limit
    exact .of_sameOutside ((l.slotAt r).sameOutside_stamp m (firstCid r) subnetWord) (by omega)

end Layout

/-! ### What an endpoint writes -/

namespace Memory

/-- One write of the endpoint of `p` by which it announces nothing. -/
inductive Write (l : Layout) (p : PeerId) (m : Memory) : Memory → Prop
  /-- A message is marked consumed, if it has the length that was seen. -/
  | clear {q : PeerId} (owner : l.HasSlot q.toUInt64) (seen : UInt64) :
      Write l p m ((l.slotAt q).clear seen m)
  /-- The ids of a sender are stamped. -/
  | stamp {q : PeerId} (owner : l.HasSlot q.toUInt64) :
      Write l p m ((l.slotAt q).stamp (firstCid q) subnetWord m)
  /-- The own slot is wiped and labelled. -/
  | occupy (owner : l.HasSlot p.toUInt64) (nodename className : String) :
      Write l p m ((l.slotAt p).occupy p nodename className m)
  /-- The class in the own slot is set. -/
  | rename (owner : l.HasSlot p.toUInt64) (name : String) :
      Write l p m ((l.slotAt p).setClassName name m)

/-- What the endpoint of `p` writes in one operation, with the message that it sends by it: some
    writes that announce nothing, and then perhaps a message is staged and announced in its own
    slot, which is idle by later. -/
inductive Deeds (l : Layout) (p : PeerId) (m : Memory) : Option Sent → Memory → Prop
  | silent {n : Memory} (writes : Relation.ReflTransGen (Write l p) m n) : Deeds l p m none n
  | posted {k : Memory} {s : Sent} {target : UInt64} (owner : l.HasSlot p.toUInt64)
      (writes : Relation.ReflTransGen (Write l p) m k) (origin : s.origin = p)
      (resolved : s.dest.resolve l = .ok target) (nonempty : s.message ≠ [])
      (short : s.message.length < l.maxPayload) (idle : ((l.slotAt p).busy k).IsIdle) :
      Deeds l p m (some s) ((l.slotAt p).post target s.message k)

variable {l : Layout} {p q : PeerId} {m n k : Memory} {sent : Option Sent}

/-- A write that stays within the slot of a peer does not reach the parameters in slot 0. -/
theorem SameOutside.load_eq (valid : l.Valid) (owner : l.HasSlot q.toUInt64) {lo hi : Nat}
    (same : SameOutside lo hi m n) (within : (l.slotAt q).base ≤ lo) :
    Layout.load n = Layout.load m := by
  have behind := Layout.globalsSize_le_base valid owner
  rw [Layout.globalsSize] at behind
  simp only [Layout.load]
  rw [same.word_eq (by omega), same.word_eq (by omega), same.word_eq (by omega),
    same.word_eq (by omega), same.word_eq (by omega)]

/-- The parameters in slot 0 stay. -/
theorem Write.load_eq (valid : l.Valid) (write : Write l p m n) :
    Layout.load n = Layout.load m := by
  cases write with
  | @clear q owner seen =>
    exact ((l.slotAt q).sameOutside_clear m seen).load_eq valid owner (by omega)
  | @stamp q owner =>
    exact ((l.slotAt q).sameOutside_stamp m _ _).load_eq valid owner (by omega)
  | occupy owner nodename className =>
    exact ((l.slotAt p).sameOutside_occupy m p _ _).load_eq valid owner (Nat.le_refl _)
  | rename owner name =>
    exact ((l.slotAt p).sameOutside_setClassName m name).load_eq valid owner (by omega)

/-- The slots of other peers are spared. -/
theorem Write.spared (valid : l.Valid) (other : q ≠ p) (write : Write l p m n) :
    (l.slotAt q).Spared q m n := by
  have apart := Layout.slotAt_apart valid other
  have := (l.slotAt p).header_le_limit
  cases write with
  | @clear r _ seen => exact Layout.spared_clear valid q r seen m
  | @stamp r => exact Layout.spared_stamp valid q r m
  | occupy => exact .of_sameOutside ((l.slotAt p).sameOutside_occupy m p _ _) (by omega)
  | rename _ name => exact .of_sameOutside ((l.slotAt p).sameOutside_setClassName m name) (by omega)

/-- What is staged in the own slot is as before, or nothing is. -/
theorem Write.own (valid : l.Valid) (write : Write l p m n) :
    (l.slotAt p).staged n = (l.slotAt p).staged m ∨ ((l.slotAt p).staged n).len = 0 := by
  cases write with
  | @clear r _ seen => exact (Layout.spared_clear valid p r seen m).staged
  | @stamp r => exact (Layout.spared_stamp valid p r m).staged
  | occupy _ nodename className =>
    rw [Slot.staged_occupy]
    exact .inr rfl
  | rename _ name => exact .inl (Slot.staged_setClassName _ m name)

/-! Chains of writes -/

/-- What a peer may write leaves the layout in slot 0. -/
theorem load_eq_of_writes (valid : l.Valid) (writes : Relation.ReflTransGen (Write l p) m n) :
    Layout.load n = Layout.load m := by
  induction writes with
  | refl => rfl
  | tail _ write ih => exact (write.load_eq valid).trans ih

/-- What a peer may write spares the slots of all others. -/
theorem spared_of_writes (valid : l.Valid) (other : q ≠ p)
    (writes : Relation.ReflTransGen (Write l p) m n) : (l.slotAt q).Spared q m n := by
  induction writes with
  | refl => exact .refl _ q m
  | tail _ write ih => exact ih.trans (write.spared valid other)

/-- What a peer may write without a send leaves its own message, or takes it back. -/
theorem own_of_writes (valid : l.Valid) (writes : Relation.ReflTransGen (Write l p) m n) :
    (l.slotAt p).staged n = (l.slotAt p).staged m ∨ ((l.slotAt p).staged n).len = 0 := by
  induction writes with
  | refl => exact .inl rfl
  | tail _ write ih =>
    rcases write.own valid with same | idle
    · rw [same]
      exact ih
    · exact .inr idle

/-! Whole operations -/

/-- To write nothing is a deed without a message. -/
theorem Deeds.refl (l : Layout) (p : PeerId) (m : Memory) : Deeds l p m none m := .silent .refl

/-- A write is a deed without a message. -/
theorem Write.deeds (write : Write l p m n) : Deeds l p m none n := .silent (.single write)

/-- What announces nothing may come first. -/
theorem Deeds.andThen (first : Deeds l p m none k) (later : Deeds l p k sent n) :
    Deeds l p m sent n := by
  cases first with
  | silent writes =>
    cases later with
    | silent writes' => exact .silent (writes.trans writes')
    | posted owner writes' origin resolved nonempty short idle =>
      exact .posted owner (writes.trans writes') origin resolved nonempty short idle

/-- Deeds leave the layout in slot 0. -/
theorem Deeds.load_eq (valid : l.Valid) (deeds : Deeds l p m sent n) :
    Layout.load n = Layout.load m := by
  cases deeds with
  | silent writes => exact load_eq_of_writes valid writes
  | @posted k s target owner writes _ _ _ short _ =>
    have posted := ((l.slotAt p).sameOutside_post k target short).load_eq valid owner (by omega)
    exact posted.trans (load_eq_of_writes valid writes)

/-- Deeds of a peer spare the slots of all others. -/
theorem Deeds.spared (valid : l.Valid) (other : q ≠ p) (deeds : Deeds l p m sent n) :
    (l.slotAt q).Spared q m n := by
  cases deeds with
  | silent writes => exact spared_of_writes valid other writes
  | @posted k s target owner writes _ _ _ short _ =>
    have apart := Layout.slotAt_apart valid other
    have := (l.slotAt p).header_le_limit
    have posted : (l.slotAt q).Spared q k ((l.slotAt p).post target s.message k) :=
      .of_sameOutside ((l.slotAt p).sameOutside_post k target short) (by omega)
    exact (spared_of_writes valid other writes).trans posted

/-- A message that is sent is what is staged later. -/
theorem Deeds.staged_of_sent {s : Sent} (deeds : Deeds l p m (some s) n) :
    s.origin = p ∧ ((l.slotAt p).staged n).len.toNat = s.message.length ∧
      ((l.slotAt p).staged n).message = s.message := by
  cases deeds with
  | @posted k _ target _ _ origin _ _ short _ =>
    have small := Nat.lt_trans short l.maxPayload_lt
    rw [Slot.staged_post _ _ target short]
    exact ⟨origin, Staged.toNat_len_put small, Staged.message_put small⟩

end Memory

end SharedMailbox
