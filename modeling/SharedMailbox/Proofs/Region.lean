import Mathlib.Data.List.Nodup
import Mathlib.Tactic.SplitIfs
import SharedMailbox.Network

namespace SharedMailbox

/-!
# Slots lie apart

Slots of different peers share no byte, so that what is written into one of them is not seen in
another.

* `Memory.SameOutside`: a write stays within a run of bytes; what is read elsewhere is as before.
* `Layout.mem_peerIds`: the peers that own a slot.
* `Layout.slotAt`, `Layout.slotAt_apart`: the slot of a peer, by its number alone; slots of
  different peers lie apart.
* `Slot.sameOutside_post` and the like: each writer of a slot stays within that slot.
-/

/-! ### Writes stay within their run -/

namespace Memory

/-- The second memory differs from the first at most in the bytes from `lo` up to `hi`. -/
def SameOutside (lo hi : Nat) (m n : Memory) : Prop :=
  ∀ c, c < lo ∨ hi ≤ c → n.byte c = m.byte c

/-- Two changes within one range are a change within it. -/
theorem SameOutside.trans {lo hi : Nat} {m n k : Memory} (h : SameOutside lo hi m n)
    (h' : SameOutside lo hi n k) : SameOutside lo hi m k :=
  fun c hc => (h' c hc).trans (h c hc)

/-- A change within a range is one within every wider range. -/
theorem SameOutside.mono {lo hi lo' hi' : Nat} {m n : Memory} (h : SameOutside lo hi m n)
    (hlo : lo' ≤ lo) (hhi : hi ≤ hi') : SameOutside lo' hi' m n :=
  fun c hc => h c (by omega)

/-- A run of bytes that lies outside is read as before. -/
theorem SameOutside.bytes_eq {lo hi a len : Nat} {m n : Memory} (h : SameOutside lo hi m n)
    (apart : a + len ≤ lo ∨ hi ≤ a) : n.bytes a len = m.bytes a len :=
  bytes_congr fun c _ _ => h c (by omega)

/-- A word that lies outside is read as before. -/
theorem SameOutside.word_eq {lo hi a : Nat} {m n : Memory} (h : SameOutside lo hi m n)
    (apart : a + 8 ≤ lo ∨ hi ≤ a) : n.word a = m.word a := by
  rw [word, word, h.bytes_eq apart]

/-- Storing bytes changes nothing but the bytes that they cover. -/
theorem sameOutside_store (m : Memory) (a : Nat) (bs : List UInt8) :
    SameOutside a (a + bs.length) m (m.store a bs) := by
  intro c hc
  rcases hc with hc | hc
  · exact byte_store_of_lt hc
  · exact byte_store_of_le hc

/-- Storing a word changes nothing but its eight bytes. -/
theorem sameOutside_storeWord (m : Memory) (a : Nat) (w : UInt64) :
    SameOutside a (a + 8) m (m.storeWord a w) := by
  simpa [storeWord] using sameOutside_store m a (Word.encode w)

/-- Clearing a run changes nothing outside it. -/
theorem sameOutside_clear (m : Memory) (a n : Nat) : SameOutside a (a + n) m (m.clear a n) := by
  intro c hc
  rw [byte_clear, if_neg (by omega)]

/-- A run whose front is overwritten. -/
theorem bytes_store_front (m : Memory) (a n : Nat) (bs : List UInt8) (h : bs.length ≤ n) :
    (m.store a bs).bytes a n = bs ++ (m.bytes a n).drop bs.length := by
  apply List.ext_getElem
  · simp; omega
  · intro i hi _
    rw [getElem_bytes, byte_store, if_pos (by omega), Nat.add_sub_cancel_left]
    by_cases front : i < bs.length
    · simp [front]
    · rw [List.getElem?_eq_none (by omega), List.getElem_append_right (by omega)]
      simp [show a + i = a + (bs.length + (i - bs.length)) by omega]

/-- A run of zeros that has just been written. -/
theorem bytes_clear_self (m : Memory) (a n : Nat) :
    (m.clear a n).bytes a n = List.replicate n 0 := by
  apply List.ext_getElem (by simp)
  intro i hi _
  rw [length_bytes] at hi
  rw [getElem_bytes, byte_clear, if_pos (by omega), List.getElem_replicate]

/-- A word of zeros. -/
theorem word_eq_zero {m : Memory} {a : Nat} (h : ∀ c, a ≤ c → c < a + 8 → m.byte c = 0) :
    m.word a = 0 := by
  have zeros : m.bytes a 8 = List.replicate 8 0 := by
    apply List.ext_getElem (by simp)
    intro i hi _
    rw [length_bytes] at hi
    rw [getElem_bytes, h _ (by omega) (by omega), List.getElem_replicate]
  rw [word, zeros]
  rfl

/-- A word within a cleared run is zero. -/
theorem word_clear_of_within {m : Memory} {a n c : Nat} (h : a ≤ c ∧ c + 8 ≤ a + n) :
    (m.clear a n).word c = 0 :=
  word_eq_zero fun d _ _ => by rw [byte_clear, if_pos (by omega)]

end Memory

/-! ### Where slots lie -/

/-- The slot of a peer, whether it has one or not. -/
def Layout.slotAt (l : Layout) (p : PeerId) : Slot := ⟨p.toNat * l.stride.toNat, l.maxPayload⟩

/-- The first byte behind a slot. -/
def Slot.limit (s : Slot) : Nat := s.base + 128 + s.capacity

/-- The header lies within the slot. -/
theorem Slot.header_le_limit (s : Slot) : s.base + 128 ≤ s.limit := Nat.le_add_right _ _

namespace Layout

variable {l : Layout}

/-- What it means that the parameters divide a region, check by check. -/
theorem valid_iff (l : Layout) : l.Valid ↔
    l.headerSize = slotHeaderSize ∧ l.headerSize.toNat + 1 < l.stride.toNat ∧ l.nClients ≠ 0 ∧
      l.nClients < l.coordinator ∧ l.maxPeer ≤ 65535 ∧ l.maxPeer < l.nEvents ∧ l.size? ≠ none := by
  unfold Valid validate
  grind

/-- A stride is the header and the payload area. -/
theorem Valid.stride_eq (h : l.Valid) : l.stride.toNat = 128 + l.maxPayload := by
  obtain ⟨header, room, -⟩ := (valid_iff l).mp h
  have : l.headerSize.toNat = 128 := by rw [header]; rfl
  rw [maxPayload]
  omega

/-- A valid layout leaves room for a message. -/
theorem Valid.maxPayload_pos (h : l.Valid) : 0 < l.maxPayload := by
  obtain ⟨-, room, -⟩ := (valid_iff l).mp h
  rw [maxPayload]
  omega

/-- The size of a payload area is a word. -/
theorem maxPayload_lt (l : Layout) : l.maxPayload < UInt64.size :=
  Nat.lt_of_le_of_lt (Nat.sub_le _ _) l.stride.toNat_lt

/-- Ids of slot owners are at most the highest peer id. -/
theorem HasSlot.le_maxPeer {p : UInt64} (h : l.HasSlot p) : p ≤ l.maxPeer := by
  unfold HasSlot at h
  unfold maxPeer
  simp only [UInt64.le_iff_toNat_le] at *
  rcases h with ⟨_, h⟩ | rfl
  · split <;> omega
  · split <;> omega

/-- A peer that owns a slot has a 16-bit id. -/
theorem HasSlot.toUInt16_toUInt64 (valid : l.Valid) {p : UInt64} (h : l.HasSlot p) :
    p.toUInt16.toUInt64 = p := by
  obtain ⟨-, -, -, -, peers, -⟩ := (valid_iff l).mp valid
  have le := h.le_maxPeer
  apply UInt64.toNat_inj.mp
  simp only [UInt64.le_iff_toNat_le] at le peers
  simp only [UInt16.toNat_toUInt64, UInt64.toNat_toUInt16]
  have : (65535 : UInt64).toNat = 65535 := rfl
  omega

/-- No peer has the number 0, whose slot holds the parameters. -/
theorem HasSlot.pos (valid : l.Valid) {p : UInt64} (h : l.HasSlot p) : 0 < p.toNat := by
  obtain ⟨-, -, clients, above, -⟩ := (valid_iff l).mp valid
  have : (1 : UInt64).toNat = 1 := rfl
  simp only [HasSlot, UInt64.le_iff_toNat_le, UInt64.lt_iff_toNat_lt] at h above
  rcases h with ⟨low, -⟩ | rfl
  · omega
  · omega

/-- The peer ids of a layout are those that own a slot. -/
theorem mem_peerIds (valid : l.Valid) {p : PeerId} : p ∈ l.peerIds ↔ l.HasSlot p.toUInt64 := by
  simp only [peerIds, List.mem_map, List.mem_filter, List.mem_range, decide_eq_true_eq]
  constructor
  · intro h
    obtain ⟨q, ⟨-, owner⟩, rfl⟩ := h
    rwa [owner.toUInt16_toUInt64 valid]
  · intro owner
    have low := owner.pos valid
    have high := owner.le_maxPeer
    rw [UInt64.le_iff_toNat_le] at high
    refine ⟨p.toUInt64, ⟨⟨p.toUInt64.toNat - 1, by omega, ?_⟩, owner⟩, UInt16.toUInt16_toUInt64 p⟩
    rw [Nat.sub_add_cancel low, UInt64.ofNat_toNat]

/-- In a layout that divides a region, the slot of a peer that owns one is where its number says. -/
theorem slot?_of_hasSlot (valid : l.Valid) {p : PeerId} (h : l.HasSlot p.toUInt64) :
    l.slot? p.toUInt64 = some (l.slotAt p) := by
  obtain ⟨-, -, -, -, -, -, fits⟩ := (valid_iff l).mp valid
  have le := h.le_maxPeer
  simp only [UInt64.le_iff_toNat_le, UInt16.toNat_toUInt64] at le
  -- the slots up to the highest peer fit into a region whose size fits a word
  have bound : p.toNat * l.stride.toNat < UInt64.size := by
    unfold size? at fits
    simp only at fits
    split at fits
    next all =>
      exact Nat.lt_of_le_of_lt (Nat.mul_le_mul_right _ (by omega)) all.2
    next => exact absurd rfl fits
  have offset : l.offset? p.toUInt64 = some (p.toNat * l.stride.toNat) := if_pos ⟨h, bound⟩
  rw [slot?, offset]
  rfl

/-- Whoever has a slot to look up owns one. -/
theorem hasSlot_of_slot? {p : UInt64} {s : Slot} (h : l.slot? p = some s) : l.HasSlot p := by
  unfold slot? offset? at h
  split at h
  next both => exact both.1
  next => simp at h

/-- The slot that is looked up is where the layout has it. -/
theorem slot?_eq_some (valid : l.Valid) {p : PeerId} {s : Slot} (h : l.slot? p.toUInt64 = some s) :
    s = l.slotAt p := by
  rw [slot?_of_hasSlot valid (hasSlot_of_slot? h)] at h
  exact (Option.some.inj h).symm

/-- The parameters end before the first slot of a peer. -/
theorem globalsSize_le_base (valid : l.Valid) {p : PeerId} (h : l.HasSlot p.toUInt64) :
    globalsSize ≤ (l.slotAt p).base := by
  have stride := valid.stride_eq
  have low : 1 ≤ p.toNat := h.pos valid
  have := Nat.mul_le_mul_right l.stride.toNat low
  simp only [slotAt, globalsSize]
  omega

/-- Slots of different peers share no byte. -/
theorem slotAt_apart (valid : l.Valid) {p q : PeerId} (ne : p ≠ q) :
    (l.slotAt p).limit ≤ (l.slotAt q).base ∨ (l.slotAt q).limit ≤ (l.slotAt p).base := by
  have stride := valid.stride_eq
  have different : p.toNat ≠ q.toNat := fun same => ne (UInt16.toNat_inj.mp same)
  simp only [Slot.limit, slotAt]
  -- slots are one stride long, and the numbers differ by one at least
  rcases Nat.lt_or_gt_of_ne different with lt | lt
  · have := Nat.mul_le_mul_right l.stride.toNat (Nat.succ_le_of_lt lt)
    rw [Nat.succ_mul] at this
    omega
  · have := Nat.mul_le_mul_right l.stride.toNat (Nat.succ_le_of_lt lt)
    rw [Nat.succ_mul] at this
    omega

end Layout

/-! ### Writers stay within their slot -/

namespace Slot

variable (s : Slot) (m : Memory)

/-- Stage a message for a target and announce its length. -/
def post (target : UInt64) (message : List UInt8) (m : Memory) : Memory :=
  s.publish (UInt64.ofNat message.length) (s.setLastResponder target (s.stage message m))

/-- Stamp the ids of the owner. -/
def stamp (cid sid : UInt64) (m : Memory) : Memory := s.setPeerCid cid (s.setPeerSid sid m)

/-- Wipe and label the slot for a new owner. -/
def occupy (peer : PeerId) (nodename className : String) (m : Memory) : Memory :=
  s.setClassName className (s.setNodename nodename (s.wipe peer m))

/-- Staging a message that fits writes to the payload area only. -/
theorem sameOutside_stage {message : List UInt8} (fits : message.length < s.capacity) :
    Memory.SameOutside (s.base + 128) s.limit m (s.stage message m) := by
  refine (Memory.sameOutside_store _ _ _).mono (Nat.le_refl _) ?_
  simp only [List.length_append, List.length_singleton, limit]
  omega

/-- Posting a message that fits leaves the names alone. -/
theorem sameOutside_post (target : UInt64) {message : List UInt8}
    (fits : message.length < s.capacity) :
    Memory.SameOutside (s.base + 64) s.limit m (s.post target message m) := by
  have within := s.header_le_limit
  -- the message, its destination and its length, one write after the other
  have staged := (s.sameOutside_stage m fits).mono (show s.base + 64 ≤ _ by omega) (Nat.le_refl _)
  have addressed : Memory.SameOutside (s.base + 64) s.limit (s.stage message m)
      (s.setLastResponder target (s.stage message m)) :=
    (Memory.sameOutside_storeWord _ _ _).mono (by omega) (by omega)
  have published : Memory.SameOutside (s.base + 64) s.limit
      (s.setLastResponder target (s.stage message m)) (s.post target message m) :=
    (Memory.sameOutside_storeWord _ _ _).mono (by omega) (by omega)
  exact (staged.trans addressed).trans published

/-- Giving a message up writes the length word only. -/
theorem sameOutside_clear (seen : UInt64) :
    Memory.SameOutside (s.base + 64) (s.base + 72) m (s.clear seen m) := by
  unfold clear
  split
  · exact Memory.sameOutside_storeWord _ _ _
  · exact fun _ _ => rfl

/-- A stamp writes the component id and the subnet id only. -/
theorem sameOutside_stamp (cid sid : UInt64) :
    Memory.SameOutside (s.base + 88) (s.base + 104) m (s.stamp cid sid m) := by
  refine Memory.SameOutside.trans (n := s.setPeerSid sid m) ?_ ?_
  · exact (Memory.sameOutside_storeWord _ _ _).mono (by omega) (by omega)
  · exact (Memory.sameOutside_storeWord _ _ _).mono (by omega) (by omega)

/-- Setting the node name writes its field only. -/
theorem sameOutside_setNodename (name : String) :
    Memory.SameOutside s.base (s.base + 32) m (s.setNodename name m) := by
  have h := Memory.sameOutside_store m s.base (Name.toField name)
  rwa [Name.length_toField] at h

/-- Setting the class writes its field only. -/
theorem sameOutside_setClassName (name : String) :
    Memory.SameOutside (s.base + 32) (s.base + 64) m (s.setClassName name m) := by
  have h := Memory.sameOutside_store m (s.base + 32) (Name.toField name)
  rwa [Name.length_toField] at h

/-- Reading back a node name. -/
theorem nodenameField_setNodename (name : String) :
    s.nodenameField (s.setNodename name m) = Name.toField name := by
  rw [nodenameField, setNodename, ← Name.length_toField name, Memory.bytes_store_self]

/-- Reading back a class. -/
theorem classField_setClassName (name : String) :
    s.classField (s.setClassName name m) = Name.toField name := by
  rw [classField, setClassName, ← Name.length_toField name, Memory.bytes_store_self]

/-- A slot is wiped within its bounds. -/
theorem sameOutside_wipe (peer : PeerId) : Memory.SameOutside s.base s.limit m (s.wipe peer m) := by
  have within := s.header_le_limit
  have header : Memory.SameOutside s.base s.limit m (m.clear s.base 104) :=
    (Memory.sameOutside_clear _ _ _).mono (Nat.le_refl _) (by omega)
  have stamped : Memory.SameOutside s.base s.limit (m.clear s.base 104)
      ((m.clear s.base 104).storeWord (s.base + 72) peer.toUInt64) :=
    (Memory.sameOutside_storeWord _ _ _).mono (by omega) (by omega)
  have emptied : Memory.SameOutside s.base s.limit
      ((m.clear s.base 104).storeWord (s.base + 72) peer.toUInt64) (s.wipe peer m) :=
    (Memory.sameOutside_clear _ _ _).mono (by omega) (Nat.le_refl _)
  exact (header.trans stamped).trans emptied

/-- A slot is claimed within its bounds. -/
theorem sameOutside_occupy (peer : PeerId) (nodename className : String) :
    Memory.SameOutside s.base s.limit m (s.occupy peer nodename className m) := by
  have within := s.header_le_limit
  have named := (s.sameOutside_setNodename (s.wipe peer m) nodename).mono (Nat.le_refl _)
    (show _ ≤ s.limit by omega)
  have labelled := (s.sameOutside_setClassName (s.setNodename nodename (s.wipe peer m))
    className).mono (show s.base ≤ _ by omega) (show _ ≤ s.limit by omega)
  exact ((s.sameOutside_wipe m peer).trans named).trans labelled

end Slot

end SharedMailbox
