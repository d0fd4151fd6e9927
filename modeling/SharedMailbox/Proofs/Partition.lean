import SharedMailbox.Proofs.Region

namespace SharedMailbox

/-!
# Layouts divide their regions

In a layout that divides its region every peer has one slot, and the slots share no byte with each
other or with the parameters.

* `Layout.peerIds_eq`: the clients from 1 on, and the coordinator last.
* `Layout.size_eq`, `Layout.offset?_of_hasSlot`: sizes and offsets are exact products.
* `Layout.Divides`: what is needed of a layout before any slot is touched.
* `Layout.divides_of_valid`: every layout that is valid has it; and no layout whatever has an offset
  that is not the exact product.
-/

namespace Layout

variable {l : Layout} {p q : UInt64} {base : Nat}

/-! ### The numbers of a valid layout -/

/-- There is a client, the coordinator has a higher number than any of them and fits into 16 bits,
    and there are more events than that. -/
theorem Valid.numbers (valid : l.Valid) : 1 ≤ l.nClients.toNat ∧
    l.nClients.toNat < l.coordinator.toNat ∧ l.coordinator.toNat ≤ 65535 ∧
      l.coordinator.toNat < l.nEvents.toNat := by
  obtain ⟨-, -, clients, above, small, events, -⟩ := (valid_iff l).mp valid
  have some : l.nClients.toNat ≠ 0 := fun none => clients (UInt64.toNat_inj.mp none)
  rw [maxPeer, if_neg (UInt64.not_le.mpr above)] at small events
  rw [UInt64.lt_iff_toNat_lt] at above events
  exact ⟨by omega, above, UInt64.le_iff_toNat_le.mp small, events⟩

/-- The coordinator has the highest number. -/
theorem Valid.maxPeer_eq (valid : l.Valid) : l.maxPeer = l.coordinator := by
  obtain ⟨-, above, -⟩ := valid.numbers
  exact if_neg fun le => by rw [UInt64.le_iff_toNat_le] at le; omega

/-- There is an event for whoever owns a slot. -/
theorem HasSlot.toNat_lt_nEvents (owner : l.HasSlot p) (valid : l.Valid) :
    p.toNat < l.nEvents.toNat := by
  obtain ⟨-, -, -, events⟩ := valid.numbers
  have low := UInt64.le_iff_toNat_le.mp owner.le_maxPeer
  rw [valid.maxPeer_eq] at low
  exact Nat.lt_of_le_of_lt low events

/-- The owners of slots are the clients and the coordinator. -/
theorem hasSlot_iff : l.HasSlot p ↔
    (1 ≤ p.toNat ∧ p.toNat ≤ l.nClients.toNat) ∨ p.toNat = l.coordinator.toNat := by
  rw [HasSlot, UInt64.le_iff_toNat_le, UInt64.le_iff_toNat_le, ← UInt64.toNat_inj]
  rfl

/-- Neither the slot of the parameters nor one between the clients and the coordinator is owned. -/
theorem not_hasSlot_of_gap (valid : l.Valid)
    (gap : p = 0 ∨ l.nClients < p ∧ p < l.coordinator) : ¬ l.HasSlot p := by
  obtain ⟨clients, above, -⟩ := valid.numbers
  rw [hasSlot_iff]
  rcases gap with rfl | ⟨low, high⟩
  · have : (0 : UInt64).toNat = 0 := rfl
    omega
  · rw [UInt64.lt_iff_toNat_lt] at low high
    omega

/-! ### The list of the peers -/

/-- The numbers up to the coordinator fit a word. -/
theorem Valid.toNat_ofNat (valid : l.Valid) {i : Nat} (lt : i < l.coordinator.toNat) :
    (UInt64.ofNat (i + 1)).toNat = i + 1 := by
  obtain ⟨-, -, small, -⟩ := valid.numbers
  rw [UInt64.toNat_ofNat', Nat.mod_eq_of_lt (by omega)]

/-- Of the numbers up to the coordinator, those of the clients own a slot, and its own. -/
theorem hasSlot_ofNat_iff (valid : l.Valid) {i : Nat} (lt : i < l.coordinator.toNat) :
    l.HasSlot (UInt64.ofNat (i + 1)) ↔
      i < l.nClients.toNat ∨ i + 1 = l.coordinator.toNat := by
  rw [hasSlot_iff, valid.toNat_ofNat lt]
  omega

/-- The peers are the clients from 1 on, and the coordinator. -/
theorem peerIds_eq (valid : l.Valid) : l.peerIds =
    ((List.range l.nClients.toNat).map fun i => UInt16.ofNat (i + 1)) ++
      [l.coordinator.toUInt16] := by
  obtain ⟨clients, above, -⟩ := valid.numbers
  -- the numbers up to the coordinator: the clients, those between, and the coordinator itself
  obtain ⟨gap, top⟩ : ∃ gap, l.coordinator.toNat = l.nClients.toNat + gap + 1 :=
    ⟨l.coordinator.toNat - l.nClients.toNat - 1, by omega⟩
  have first : ((List.range l.nClients.toNat).map fun i => UInt64.ofNat (i + 1)).filter
      (fun p => decide (l.HasSlot p)) =
        (List.range l.nClients.toNat).map fun i => UInt64.ofNat (i + 1) := by
    rw [List.filter_eq_self, List.forall_mem_map]
    intro i hi
    have lt := List.mem_range.mp hi
    exact decide_eq_true ((hasSlot_ofNat_iff valid (by omega)).mpr (.inl lt))
  have between : ((List.range gap).map fun i => UInt64.ofNat (l.nClients.toNat + i + 1)).filter
      (fun p => decide (l.HasSlot p)) = [] := by
    rw [List.filter_eq_nil_iff, List.forall_mem_map]
    intro i hi
    have lt := List.mem_range.mp hi
    rw [decide_eq_true_eq, hasSlot_ofNat_iff valid (by omega)]
    omega
  have last : UInt64.ofNat (l.nClients.toNat + gap + 1) = l.coordinator := by
    rw [← top, UInt64.ofNat_toNat]
  have owned : l.HasSlot l.coordinator := .inr rfl
  rw [peerIds, valid.maxPeer_eq, top, List.range_succ, List.range_add, List.map_append,
    List.map_append, List.filter_append, List.filter_append, first, List.map_map]
  simp only [Function.comp_def, between, List.map_cons, List.map_nil, last, List.append_nil]
  rw [List.filter_cons_of_pos (by simpa using owned), List.filter_nil, List.map_append,
    List.map_map]
  simp [Function.comp_def]

/-- They are listed from the lowest to the highest. -/
theorem pairwise_peerIds (valid : l.Valid) : l.peerIds.Pairwise (· < ·) := by
  obtain ⟨clients, above, small, -⟩ := valid.numbers
  -- ids of clients start at one, and none of them wraps
  have value : ∀ i, i < l.nClients.toNat → (UInt16.ofNat (i + 1)).toNat = i + 1 := by
    intro i lt
    rw [UInt16.toNat_ofNat', Nat.mod_eq_of_lt (by omega)]
  rw [peerIds_eq valid, List.pairwise_append]
  refine ⟨?_, List.pairwise_singleton _ _, ?_⟩
  · rw [List.pairwise_map, List.pairwise_iff_getElem]
    intro i j hi hj lt
    rw [List.length_range] at hi hj
    rw [List.getElem_range, List.getElem_range, UInt16.lt_iff_toNat_lt, value i hi, value j hj]
    omega
  · intro p hp q hq
    obtain ⟨i, hi, rfl⟩ := List.mem_map.mp hp
    have lt := List.mem_range.mp hi
    rw [List.mem_singleton.mp hq, UInt16.lt_iff_toNat_lt, value i lt, UInt64.toNat_toUInt16]
    omega

/-! ### Offsets and sizes -/

/-- An offset that there is belongs to an owner of a slot and is the product of number and stride,
    which a word holds. -/
theorem offset?_eq_some_iff : l.offset? p = some base ↔
    l.HasSlot p ∧ base = p.toNat * l.stride.toNat ∧ base < UInt64.size := by
  unfold offset?
  split
  next both =>
    rw [Option.some.injEq]
    exact ⟨fun same => ⟨both.1, same.symm, same ▸ both.2⟩, fun h => h.2.1.symm⟩
  next none =>
    refine ⟨fun h => absurd h (by simp), fun ⟨owner, product, fits⟩ => ?_⟩
    exact absurd ⟨owner, product ▸ fits⟩ none

/-- The region holds the slots up to the highest one, and its size fits a word. -/
theorem size_eq (valid : l.Valid) : l.size = (l.maxPeer.toNat + 1) * l.stride.toNat ∧
    l.size < UInt64.size := by
  obtain ⟨-, -, -, -, -, -, fits⟩ := (valid_iff l).mp valid
  unfold size? at fits
  simp only at fits
  split at fits
  next all =>
    have exact : l.size = (l.maxPeer.toNat + 1) * l.stride.toNat := by
      simp only [size, size?]
      rw [if_pos all, Option.getD_some]
    exact ⟨exact, exact ▸ all.2⟩
  next => exact absurd rfl fits

/-- In a valid layout every owner of a slot has an offset. -/
theorem offset?_of_hasSlot (valid : l.Valid) (owner : l.HasSlot p) :
    l.offset? p = some (p.toNat * l.stride.toNat) := by
  obtain ⟨exact, fits⟩ := size_eq valid
  have le : p.toNat ≤ l.maxPeer.toNat + 1 :=
    Nat.le_succ_of_le (UInt64.le_iff_toNat_le.mp owner.le_maxPeer)
  have below := Nat.mul_le_mul_right l.stride.toNat le
  exact offset?_eq_some_iff.mpr ⟨owner, rfl, by omega⟩

/-- Every slot that is owned ends within the region. -/
theorem limit_le_size (valid : l.Valid) {peer : PeerId} (owner : l.HasSlot peer.toUInt64) :
    (l.slotAt peer).limit ≤ l.size := by
  have stride := valid.stride_eq
  -- the highest slot is the last one of the region
  have le : peer.toNat + 1 ≤ l.maxPeer.toNat + 1 :=
    Nat.succ_le_succ (UInt64.le_iff_toNat_le.mp owner.le_maxPeer)
  have below := Nat.mul_le_mul_right l.stride.toNat le
  rw [Nat.succ_mul] at below
  rw [(size_eq valid).1, Slot.limit, slotAt]
  simp only
  omega

/-- In a valid layout the owners of slots are those with an offset. -/
theorem offset?_ne_none_iff (valid : l.Valid) : l.offset? q ≠ none ↔ l.HasSlot q := by
  refine ⟨fun some => ?_, fun owner => by simp [offset?_of_hasSlot valid owner]⟩
  obtain ⟨base, found⟩ := Option.ne_none_iff_exists'.mp some
  exact (offset?_eq_some_iff.mp found).1

/-- A peer without an offset has no slot, and the error names it. -/
theorem slot_of_offset? (none : l.offset? q = none) : l.slot q = .error (outOfRange q) := by
  simp [slot, slot?, none]

/-- An offset is that of the slot of a peer with a 16-bit id. -/
theorem exists_slotAt_of_offset? (valid : l.Valid) (found : l.offset? p = some base) :
    ∃ peer : PeerId, peer.toUInt64 = p ∧ l.HasSlot peer.toUInt64 ∧
      (l.slotAt peer).base = base ∧ (l.slotAt peer).limit = base + 128 + l.maxPayload := by
  obtain ⟨owner, rfl, -⟩ := offset?_eq_some_iff.mp found
  have same := owner.toUInt16_toUInt64 valid
  have number : p.toUInt16.toNat = p.toNat := by rw [← UInt16.toNat_toUInt64, same]
  refine ⟨p.toUInt16, same, by rwa [same], ?_, ?_⟩
  · rw [slotAt, number]
  · rw [Slot.limit, slotAt, number]

/-- A product that fits a word is the product of the words. -/
theorem toNat_mul_of_lt (p w : UInt64) (fits : p.toNat * w.toNat < UInt64.size) :
    (p * w).toNat = p.toNat * w.toNat := by
  rw [UInt64.toNat_mul, Nat.mod_eq_of_lt fits]

/-! ### Dividing a region -/

/-- A layout divides its region. -/
structure Divides (l : Layout) : Prop where
  /-- The peers are listed from the lowest to the highest. -/
  ascending : l.peerIds.Pairwise (· < ·)
  count : l.peerIds.length = l.nClients.toNat + 1
  /-- The peers that are listed are those with an offset, so that all of these have 16-bit ids. -/
  listed : ∀ q, l.offset? q ≠ none ↔ q ∈ l.peerIds.map UInt16.toUInt64
  small : ∀ q, l.offset? q ≠ none → q.toNat < UInt16.size
  /-- No slot is owned between the clients and the coordinator, nor is slot 0. -/
  gaps : ∀ q, q = 0 ∨ l.nClients < q ∧ q < l.coordinator →
    l.slot q = .error (outOfRange q)
  offset : ∀ p ∈ l.peerIds, l.offset? p.toUInt64 = some (p.toNat * l.stride.toNat)
  /-- Slots of different peers share no byte. -/
  apart : ∀ p q b c, p ≠ q → l.offset? p = some b → l.offset? q = some c →
    b + 128 + l.maxPayload ≤ c ∨ c + 128 + l.maxPayload ≤ b
  /-- All slots lie between the parameters and the end of the region. -/
  within : ∀ p b, l.offset? p = some b →
    globalsSize ≤ b ∧ b + 128 + l.maxPayload ≤ l.size
  /-- The size is exact, in numbers and in words. -/
  size : l.size = (l.maxPeer.toNat + 1) * l.stride.toNat ∧
    ((l.maxPeer + 1) * l.stride).toNat = l.size

/-- A valid layout divides the region: its slots are disjoint, lie behind the globals, and end
    within it. -/
theorem Valid.divides (valid : l.Valid) : l.Divides where
  ascending := pairwise_peerIds valid
  count := by simp [peerIds_eq valid]
  listed q := by
    rw [offset?_ne_none_iff valid, List.mem_map]
    constructor
    · intro owner
      have same := owner.toUInt16_toUInt64 valid
      exact ⟨q.toUInt16, (mem_peerIds valid).mpr (by rwa [same]), same⟩
    · rintro ⟨p, listed, rfl⟩
      exact (mem_peerIds valid).mp listed
  small q some := by
    obtain ⟨-, above, wide, -⟩ := valid.numbers
    have owner := hasSlot_iff.mp ((offset?_ne_none_iff valid).mp some)
    have small : q.toNat ≤ 65535 := by omega
    exact Nat.lt_of_le_of_lt small (by decide)
  gaps q gap := by
    refine slot_of_offset? ?_
    by_contra some
    exact not_hasSlot_of_gap valid gap ((offset?_ne_none_iff valid).mp some)
  offset p listed := offset?_of_hasSlot valid ((mem_peerIds valid).mp listed)
  apart p q b c ne hp hq := by
    obtain ⟨p, rfl, -, base, limit⟩ := exists_slotAt_of_offset? valid hp
    obtain ⟨q, rfl, -, base', limit'⟩ := exists_slotAt_of_offset? valid hq
    have different : p ≠ q := fun same => ne (congrArg UInt16.toUInt64 same)
    have apart := slotAt_apart valid different
    rwa [base, base', limit, limit'] at apart
  within p b hp := by
    obtain ⟨peer, rfl, owner, base, limit⟩ := exists_slotAt_of_offset? valid hp
    exact ⟨base ▸ globalsSize_le_base valid owner, limit ▸ limit_le_size valid owner⟩
  size := by
    obtain ⟨exact, fits⟩ := size_eq valid
    obtain ⟨-, -, wide, -⟩ := valid.numbers
    have next : (l.maxPeer + 1).toNat = l.maxPeer.toNat + 1 := by
      rw [UInt64.toNat_add, valid.maxPeer_eq]
      have : (1 : UInt64).toNat = 1 := rfl
      omega
    refine ⟨exact, ?_⟩
    rw [toNat_mul_of_lt _ _ (by rw [next]; omega), next, exact]

/-- **Layouts.** A layout that is valid divides its region. Valid or not, an offset is the exact
    product, as a number and as a word, or there is none and the slot is refused. -/
theorem divides_of_valid (l : Layout) : (l.Valid → l.Divides) ∧ ∀ q,
    (l.offset? q = none ∧ l.slot q = .error (outOfRange q)) ∨
      (l.offset? q = some (q.toNat * l.stride.toNat) ∧
        (q * l.stride).toNat = q.toNat * l.stride.toNat) := by
  refine ⟨Valid.divides, fun q => ?_⟩
  rcases found : l.offset? q with _ | base
  · exact .inl ⟨rfl, slot_of_offset? found⟩
  · obtain ⟨-, rfl, fits⟩ := offset?_eq_some_iff.mp found
    exact .inr ⟨rfl, toNat_mul_of_lt q l.stride fits⟩

/-- Three clients and the highest number for the coordinator, with slots so long that the size of
    the region just fits a word. -/
theorem divides_of_valid_sparse : (⟨281474976710655, 128, 3, 65536, 65535⟩ : Layout).Divides :=
  (divides_of_valid _).1 rfl

end Layout

end SharedMailbox
