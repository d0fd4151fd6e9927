import SharedMailbox.Proofs.Partition

namespace SharedMailbox

/-!
# Where the words of a header lie

The words of a slot's header are read and written as words, for which their addresses have to be
multiples of eight. A region starts at such an address, and the words stand at such places of the
header, so that all depends on where the slot starts: on the stride and the number of its peer.

* `Slot.wordOffsets`: the places of the words in a header.
* `Layout.dvd_offset_iff`: which peers have a slot that starts at a multiple of eight.
* `Layout.aligns_of_valid`: that all of them have one is for the stride to say. A layout can be
  valid and its stride no multiple of eight.
-/

/-- Where the words of a header stand in it: the staged length, the id of the peer, the last
    responder, and the subnet id and the component id of the stamp. -/
def Slot.wordOffsets : List Nat := [64, 72, 80, 88, 96]

/-- The words of a header stand at multiples of eight bytes. -/
theorem Slot.dvd_wordOffset {k : Nat} (word : k ∈ wordOffsets) : 8 ∣ k := by
  simp only [wordOffsets, List.mem_cons, List.not_mem_nil, or_false] at word
  omega

namespace Layout

variable {l : Layout} {p : UInt64} {base : Nat}

/-- A number makes a multiple of `k` out of another if it has the factors that the other lacks. -/
theorem dvd_mul_iff_div_gcd_dvd {k n m : Nat} (pos : 0 < k) :
    k ∣ n * m ↔ k / Nat.gcd k m ∣ n := by
  have gcd_pos : 0 < Nat.gcd k m := Nat.gcd_pos_of_pos_left m pos
  calc k ∣ n * m
      ↔ k ∣ n * Nat.gcd k m := Nat.dvd_mul_gcd_iff_dvd_mul.symm
    _ ↔ k / Nat.gcd k m ∣ n := by
      rw [Nat.div_dvd_iff_dvd_mul (Nat.gcd_dvd_left k m) gcd_pos, Nat.mul_comm]

/-- A slot starts at a multiple of eight if the number of its peer has the factors of eight that
    the stride lacks. -/
theorem dvd_offset_iff (found : l.offset? p = some base) :
    8 ∣ base ↔ 8 / Nat.gcd 8 l.stride.toNat ∣ p.toNat := by
  obtain ⟨-, rfl, -⟩ := offset?_eq_some_iff.mp found
  exact dvd_mul_iff_div_gcd_dvd (by decide)

/-- The slot of the first client starts one stride into the region. -/
theorem Valid.offset?_one (valid : l.Valid) : l.offset? 1 = some l.stride.toNat := by
  obtain ⟨clients, -⟩ := valid.numbers
  have owner : l.HasSlot 1 := .inl ⟨UInt64.le_refl 1, UInt64.le_iff_toNat_le.mpr clients⟩
  rw [offset?_of_hasSlot valid owner]
  exact congrArg some (Nat.one_mul _)

/-- Where the slots of a layout start, and where that puts the words of their headers. -/
structure Aligns (l : Layout) : Prop where
  /-- Every slot starts at a multiple of eight exactly if the stride is one. -/
  all : (∀ p base, l.offset? p = some base → 8 ∣ base) ↔ 8 ∣ l.stride.toNat
  /-- If it is none, the number of the peer decides. -/
  each : ∀ p base, l.offset? p = some base →
    (8 ∣ base ↔ 8 / Nat.gcd 8 l.stride.toNat ∣ p.toNat)
  /-- In a region that starts at a multiple of eight, a word of a header lies at one exactly if the
      slot starts at one. -/
  words : ∀ region p base, 8 ∣ region → l.offset? p = some base →
    ∀ k ∈ Slot.wordOffsets, 8 ∣ region + base + k ↔ 8 ∣ base

/-- **Alignment.** In a valid layout the words of all headers lie at multiples of eight exactly if
    the stride is one; otherwise those of the peers that `Aligns.each` names. -/
theorem aligns_of_valid (valid : l.Valid) : l.Aligns where
  all := by
    constructor
    · intro every
      exact every 1 _ valid.offset?_one
    · intro stride p base found
      obtain ⟨-, rfl, -⟩ := offset?_eq_some_iff.mp found
      exact Nat.dvd_mul_left_of_dvd stride _
  each _ _ := dvd_offset_iff
  words region p base start _ k word := by
    have place := Slot.dvd_wordOffset word
    omega

/-- Slots of 136 bytes. -/
theorem aligns_of_valid_wide : (conventional 136 4).Aligns := aligns_of_valid rfl

/-- Slots of 130 bytes, of which every fourth starts at a multiple of eight and the first does
    not. -/
theorem not_aligned_narrow : (conventional 130 4).Valid ∧
    (conventional 130 4).offset? 1 = some 130 ∧ ¬ 8 ∣ 130 :=
  ⟨rfl, rfl, by decide⟩

end Layout

end SharedMailbox
