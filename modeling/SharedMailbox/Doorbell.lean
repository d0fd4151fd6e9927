import SharedMailbox.Error

namespace SharedMailbox

/-!
# Doorbells and vectors

A ring names its origin and its destination in one 32-bit register word. The destination has a
table with one interrupt vector for each possible origin.

* `DoorbellWord`: the register word.
* `VectorTable`: which vector an origin raises, and which origin is behind a vector.
-/

/-! ### The register word -/

/-- One write to the doorbell register: the origin in the upper 16 bits, the destination in the
    lower 16. -/
structure DoorbellWord where
  raw : UInt32
  deriving DecidableEq, Repr

namespace DoorbellWord

/-- The word for a ring. -/
def new (origin dest : PeerId) : DoorbellWord :=
  ⟨UInt32.ofNat (origin.toNat * 65536 + dest.toNat)⟩

/-- Who rings. -/
def origin (w : DoorbellWord) : PeerId := UInt16.ofNat (w.raw.toNat / 65536)

/-- Who is rung. -/
def dest (w : DoorbellWord) : PeerId := UInt16.ofNat (w.raw.toNat % 65536)

/-- The raw word holds the origin in its high half and the destination in its low half. -/
theorem toNat_raw_new (origin dest : PeerId) :
    (new origin dest).raw.toNat = origin.toNat * 65536 + dest.toNat := by
  have := origin.toNat_lt
  have := dest.toNat_lt
  rw [new, UInt32.toNat_ofNat', Nat.mod_eq_of_lt (by omega)]

/-- The origin of a ring is read back from its word. -/
@[simp] theorem origin_new (o d : PeerId) : (new o d).origin = o := by
  have := d.toNat_lt
  have : (o.toNat * 65536 + d.toNat) / 65536 = o.toNat := by omega
  rw [origin, toNat_raw_new, this, UInt16.ofNat_toNat]

/-- The destination of a ring is read back from its word. -/
@[simp] theorem dest_new (o d : PeerId) : (new o d).dest = d := by
  have := d.toNat_lt
  have : (o.toNat * 65536 + d.toNat) % 65536 = d.toNat := by omega
  rw [dest, toNat_raw_new, this, UInt16.ofNat_toNat]

end DoorbellWord

/-! ### Vector tables -/

/-- The vectors of an endpoint, by origin: a consecutive run, kept by its ends, or a list. -/
inductive VectorTable where
  | run (first : UInt32) (count : Nat)
  | list (vectors : List UInt32)
  deriving DecidableEq, Repr

namespace VectorTable

/-- A run of vectors from `first` on, `none` if it does not fit in 32 bits. -/
def sequential (count : UInt64) (first : UInt32) : Option VectorTable :=
  if count.toNat < UInt32.size ∧ first.toNat + count.toNat ≤ UInt32.size then
    some (.run first count.toNat)
  else none

/-- Number of entries. -/
def size : VectorTable → Nat
  | run _ count => count
  | list vectors => vectors.length

/-- The vector at an index. -/
def get? : VectorTable → Nat → Option UInt32
  | run first count, i => if i < count then some (UInt32.ofNat (first.toNat + i)) else none
  | list vectors, i => vectors[i]?

/-- The first index that holds a vector. -/
def indexOf? : VectorTable → UInt32 → Option Nat
  -- the vectors of a run differ, so that a vector tells its index
  | run first count, v =>
    if first ≤ v ∧ v.toNat - first.toNat < count then some (v.toNat - first.toNat) else none
  | list vectors, v => vectors.findIdx? (· == v)

/-- The vector that rings from an origin raise. -/
def vectorFor (t : VectorTable) (origin : PeerId) : Option UInt32 := t.get? origin.toNat

/-- The origin behind a vector: the first index that holds it, if that is a peer id. -/
def peerFor (t : VectorTable) (vector : UInt32) : Option PeerId :=
  match t.indexOf? vector with
  | some i => if i < 65536 then some (UInt16.ofNat i) else none
  | none => none

end VectorTable

end SharedMailbox
