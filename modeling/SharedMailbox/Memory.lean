import Std.Data.ExtTreeMap
import SharedMailbox.Memory.Word

namespace SharedMailbox

/-!
# Byte memory

The memory that the peers share, as a total map from addresses to bytes of which only the nonzero
ones are kept. Two memories with the same bytes are equal (`Memory.ext`).

* `byte`, `bytes`, `word`: reading one byte, a run of bytes, a little-endian 64-bit word.
* `setByte`, `store`, `storeWord`, `clear`: writing them; `clear` writes zeros.

Each writer has one lemma that says what `byte` reads afterwards; `bytes` and `word` follow it.
-/

/-- A memory of which all but finitely many bytes are zero. -/
structure Memory where
  cells : Std.ExtTreeMap Nat UInt8
  nonzero : ∀ a : Nat, cells[a]? ≠ some 0

namespace Memory

/-- Fresh memory: every byte is zero. -/
def zero : Memory where
  cells := ∅
  nonzero := by simp

instance : Inhabited Memory := ⟨zero⟩

/-! ### Reading -/

/-- The byte at an address. -/
def byte (m : Memory) (a : Nat) : UInt8 := m.cells[a]?.getD 0

/-- The `n` bytes from address `a` on. -/
def bytes (m : Memory) (a n : Nat) : List UInt8 := (List.range n).map fun i => m.byte (a + i)

/-- The little-endian 64-bit word at an address. -/
def word (m : Memory) (a : Nat) : UInt64 := Word.decode (m.bytes a 8)

/-- Fresh memory is zero everywhere. -/
@[simp] theorem byte_zero (a : Nat) : zero.byte a = 0 := by simp [byte, zero]

/-- As many bytes are read as asked for. -/
@[simp] theorem length_bytes (m : Memory) (a n : Nat) : (m.bytes a n).length = n := by
  simp [bytes]

/-- What is read starts at the address that was asked for. -/
@[simp] theorem getElem_bytes (m : Memory) (a n i : Nat) (h : i < (m.bytes a n).length) :
    (m.bytes a n)[i] = m.byte (a + i) := by
  simp [bytes]

/-- A run of bytes depends on the bytes of that run only. -/
theorem bytes_congr {m n : Memory} {a len : Nat}
    (h : ∀ c, a ≤ c → c < a + len → m.byte c = n.byte c) : m.bytes a len = n.bytes a len := by
  apply List.map_congr_left
  intro i hi
  have := List.mem_range.mp hi
  exact h (a + i) (by omega) (by omega)

/-- Memories with the same bytes are the same. -/
@[ext] theorem ext {m n : Memory} (h : ∀ a, m.byte a = n.byte a) : m = n := by
  obtain ⟨left, hleft⟩ := m
  obtain ⟨right, hright⟩ := n
  -- zeros are not kept, so that equal bytes are kept alike or not at all
  congr 1
  apply Std.ExtTreeMap.ext_getElem?
  intro k
  have same := h k
  have noLeft := hleft k
  have noRight := hright k
  simp only [byte] at same
  cases hl : left[k]? <;> cases hr : right[k]? <;> simp_all

/-! ### Writing -/

/-- Write one byte. A zero is not kept. -/
def setByte (m : Memory) (a : Nat) (b : UInt8) : Memory :=
  if h : b = 0 then
    { cells := m.cells.erase a
      nonzero := fun c => by
        rw [Std.ExtTreeMap.getElem?_erase]
        split
        · simp
        · exact m.nonzero c }
  else
    { cells := m.cells.insert a b
      nonzero := fun c => by
        rw [Std.ExtTreeMap.getElem?_insert]
        split
        · simpa using h
        · exact m.nonzero c }

/-- Write a run of bytes from address `a` on. -/
def store (m : Memory) (a : Nat) : List UInt8 → Memory
  | [] => m
  | b :: bs => (m.setByte a b).store (a + 1) bs

/-- Write a 64-bit word, least significant byte first. -/
def storeWord (m : Memory) (a : Nat) (w : UInt64) : Memory := m.store a (Word.encode w)

/-- Drop the bytes kept among the `n` from address `a` on, so that all of these are zero. -/
def dropRun (m : Memory) (a n : Nat) : Memory where
  cells := m.cells.filter fun c _ => !decide (a ≤ c ∧ c < a + n)
  nonzero := fun c => by
    rw [Std.ExtTreeMap.getElem?_filter']
    exact fun h => m.nonzero c (Option.filter_eq_some_iff.mp h).1

/-- Write zeros over the `n` bytes from address `a` on: one by one, or at once where fewer bytes
    than that are kept. -/
def clear (m : Memory) (a n : Nat) : Memory :=
  if n ≤ m.cells.size then m.store a (List.replicate n 0) else m.dropRun a n

/-- One byte is set, and all others stay. -/
theorem byte_setByte (m : Memory) (a : Nat) (b : UInt8) (c : Nat) :
    (m.setByte a b).byte c = if c = a then b else m.byte c := by
  unfold setByte byte
  split
  · rw [Std.ExtTreeMap.getElem?_erase]
    simp only [Nat.compare_eq_eq, eq_comm (a := a)]
    split <;> simp_all
  · rw [Std.ExtTreeMap.getElem?_insert]
    simp only [Nat.compare_eq_eq, eq_comm (a := a)]
    split <;> simp_all

/-- A stored run is read where it was written, and all else is as before. -/
theorem byte_store (m : Memory) (a : Nat) (bs : List UInt8) (c : Nat) :
    (m.store a bs).byte c = if a ≤ c then bs[c - a]?.getD (m.byte c) else m.byte c := by
  induction bs generalizing m a with
  | nil => simp [store]
  | cons b bs ih =>
    rw [store, ih, byte_setByte]
    -- before the run, at its first byte, behind that byte
    rcases Nat.lt_trichotomy c a with h | h | h
    · simp [show ¬ a + 1 ≤ c by omega, show ¬ a ≤ c by omega, show c ≠ a by omega]
    · simp [h, show ¬ a + 1 ≤ a by omega]
    · obtain ⟨k, rfl⟩ : ∃ k, c = a + 1 + k := ⟨c - (a + 1), by omega⟩
      simp [show a ≤ a + 1 + k by omega, show a + 1 + k ≠ a by omega,
        show a + 1 + k - a = k + 1 by omega]

/-- Bytes before what is stored stay. -/
theorem byte_store_of_lt {m : Memory} {a c : Nat} {bs : List UInt8} (h : c < a) :
    (m.store a bs).byte c = m.byte c := by
  simp [byte_store, show ¬ a ≤ c by omega]

/-- Bytes behind what is stored stay. -/
theorem byte_store_of_le {m : Memory} {a c : Nat} {bs : List UInt8} (h : a + bs.length ≤ c) :
    (m.store a bs).byte c = m.byte c := by
  rw [byte_store, List.getElem?_eq_none (by omega)]
  simp

/-- Reading back a stored run. -/
@[simp] theorem bytes_store_self (m : Memory) (a : Nat) (bs : List UInt8) :
    (m.store a bs).bytes a bs.length = bs := by
  apply List.ext_getElem (by simp)
  intro i h h'
  simp [byte_store, h']

/-- A run that a store does not reach is as before. -/
theorem bytes_store_of_disjoint {m : Memory} {a c n : Nat} {bs : List UInt8}
    (h : a + bs.length ≤ c ∨ c + n ≤ a) : (m.store a bs).bytes c n = m.bytes c n := by
  apply bytes_congr
  intro d hc hd
  rcases h with h | h
  · exact byte_store_of_le (by omega)
  · exact byte_store_of_lt (by omega)

/-- Reading back a stored word. -/
@[simp] theorem word_storeWord_self (m : Memory) (a : Nat) (w : UInt64) :
    (m.storeWord a w).word a = w := by
  have h : (m.storeWord a w).bytes a 8 = Word.encode w := by
    simpa [storeWord] using bytes_store_self m a (Word.encode w)
  rw [word, h, Word.decode_encode]

/-- Dropping a run leaves zeros in it, and all other bytes as they were. -/
theorem byte_dropRun (m : Memory) (a n c : Nat) :
    (m.dropRun a n).byte c = if a ≤ c ∧ c < a + n then 0 else m.byte c := by
  unfold dropRun byte
  rw [Std.ExtTreeMap.getElem?_filter']
  split
  next h => cases m.cells[c]? <;> simp [h]
  next h => cases m.cells[c]? <;> simp [Option.filter, h]

/-- Clearing leaves zeros in a run of bytes, and all others as they were. -/
theorem byte_clear (m : Memory) (a n c : Nat) :
    (m.clear a n).byte c = if a ≤ c ∧ c < a + n then 0 else m.byte c := by
  unfold clear
  split
  · rw [byte_store]
    -- a byte of the zeros that were stored, one behind them, or one before them
    by_cases h : a ≤ c
    · by_cases h' : c < a + n
      · simp [h, h', show c - a < n by omega]
      · simp [h, h', show ¬ c - a < n by omega]
    · simp [h]
  · exact byte_dropRun m a n c

end Memory

end SharedMailbox
