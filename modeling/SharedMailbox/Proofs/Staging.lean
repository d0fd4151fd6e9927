import SharedMailbox.Proofs.Region

namespace SharedMailbox

/-!
# Staged messages

What the owner of a slot has put into it for the reader of its message, and what each writer of a
slot makes of it.

* `Staged`: the announced length, the destination of the last send, and the payload area.
* `Staged.put`, `Staged.clear`, `Staged.blank`: a message is staged, marked consumed, wiped.
* `Slot.staged`: the same read from a memory; `staged_post`, `staged_clear` and so on say that the
  writers do to it what these do. `staged_congr`: all other writes leave it alone.
-/

/-- What the owner of a slot has put into it for the reader of its message. -/
structure Staged where
  /-- The announced length, 0 when nothing is staged. -/
  len : UInt64
  /-- Destination of the last send. -/
  dest : UInt64
  /-- The payload area. -/
  area : List UInt8
  deriving DecidableEq

namespace Staged

/-- The message that is announced. -/
def message (s : Staged) : List UInt8 := s.area.take s.len.toNat

/-- A message with its final NUL is put over the front of the area and announced. -/
def put (s : Staged) (target : UInt64) (message : List UInt8) : Staged where
  len := UInt64.ofNat message.length
  dest := target
  area := message ++ 0 :: s.area.drop (message.length + 1)

/-- The message is marked consumed if it has the length that was seen. -/
def clear (s : Staged) (seen : UInt64) : Staged := if s.len = seen then { s with len := 0 } else s

/-- Nothing is staged, and nothing has been since the slot was wiped. -/
def blank (capacity : Nat) : Staged := ⟨0, 0, List.replicate capacity 0⟩

variable {s : Staged} {target seen : UInt64} {message : List UInt8}

/-- The destination of a message that was put is the one it was put for. -/
@[simp] theorem dest_put : (s.put target message).dest = target := rfl

/-- The staged length is that of the message. -/
theorem toNat_len_put (short : message.length < UInt64.size) :
    (s.put target message).len.toNat = message.length := by
  rw [put, UInt64.toNat_ofNat', Nat.mod_eq_of_lt short]

/-- A slot that a message was put into is not idle. -/
theorem len_put_ne_zero (short : message.length < UInt64.size) (some : message ≠ []) :
    (s.put target message).len ≠ 0 := by
  intro zero
  have := @toNat_len_put s target message short
  rw [zero] at this
  exact some (List.length_eq_zero_iff.mp this.symm)

/-- What is put is the message that is announced. -/
theorem message_put (short : message.length < UInt64.size) :
    (s.put target message).message = message := by
  rw [Staged.message, toNat_len_put short, put, List.take_left]

/-- Clearing leaves the destination of the last message. -/
@[simp] theorem dest_clear : (s.clear seen).dest = s.dest := by
  unfold clear
  split <;> rfl

/-- Clearing leaves the bytes of the message. -/
@[simp] theorem area_clear : (s.clear seen).area = s.area := by
  unfold clear
  split <;> rfl

/-- Clearing the length that stands there empties the slot. -/
@[simp] theorem len_clear_self : (s.clear s.len).len = 0 := by simp [clear]

/-- Clearing another length than the one that stands there does nothing. -/
theorem clear_of_ne (h : s.len ≠ seen) : s.clear seen = s := by simp [clear, h]

/-- A cleared slot is empty or as before. -/
theorem clear_eq_or (s : Staged) (seen : UInt64) :
    s.clear seen = s ∨ (s.len = seen ∧ (s.clear seen).len = 0) := by
  by_cases h : s.len = seen
  · exact .inr ⟨h, by simp [clear, h]⟩
  · exact .inl (clear_of_ne h)

end Staged

namespace Slot

variable (s : Slot) (m : Memory)

/-- What is staged in a slot. -/
def staged (m : Memory) : Staged :=
  ⟨(s.busy m).len, s.lastResponder m, m.bytes (s.base + 128) s.capacity⟩

/-- What is staged has the length of the busy cell. -/
@[simp] theorem len_staged : (s.staged m).len = (s.busy m).len := rfl

/-- What is staged is for the last responder. -/
@[simp] theorem dest_staged : (s.staged m).dest = s.lastResponder m := rfl

/-- The payload is read from the area. -/
theorem payload_eq_take (len : Nat) : s.payload m len = (s.staged m).area.take len := by
  apply List.ext_getElem
  · simp [payload, staged]
  · intro i _ _
    simp [payload, staged]

/-- The payload of the announced length is the message. -/
theorem payload_len_staged : s.payload m (s.staged m).len.toNat = (s.staged m).message :=
  s.payload_eq_take m _

variable {m} in
/-- What is staged stays under a write that misses the length, the destination and the area. -/
theorem staged_congr {n : Memory} {lo hi : Nat} (same : Memory.SameOutside lo hi m n)
    (len : hi ≤ s.base + 64 ∨ s.base + 72 ≤ lo) (dest : hi ≤ s.base + 80 ∨ s.base + 88 ≤ lo)
    (area : hi ≤ s.base + 128 ∨ s.limit ≤ lo) : s.staged n = s.staged m := by
  rw [limit] at area
  simp only [staged, busy, lastResponder]
  rw [same.word_eq (by omega), same.word_eq (by omega), same.bytes_eq (by omega)]

variable {m s} in
/-- What is staged in one slot stays under a write into another. -/
theorem staged_of_apart {t : Slot} {n : Memory} {lo hi : Nat}
    (same : Memory.SameOutside lo hi m n) (lower : s.base ≤ lo) (upper : hi ≤ s.limit)
    (apart : s.limit ≤ t.base ∨ t.limit ≤ s.base) : t.staged n = t.staged m := by
  have : t.base + 128 ≤ t.limit := by rw [limit]; omega
  exact t.staged_congr same (by omega) (by omega) (by omega)

/-! ### The writers -/

/-- Posting a message that fits puts it into the slot. -/
theorem staged_post (target : UInt64) {message : List UInt8} (fits : message.length < s.capacity) :
    s.staged (s.post target message m) = (s.staged m).put target message := by
  have area : (s.stage message m).bytes (s.base + 128) s.capacity =
      message ++ 0 :: (m.bytes (s.base + 128) s.capacity).drop (message.length + 1) := by
    rw [stage, Memory.bytes_store_front _ _ _ _ (by simp; omega)]
    simp
  -- the length is written last, and the destination before it: both miss the area
  have published := Memory.sameOutside_storeWord
    (s.setLastResponder target (s.stage message m)) (s.base + 64) (UInt64.ofNat message.length)
  have addressed := Memory.sameOutside_storeWord (s.stage message m) (s.base + 80) target
  simp only [staged, Staged.put, Staged.mk.injEq]
  refine ⟨?_, ?_, ?_⟩
  · exact Memory.word_storeWord_self _ _ _
  · exact (published.word_eq (by omega)).trans (Memory.word_storeWord_self _ _ _)
  · rw [← area]
    exact (published.bytes_eq (by omega)).trans (addressed.bytes_eq (by omega))

/-- Giving a message up clears what is staged. -/
theorem staged_clear (seen : UInt64) : s.staged (s.clear seen m) = (s.staged m).clear seen := by
  by_cases h : (s.busy m).len = seen
  · -- only the length is written, and only if it is the one that was seen
    have cleared : s.clear seen m = m.storeWord (s.base + 64) 0 := by
      simp [clear, BusyCell.compareAndClear, h, setBusy, BusyCell.idle]
    have outside := Memory.sameOutside_storeWord m (s.base + 64) 0
    rw [cleared]
    simp only [staged, Staged.clear, h, if_true, Staged.mk.injEq]
    refine ⟨?_, ?_, ?_⟩
    · exact Memory.word_storeWord_self _ _ _
    · exact outside.word_eq (by omega)
    · exact outside.bytes_eq (by omega)
  · have kept : s.clear seen m = m := by simp [clear, BusyCell.compareAndClear, h]
    rw [kept, Staged.clear_of_ne (by simpa using h)]

/-- A stamp does not concern what is staged. -/
theorem staged_stamp (cid sid : UInt64) : s.staged (s.stamp cid sid m) = s.staged m :=
  s.staged_congr (s.sameOutside_stamp m cid sid) (by omega) (by omega) (by omega)

/-- The class does not concern what is staged. -/
theorem staged_setClassName (name : String) : s.staged (s.setClassName name m) = s.staged m :=
  s.staged_congr (s.sameOutside_setClassName m name) (by omega) (by omega) (by omega)

/-- The node name does not concern what is staged. -/
theorem staged_setNodename (name : String) : s.staged (s.setNodename name m) = s.staged m :=
  s.staged_congr (s.sameOutside_setNodename m name) (by omega) (by omega) (by omega)

/-- Nothing is staged in a wiped slot. -/
theorem staged_wipe (peer : PeerId) : s.staged (s.wipe peer m) = Staged.blank s.capacity := by
  -- neither the peer id nor the payload touches the zeros in the header
  have emptied := Memory.sameOutside_clear
    ((m.clear s.base 104).storeWord (s.base + 72) peer.toUInt64) (s.base + 128) s.capacity
  have stamped := Memory.sameOutside_storeWord (m.clear s.base 104) (s.base + 72) peer.toUInt64
  simp only [staged, Staged.blank, Staged.mk.injEq]
  refine ⟨?_, ?_, ?_⟩
  · exact (emptied.word_eq (by omega)).trans ((stamped.word_eq (by omega)).trans
      (Memory.word_clear_of_within (by omega)))
  · exact (emptied.word_eq (by omega)).trans ((stamped.word_eq (by omega)).trans
      (Memory.word_clear_of_within (by omega)))
  · exact Memory.bytes_clear_self _ _ _

/-- Nothing is staged in a slot that was just claimed. -/
theorem staged_occupy (peer : PeerId) (nodename className : String) :
    s.staged (s.occupy peer nodename className m) = Staged.blank s.capacity := by
  rw [occupy, staged_setClassName, staged_setNodename, staged_wipe]

end Slot

end SharedMailbox
