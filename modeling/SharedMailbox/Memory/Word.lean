/-!
# Little-endian words

A 64-bit word is kept as eight bytes, the least significant first.

* `toBytes width value`: the `width` low base-256 digits of a number.
* `ofBytes`: the number that a list of base-256 digits stands for.
* `encode`, `decode`: the same for a 64-bit word.

Shown: each is the inverse of the other (`ofBytes_toBytes`, `toBytes_ofBytes`, `decode_encode`).
-/

namespace SharedMailbox.Word

/-! ### Digits of a number -/

/-- The `width` low base-256 digits of `value`, least significant first. -/
def toBytes : (width value : Nat) → List UInt8
  | 0, _ => []
  | width + 1, value => UInt8.ofNat value :: toBytes width (value / 256)

/-- The number whose base-256 digits, least significant first, are the given bytes. -/
def ofBytes : List UInt8 → Nat
  | [] => 0
  | b :: bs => b.toNat + 256 * ofBytes bs

/-- A number is written with as many bytes as asked for. -/
@[simp] theorem length_toBytes (width value : Nat) : (toBytes width value).length = width := by
  induction width generalizing value with
  | zero => rfl
  | succ width ih => simp [toBytes, ih]

/-- Reading the digits back gives the number, as far as the digits reach. -/
theorem ofBytes_toBytes (width value : Nat) :
    ofBytes (toBytes width value) = value % Nat.pow 256 width := by
  rw [Nat.pow_eq]
  induction width generalizing value with
  | zero => simp [toBytes, ofBytes, Nat.mod_one]
  | succ width ih =>
    rw [toBytes, ofBytes, ih, Nat.pow_succ', Nat.mod_mul]
    simp

/-- The digits of what some bytes stand for are those bytes. -/
theorem toBytes_ofBytes (bs : List UInt8) : toBytes bs.length (ofBytes bs) = bs := by
  -- Induction on the digits: the first one is the remainder, the others make up the quotient.
  induction bs with
  | nil => rfl
  | cons b bs ih =>
    have low : UInt8.ofNat (b.toNat + 256 * ofBytes bs) = b := by
      apply UInt8.toNat_inj.mp
      have := b.toNat_lt
      simp only [UInt8.toNat_ofNat']
      omega
    have high : (b.toNat + 256 * ofBytes bs) / 256 = ofBytes bs := by
      have := b.toNat_lt
      omega
    simp [toBytes, ofBytes, low, high, ih]

/-- The bytes of a number stay below the next power of 256. -/
theorem ofBytes_lt (bs : List UInt8) : ofBytes bs < Nat.pow 256 bs.length := by
  rw [Nat.pow_eq]
  induction bs with
  | nil => simp [ofBytes]
  | cons b bs ih =>
    have := b.toNat_lt
    simp only [ofBytes, List.length_cons, Nat.pow_succ]
    omega

/-! ### 64-bit words -/

/-- The eight bytes of a 64-bit word. -/
def encode (word : UInt64) : List UInt8 := toBytes 8 word.toNat

/-- The 64-bit word that the first bytes of a list stand for. -/
def decode (bytes : List UInt8) : UInt64 := UInt64.ofNat (ofBytes bytes)

/-- A word has eight bytes. -/
@[simp] theorem length_encode (word : UInt64) : (encode word).length = 8 := length_toBytes _ _

/-- A word is read back from its bytes. -/
@[simp] theorem decode_encode (word : UInt64) : decode (encode word) = word := by
  apply UInt64.toNat_inj.mp
  have := word.toNat_lt
  rw [decode, encode, ofBytes_toBytes, Nat.pow_eq, UInt64.toNat_ofNat']
  omega

/-- Eight bytes are written back from their word. -/
theorem encode_decode (bytes : List UInt8) (h : bytes.length = 8) :
    encode (decode bytes) = bytes := by
  have bound := ofBytes_lt bytes
  rw [h] at bound
  rw [encode, decode, UInt64.toNat_ofNat', Nat.mod_eq_of_lt (by simpa using bound), ← h]
  exact toBytes_ofBytes bytes

end SharedMailbox.Word
