namespace SharedMailbox.Numeral

/-!
# Numerals

* `decimal`, `signedDecimal`: the decimal text of a number.
* `hexPadded`: the lower-case hexadecimal text of a number, at least two digits wide.
* `digit?`, `value?`: a digit and a numeral in any radix up to sixteen, read from character codes.
* `int32?`: the 32-bit integer with a given value.
-/

/-! ### Writing -/

/-- The decimal text of a natural number, without leading zeros. -/
def decimal (n : Nat) : String := String.ofList (Nat.toDigits 10 n)

/-- The decimal text of an integer; a minus sign marks a negative one. -/
def signedDecimal (n : Int) : String :=
  if n < 0 then "-" ++ decimal n.natAbs else decimal n.natAbs

/-- The lower-case hexadecimal text of a number, filled with a zero to two digits. -/
def hexPadded (n : Nat) : String :=
  if n < 16 then "0" ++ String.ofList (Nat.toDigits 16 n) else String.ofList (Nat.toDigits 16 n)

/-! ### Reading -/

/-- The value of a digit in a radix, `none` for a code that is no digit there. Letters of either
    case stand for the digits from ten on. -/
def digit? (radix code : Nat) : Option Nat :=
  let value :=
    if 48 ≤ code ∧ code ≤ 57 then code - 48
    else if 65 ≤ code ∧ code ≤ 70 then code - 55
    else if 97 ≤ code ∧ code ≤ 102 then code - 87
    -- no digit in any radix
    else 16
  if value < radix ∧ value < 16 then some value else none

/-- The value of a numeral in a radix, read on from a value `n` so far. -/
def valueFrom? (radix : Nat) : Nat → List Nat → Option Nat
  | n, [] => some n
  | n, code :: codes =>
    match digit? radix code with
    | some d => valueFrom? radix (radix * n + d) codes
    | none => none

/-- The value of a numeral in a radix: one or more digits and nothing else. -/
def value? (radix : Nat) (codes : List Nat) : Option Nat :=
  if codes = [] then none else valueFrom? radix 0 codes

/-- The 32-bit integer of this value, `none` outside of its range. -/
def int32? (n : Int) : Option Int32 :=
  if -2147483648 ≤ n ∧ n < 2147483648 then some (Int32.ofInt n) else none

/-- A number under a sign. -/
def signed (negative : Bool) (magnitude : Nat) : Int :=
  if negative then -(magnitude : Int) else magnitude

/-- A number is a signed word of 32 bits iff that word has this value. -/
theorem int32?_eq_some_iff {n : Int} {v : Int32} : int32? n = some v ↔ v.toInt = n := by
  unfold int32?
  constructor
  · intro h
    split at h
    next range =>
      cases h
      exact Int32.toInt_ofInt_of_le range.1 range.2
    · cases h
  · intro h
    have low := v.le_toInt
    have high := v.toInt_lt
    rw [h] at low high
    rw [if_pos ⟨low, high⟩, ← h, Int32.ofInt_toInt]

end SharedMailbox.Numeral
