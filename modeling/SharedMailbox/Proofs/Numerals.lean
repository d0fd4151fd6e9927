import Mathlib.Computability.Language
import Mathlib.Data.Nat.Digits.Defs
import Mathlib.Tactic.Ring
import SharedMailbox.Proofs.Texts

namespace SharedMailbox

/-!
# The language of numerals

What a numeral is, said without reading one: digits in a row, the first of which counts most. And
what a reader makes of it.

* `Numeral.Spells`: a text of digits in a radix, and its value.
* `Numeral.value?_eq_some_iff`: what is read of such a text.
* `Numeral.signed32`: a numeral behind a sign, for an integer of 32 bits.
-/

namespace Numeral

/-! ### Digits -/

/-- The code of a digit: a decimal digit, or a letter of either case from ten to fifteen. -/
def Shows (code d : Nat) : Prop :=
  (d < 10 ∧ code = '0'.toNat + d) ∨
    (10 ≤ d ∧ d < 16 ∧ (code = 'a'.toNat + (d - 10) ∨ code = 'A'.toNat + (d - 10)))

/-- The codes of one or more digits in a radix, the first of which counts most, and their value. -/
def Spells (radix : Nat) (codes : List Nat) (n : Nat) : Prop :=
  codes ≠ [] ∧ ∃ digits, List.Forall₂ Shows codes digits ∧ (∀ d ∈ digits, d < radix) ∧
    n = Nat.ofDigits radix digits.reverse

variable {radix code d n m : Nat} {codes : List Nat}

/-- A code is read as a digit iff it shows one below the radix. -/
theorem digit?_eq_some_iff : digit? radix code = some d ↔ Shows code d ∧ d < radix := by
  have zero : '0'.toNat = 48 := rfl
  have lower : 'a'.toNat = 97 := rfl
  have upper : 'A'.toNat = 65 := rfl
  unfold digit? Shows
  rw [zero, lower, upper, Option.ite_none_right_eq_some, Option.some.injEq]
  split_ifs <;> omega

/-- Digits that follow count on from the value before them. -/
theorem valueFrom?_eq_some_iff : valueFrom? radix m codes = some n ↔
    ∃ digits, List.Forall₂ Shows codes digits ∧ (∀ d ∈ digits, d < radix) ∧
      n = m * radix ^ digits.length + Nat.ofDigits radix digits.reverse := by
  -- Induction on the digits, with the value `m` of those before them generalized.
  induction codes generalizing m with
  | nil => simp [valueFrom?, eq_comm]
  | cons code codes ih =>
    have value : ∀ d digits, (radix * m + d) * radix ^ List.length digits +
          Nat.ofDigits radix digits.reverse =
        m * radix ^ (d :: digits).length + Nat.ofDigits radix (d :: digits).reverse := by
      intro d digits
      rw [List.reverse_cons, Nat.ofDigits_append, Nat.ofDigits_singleton, List.length_reverse,
        List.length_cons]
      ring
    rw [valueFrom?]
    constructor
    · intro read
      split at read
      next d digit =>
        obtain ⟨shows, small⟩ := digit?_eq_some_iff.mp digit
        obtain ⟨digits, all, low, rfl⟩ := ih.mp read
        exact ⟨d :: digits, .cons shows all, List.forall_mem_cons.mpr ⟨small, low⟩, value d digits⟩
      next => cases read
    · rintro ⟨digits, all, low, rfl⟩
      cases all with
      | @cons _ d _ digits shows all =>
        obtain ⟨small, low⟩ := List.forall_mem_cons.mp low
        simp only [digit?_eq_some_iff.mpr ⟨shows, small⟩]
        exact ih.mpr ⟨digits, all, low, (value d digits).symm⟩

/-- A numeral is read if and only if it is one, and with its value. -/
theorem value?_eq_some_iff : value? radix codes = some n ↔ Spells radix codes n := by
  rw [value?, Spells, Option.ite_none_left_eq_some, valueFrom?_eq_some_iff]
  simp only [Nat.zero_mul, Nat.zero_add, ne_eq]

/-- Each code in a numeral is that of a digit. -/
theorem Spells.exists_shows (spells : Spells radix codes n) {code : Nat} (there : code ∈ codes) :
    ∃ d, Shows code d ∧ d < radix := by
  obtain ⟨-, digits, all, low, -⟩ := spells
  obtain ⟨i, bound, rfl⟩ := List.mem_iff_getElem.mp there
  have bound' : i < digits.length := all.length_eq ▸ bound
  exact ⟨digits[i], all.get bound bound', low _ (List.getElem_mem bound')⟩

/-- The codes of digits start at 48. -/
theorem Shows.le (shows : Shows code d) : 48 ≤ code := by
  have zero : '0'.toNat = 48 := rfl
  have lower : 'a'.toNat = 97 := rfl
  have upper : 'A'.toNat = 65 := rfl
  unfold Shows at shows
  omega

/-- The codes of a numeral up to ten are those of decimal digits. -/
theorem Spells.decimal (spells : Spells radix codes n) (le : radix ≤ 10) {code : Nat}
    (there : code ∈ codes) : 48 ≤ code ∧ code ≤ 57 := by
  obtain ⟨d, shows, small⟩ := spells.exists_shows there
  have zero : '0'.toNat = 48 := rfl
  unfold Shows at shows
  omega

/-- The digits of a number spell it. -/
theorem spells_toDigits (low : 1 < radix) (high : radix ≤ 16) (n : Nat) :
    Spells radix ((Nat.toDigits radix n).map Char.toNat) n :=
  value?_eq_some_iff.mp (Numeral.value?_toDigits low high n)

/-! ### Signs -/

/-- What may stand before a numeral: a sign, `true` for a minus, or nothing. -/
inductive IsSign {α : Type} (plus minus : α) : Bool → List α → Prop
  | none : IsSign plus minus false []
  | plus : IsSign plus minus false [plus]
  | minus : IsSign plus minus true [minus]

/-- A numeral behind a sign, or without one, for an integer of 32 bits. -/
def signed32 {α : Type} (plus minus : α) (numeral : Nat → Language α) (v : Int32) : Language α :=
  {text | ∃ negative front n digits, IsSign plus minus negative front ∧ digits ∈ numeral n ∧
    text = front ++ digits ∧ v.toInt = if negative then -(n : Int) else n}

end Numeral

end SharedMailbox
