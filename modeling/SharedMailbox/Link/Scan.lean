import SharedMailbox.Text.Numeral

namespace SharedMailbox.Scan

/-!
# Scanning control texts

Matchers that take what they match from the front of a byte list and give the rest.

* `literal`: a fixed text, in which a space stands for any run of blanks, none included.
* `int`: a decimal integer of 32 bits, after blanks and with an optional sign.
* `upTo`: everything before a stop byte.
-/

/-- The code of a comma. -/
def comma : UInt8 := 44

/-- Space, tab, line feed, form feed, carriage return. -/
def isBlank (b : UInt8) : Bool := b == 32 || b == 9 || b == 10 || b == 12 || b == 13

/-- A decimal digit. -/
def isDigit (b : UInt8) : Bool := 48 ≤ b && b ≤ 57

/-- The input after its leading blanks. -/
def skipBlanks (input : List UInt8) : List UInt8 := input.dropWhile isBlank

/-- The input after a fixed text. -/
def literal : (text input : List UInt8) → Option (List UInt8)
  | [], input => some input
  | p :: text, input =>
    if p = 32 then literal text (skipBlanks input)
    else match input with
      | b :: rest => if b = p then literal text rest else none
      | [] => none

/-- The sign at the front of an input, `true` for a minus, and what follows it. -/
def sign : List UInt8 → Bool × List UInt8
  | 45 :: rest => (true, rest)
  | 43 :: rest => (false, rest)
  | input => (false, input)

/-- An integer and the input after its last digit. All digits in a row belong to it. -/
def int (input : List UInt8) : Option (Int32 × List UInt8) :=
  let (negative, rest) := sign (skipBlanks input)
  match Numeral.value? 10 ((rest.takeWhile isDigit).map UInt8.toNat) with
  | none => none
  | some magnitude =>
    (Numeral.int32? (Numeral.signed negative magnitude)).map fun v => (v, rest.dropWhile isDigit)

/-- The input before a stop byte, and from it on, if there is one. -/
def upTo (stop : UInt8) (input : List UInt8) : Option (List UInt8 × List UInt8) :=
  if stop ∈ input then some (input.takeWhile (· ≠ stop), input.dropWhile (· ≠ stop)) else none

end SharedMailbox.Scan
