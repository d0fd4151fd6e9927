import SharedMailbox.Text.Numeral

namespace SharedMailbox

/-!
# Durations

A span of time in whole seconds and the nanoseconds beyond them. `toNanos` is the span as one
number; the operations are stated by what they do to it.

* `ofNanos`, `ofMillis`, …: spans of a given length.
* `add?`, `half`: sum (`none` when the seconds do not fit) and half, to the nanosecond below.
* `text`: the span in the largest unit that leaves a nonzero whole part.
-/

/-- A span of time. -/
structure Duration where
  secs : UInt64
  nanos : Nat
  nanos_lt : nanos < 1000000000
  deriving DecidableEq

namespace Duration

/-- Nanoseconds in a second. -/
def perSecond : Nat := 1000000000

/-- The span as a number of nanoseconds. -/
def toNanos (d : Duration) : Nat := d.secs.toNat * perSecond + d.nanos

instance : LE Duration := ⟨fun a b => a.toNanos ≤ b.toNanos⟩

instance (a b : Duration) : Decidable (a ≤ b) :=
  inferInstanceAs (Decidable (a.toNanos ≤ b.toNanos))

/-- The longer of two spans. -/
def longer (a b : Duration) : Duration := if a ≤ b then b else a

/-- The shorter of two spans. -/
def shorter (a b : Duration) : Duration := if a ≤ b then a else b

/-- The span of this many nanoseconds. -/
def ofNanos (n : UInt64) : Duration where
  secs := n / 1000000000
  nanos := n.toNat % perSecond
  nanos_lt := Nat.mod_lt _ (by decide)

/-- The span of this many seconds. -/
def ofSecs (n : UInt64) : Duration := ⟨n, 0, by decide⟩

/-- The span of this many milliseconds. -/
def ofMillis (n : UInt64) : Duration where
  secs := n / 1000
  nanos := n.toNat % 1000 * 1000000
  nanos_lt := by have := Nat.mod_lt n.toNat (show 0 < 1000 by decide); omega

/-- The span of this many microseconds. -/
def ofMicros (n : UInt64) : Duration where
  secs := n / 1000000
  nanos := n.toNat % 1000000 * 1000
  nanos_lt := by have := Nat.mod_lt n.toNat (show 0 < 1000000 by decide); omega

instance : Inhabited Duration := ⟨ofSecs 0⟩

/-- The sum of two spans, `none` if its seconds need more than 64 bits. Nanoseconds carry. -/
def add? (a b : Duration) : Option Duration :=
  let secs := a.secs.toNat + b.secs.toNat + (a.nanos + b.nanos) / perSecond
  if secs < UInt64.size then
    some ⟨UInt64.ofNat secs, (a.nanos + b.nanos) % perSecond, Nat.mod_lt _ (by decide)⟩
  else none

/-- Half a span, to the nanosecond below. An odd second carries into the nanoseconds. -/
def half (d : Duration) : Duration where
  secs := d.secs / 2
  nanos := (d.secs.toNat % 2 * perSecond + d.nanos) / 2
  nanos_lt := by
    have := d.nanos_lt
    have := Nat.mod_lt d.secs.toNat (show 0 < 2 by decide)
    simp only [perSecond]
    omega

/-! ### Lengths -/

/-- A duration made of so many nanoseconds has that many. -/
theorem toNanos_ofNanos (n : UInt64) : (ofNanos n).toNanos = n.toNat := by
  simp only [toNanos, ofNanos, perSecond, UInt64.toNat_div, UInt64.reduceToNat]
  omega

/-- Half a duration, rounded down to nanoseconds. -/
theorem toNanos_half (d : Duration) : d.half.toNanos = d.toNanos / 2 := by
  simp only [toNanos, half, perSecond, UInt64.toNat_div, UInt64.reduceToNat]
  omega

/-- A sum that does not overflow is that of the nanoseconds. -/
theorem toNanos_add? {a b c : Duration} (h : a.add? b = some c) :
    c.toNanos = a.toNanos + b.toNanos := by
  simp only [add?] at h
  split at h
  next fits =>
    cases h
    simp only [toNanos, UInt64.toNat_ofNat']
    rw [Nat.mod_eq_of_lt fits]
    simp only [perSecond] at *
    omega
  · cases h

/-- The longer of two durations has more nanoseconds. -/
theorem toNanos_longer (a b : Duration) :
    (a.longer b).toNanos = max a.toNanos b.toNanos := by
  unfold longer
  split
  next h => exact (Nat.max_eq_right h).symm
  next h => exact (Nat.max_eq_left (Nat.le_of_not_le h)).symm

/-- The shorter of two durations has fewer nanoseconds. -/
theorem toNanos_shorter (a b : Duration) :
    (a.shorter b).toNanos = min a.toNanos b.toNanos := by
  unfold shorter
  split
  next h => exact (Nat.min_eq_left h).symm
  next h => exact (Nat.min_eq_right (Nat.le_of_not_le h)).symm

/-! ### Text -/

/-- A number with a fraction of the given number of places, without its trailing zeros. -/
def fraction (whole frac places : Nat) : String :=
  let digits := (Numeral.decimal (Nat.pow 10 places + frac)).toList.drop 1
  let kept := (digits.reverse.dropWhile (· = '0')).reverse
  if kept = [] then Numeral.decimal whole
  else Numeral.decimal whole ++ "." ++ String.ofList kept

/-- The span in seconds, milliseconds, microseconds or nanoseconds: the first of these units of
    which there is at least one, or nanoseconds. -/
def text (d : Duration) : String :=
  if d.secs ≠ 0 then fraction d.secs.toNat d.nanos 9 ++ "s"
  else if 1000000 ≤ d.nanos then fraction (d.nanos / 1000000) (d.nanos % 1000000) 6 ++ "ms"
  else if 1000 ≤ d.nanos then fraction (d.nanos / 1000) (d.nanos % 1000) 3 ++ "µs"
  else Numeral.decimal d.nanos ++ "ns"

end Duration

end SharedMailbox
