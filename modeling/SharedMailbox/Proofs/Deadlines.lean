import SharedMailbox.Deadline

namespace SharedMailbox

/-!
# The law of the deadline

A deadline is told by its base, its ceiling and the longest wait recorded. Recording keeps a
maximum, so only which waits were recorded matters, neither their order nor how often.

* `Duration.eq_of_toNanos_eq`, `Duration.exists_add?_iff`: a span is its length, and a sum exists
  exactly when its length is one a span can have.
* `Deadline.longestNanos_foldl_record`: the record after a sequence of waits is the longest of
  them, each cut at what 64 bits of nanoseconds hold.
* `Deadline.exists_widened?`: one and a half times the longest wait always fits a span.
* `Deadline.follows_law`: the deadline after any sequence of waits.
-/

namespace Duration

/-! ### Lengths tell spans apart -/

/-- Durations are equal if they have the same nanoseconds. -/
theorem eq_of_toNanos_eq {a b : Duration} (h : a.toNanos = b.toNanos) : a = b := by
  obtain ⟨s, n, hn⟩ := a
  obtain ⟨t, m, hm⟩ := b
  simp only [toNanos, perSecond] at h
  have secs : s = t := UInt64.toNat_inj.mp (by omega)
  have nanos : n = m := by rw [secs] at h; omega
  subst secs nanos
  rfl

/-- Two spans have a sum exactly when the seconds of the summed length need at most 64 bits. -/
theorem exists_add?_iff {a b : Duration} :
    (∃ c, a.add? b = some c) ↔ a.toNanos + b.toNanos < UInt64.size * perSecond := by
  -- the nanoseconds carry at most one second, which is the quotient of the summed length
  have carried : a.secs.toNat + b.secs.toNat + (a.nanos + b.nanos) / perSecond
      = (a.toNanos + b.toNanos) / perSecond := by
    simp only [toNanos, perSecond]
    omega
  rw [← Nat.div_lt_iff_lt_mul (by decide : 0 < perSecond), ← carried]
  simp only [add?]
  constructor
  · intro exists_sum
    refine Decidable.byContradiction fun large => ?_
    rw [if_neg large] at exists_sum
    obtain ⟨c, sum⟩ := exists_sum
    cases sum
  · intro fits
    exact ⟨_, if_pos fits⟩

end Duration

namespace Deadline

variable {d : Deadline} {base ceiling : Duration} {waits others : List Duration}

/-! ### The longest wait -/

/-- The nanoseconds a wait is recorded with. -/
def recordedNanos (waited : Duration) : Nat := min waited.toNanos (UInt64.size - 1)

/-- The most nanoseconds any of the waits is recorded with, 0 if there is none. -/
def longestOf : List Duration → Nat
  | [] => 0
  | waited :: waits => max (recordedNanos waited) (longestOf waits)

/-- The longest of some waits is at most a number iff each of them is. -/
theorem longestOf_le_iff {n : Nat} : longestOf waits ≤ n ↔ ∀ w ∈ waits, recordedNanos w ≤ n := by
  induction waits with
  | nil => simp [longestOf]
  | cons w waits ih => rw [longestOf, Nat.max_le, ih, List.forall_mem_cons]

/-- Among more waits the longest is no shorter. -/
theorem longestOf_mono (h : waits ⊆ others) : longestOf waits ≤ longestOf others :=
  longestOf_le_iff.mpr fun w hw => longestOf_le_iff.mp (Nat.le_refl _) w (h hw)

/-! ### Recording -/

/-- To record a wait leaves the base. -/
@[simp] theorem record_base (waited : Duration) : (d.record waited).base = d.base := rfl

/-- To record a wait leaves the ceiling. -/
@[simp] theorem record_ceiling (waited : Duration) : (d.record waited).ceiling = d.ceiling := rfl

/-- To record a wait keeps the longer of it and the longest one so far. -/
theorem longestNanos_record (waited : Duration) :
    (d.record waited).longestNanos.toNat = max d.longestNanos.toNat (recordedNanos waited) := by
  have fits : (UInt64.ofNat (recordedNanos waited)).toNat = recordedNanos waited := by
    apply UInt64.toNat_ofNat_of_lt'
    simp only [recordedNanos, UInt64.size]
    omega
  calc (d.record waited).longestNanos.toNat
      = (max d.longestNanos (UInt64.ofNat (recordedNanos waited))).toNat := rfl
    _ = max d.longestNanos.toNat (UInt64.ofNat (recordedNanos waited)).toNat := by
      rw [Nat.max_def]
      split
      next le => rw [show max d.longestNanos _ = _ from if_pos le]
      next lt => rw [show max d.longestNanos _ = _ from if_neg lt]
    _ = max d.longestNanos.toNat (recordedNanos waited) := by rw [fits]

/-- To record waits leaves the base. -/
theorem base_foldl_record : (waits.foldl record d).base = d.base := by
  induction waits generalizing d with
  | nil => rfl
  | cons w waits ih => rw [List.foldl_cons, ih, record_base]

/-- To record waits leaves the ceiling. -/
theorem ceiling_foldl_record : (waits.foldl record d).ceiling = d.ceiling := by
  induction waits generalizing d with
  | nil => rfl
  | cons w waits ih => rw [List.foldl_cons, ih, record_ceiling]

/-- Recorded waits are remembered by the longest of them, and of the one from before. -/
theorem longestNanos_foldl_record :
    (waits.foldl record d).longestNanos.toNat = max d.longestNanos.toNat (longestOf waits) := by
  induction waits generalizing d with
  | nil => exact (Nat.max_eq_left (Nat.zero_le _)).symm
  | cons w waits ih =>
    rw [List.foldl_cons, ih, longestNanos_record, Nat.max_assoc, longestOf]

/-! ### The deadline in force -/

/-- Working out the deadline stays within its integers: the sum of the longest wait and its half
    exists, its nanoseconds need at most 32 bits before they carry, and its seconds at most 64
    with the carry. -/
structure Fits (d : Deadline) : Prop where
  widened : ∃ widened, d.widened? = some widened
  nanos : d.longest.nanos + d.longest.half.nanos < UInt32.size
  secs : d.longest.secs.toNat + d.longest.half.secs.toNat + 1 < UInt64.size

/-- The longest wait has the nanoseconds that are remembered. -/
theorem toNanos_longest (d : Deadline) : d.longest.toNanos = d.longestNanos.toNat :=
  Duration.toNanos_ofNanos _

/-- No step of the law overflows, whatever was recorded. -/
theorem fits (d : Deadline) : d.Fits where
  -- half of 64 bits of nanoseconds more is far below 64 bits of seconds
  widened := by
    rw [widened?, Duration.exists_add?_iff, Duration.toNanos_half, toNanos_longest]
    have := d.longestNanos.toNat_lt_size
    simp only [Duration.perSecond]
    omega
  nanos := by
    have := d.longest.nanos_lt
    have := d.longest.half.nanos_lt
    simp only [UInt32.size]
    omega
  secs := by
    have := d.longestNanos.toNat_lt_size
    simp only [longest, Duration.ofNanos, Duration.half, UInt64.toNat_div, UInt64.reduceToNat]
    simp only [UInt64.size] at *
    omega

-- Unfolded as a function and not at a deadline: compared with the body at a deadline, the kernel
-- would evaluate the sum there.

/-- The current deadline is the widened one between base and ceiling, or the ceiling where
    widening overflows. -/
theorem current_eq : current = fun d =>
    match d.widened? with
    | some widened => (widened.longer d.base).shorter d.ceiling
    | none => d.ceiling := rfl

/-- The current deadline is half as long again as the longest wait, but at least the base and at
    most the ceiling. -/
theorem toNanos_current (d : Deadline) :
    d.current.toNanos
      = min (max (d.longestNanos.toNat + d.longestNanos.toNat / 2) d.base.toNanos)
          d.ceiling.toNanos := by
  rw [current_eq]
  dsimp only
  split
  next widened sum =>
    rw [Duration.toNanos_shorter, Duration.toNanos_longer, Duration.toNanos_add? sum,
      Duration.toNanos_half, toNanos_longest]
  next overflow =>
    obtain ⟨widened, sum⟩ := d.fits.widened
    rw [overflow] at sum
    cases sum

/-- The deadline that has recorded these waits. -/
def after (base ceiling : Duration) (waits : List Duration) : Deadline :=
  waits.foldl record (new base ceiling)

/-- What holds of the deadline that has recorded the waits. -/
structure Follows (base ceiling : Duration) (waits : List Duration) : Prop where
  /-- It is one and a half times the longest wait, raised to the base and cut at the ceiling, or
      at the base where the ceiling is below it. -/
  law : (after base ceiling waits).current.toNanos
    = min (max (longestOf waits + longestOf waits / 2) base.toNanos)
        (max ceiling.toNanos base.toNanos)
  above_base : base ≤ (after base ceiling waits).current
  below_ceiling : (after base ceiling waits).current ≤ ceiling.longer base
  /-- Further records do not lower it. -/
  rises : ∀ others, waits ⊆ others →
    (after base ceiling waits).current ≤ (after base ceiling others).current
  /-- Neither the order of the records nor their repetition counts. -/
  unordered : ∀ others, (∀ w, w ∈ others ↔ w ∈ waits) →
    (after base ceiling others).current = (after base ceiling waits).current
  fits : (after base ceiling waits).Fits

/-- The deadline after some waits, by the longest of them. -/
theorem toNanos_current_after (base ceiling : Duration) (waits : List Duration) :
    (after base ceiling waits).current.toNanos
      = min (max (longestOf waits + longestOf waits / 2) base.toNanos)
          (max ceiling.toNanos base.toNanos) := by
  have longest : (after base ceiling waits).longestNanos.toNat = longestOf waits := by
    rw [after, longestNanos_foldl_record]
    exact Nat.max_eq_right (Nat.zero_le _)
  rw [toNanos_current, longest, after, base_foldl_record, ceiling_foldl_record]
  simp only [new, Duration.toNanos_longer]

/-- More waits never shorten the deadline. -/
theorem current_after_mono (h : waits ⊆ others) :
    (after base ceiling waits).current ≤ (after base ceiling others).current := by
  have longest := longestOf_mono h
  change Duration.toNanos _ ≤ Duration.toNanos _
  rw [toNanos_current_after, toNanos_current_after]
  omega

/-- The law of the deadline: after any sequence of waits, whatever the base and the ceiling. -/
theorem follows_law (base ceiling : Duration) (waits : List Duration) :
    Follows base ceiling waits where
  law := toNanos_current_after base ceiling waits
  above_base := by
    change base.toNanos ≤ Duration.toNanos _
    rw [toNanos_current_after]
    omega
  below_ceiling := by
    change Duration.toNanos _ ≤ Duration.toNanos _
    rw [toNanos_current_after, Duration.toNanos_longer]
    exact Nat.min_le_right _ _
  rises _ := current_after_mono
  unordered others same :=
    Duration.eq_of_toNanos_eq (Nat.le_antisymm (current_after_mono fun w => (same w).mp)
      (current_after_mono fun w => (same w).mpr))
  fits := fits _

example : (after (.ofSecs 5) (.ofSecs 20) [.ofSecs 2, .ofSecs 6, .ofSecs 1]).current
    = .ofSecs 9 := by decide

end Deadline

end SharedMailbox
