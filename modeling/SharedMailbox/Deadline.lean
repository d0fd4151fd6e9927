import SharedMailbox.Duration

namespace SharedMailbox

/-!
# Adaptive deadline

How long a sender waits for its own mailslot to drain. The deadline starts at a base and follows
one and a half times the longest wait seen so far, never below the base nor above a ceiling.
-/

/-- The bounds of a deadline and the longest wait recorded, in nanoseconds. -/
structure Deadline where
  base : Duration
  ceiling : Duration
  longestNanos : UInt64

namespace Deadline

/-- A deadline without a record. A ceiling below the base counts as the base. -/
def new (base ceiling : Duration) : Deadline where
  base := base
  ceiling := ceiling.longer base
  longestNanos := 0

/-- Record a wait. Waits too long for 64 bits of nanoseconds count as the longest that fit. -/
def record (d : Deadline) (waited : Duration) : Deadline :=
  { d with
    longestNanos := max d.longestNanos (UInt64.ofNat (min waited.toNanos (UInt64.size - 1))) }

/-- The longest wait recorded. -/
def longest (d : Deadline) : Duration := Duration.ofNanos d.longestNanos

/-- One and a half times the longest wait, `none` if the sum does not fit a duration. -/
def widened? (d : Deadline) : Option Duration := d.longest.add? d.longest.half

/-- The deadline in force: the widened wait, but not below the base nor above the ceiling. -/
def current (d : Deadline) : Duration :=
  match d.widened? with
  | some widened => (widened.longer d.base).shorter d.ceiling
  -- a sum that overflows is above every ceiling
  | none => d.ceiling

end Deadline

end SharedMailbox
