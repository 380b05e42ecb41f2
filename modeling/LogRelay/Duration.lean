/-!
# Spans of time

A `Duration` counts nanoseconds and is bounded: the longest one has as many whole seconds as a 64-bit
word can hold.  Arithmetic stops at that bound instead of overflowing.

* `Duration.ofMillis`, `Duration.ofParts`: building one;
* `Duration.scale`: a multiple, cut off at `Duration.longest`;
* `Duration.shorter`: the lesser of two;
* `Duration.asRest`: how long a rest is that is meant to be so long.

The clock is ideal: it is read to the nanosecond, and a rest or a limit ends at the very moment when its span is
over.  The timers by which spans are kept at work tick in whole milliseconds, so that there a span may end up to
a millisecond late.
-/

namespace LogRelay

/-- The number of nanoseconds in the longest span. -/
def Duration.limit : Nat := 0x10000000000000000 * 1000000000 - 1

/-- A span of time in nanoseconds. -/
@[ext] structure Duration where
  nanos : Nat
  nanos_le : nanos ≤ Duration.limit
deriving DecidableEq

namespace Duration

/-- The span of `n` nanoseconds, or the longest one if `n` is beyond it. -/
def ofNanos (n : Nat) : Duration := ⟨min n limit, Nat.min_le_right _ _⟩

@[simp] theorem nanos_ofNanos (n : Nat) : (ofNanos n).nanos = min n limit := rfl

/-- The empty span. -/
def zero : Duration := ofNanos 0

/-- The longest span. -/
def longest : Duration := ofNanos limit

instance : Inhabited Duration := ⟨zero⟩

/-- The span of so many milliseconds. -/
def ofMillis (ms : Nat) : Duration := ofNanos (ms * 1000000)

/-- The span of so many seconds and nanoseconds. -/
def ofParts (secs nanos : Nat) : Duration := ofNanos (secs * 1000000000 + nanos)

/-- Whole milliseconds in the span. -/
def millis (d : Duration) : Nat := d.nanos / 1000000

/-- Whole seconds in the span. -/
def secs (d : Duration) : Nat := d.nanos / 1000000000

/-- What is left beside the whole seconds, in nanoseconds. -/
def subsecNanos (d : Duration) : Nat := d.nanos % 1000000000

/-- Whether the span is empty. -/
def isZero (d : Duration) : Bool := d.nanos == 0

@[simp] theorem isZero_iff (d : Duration) : d.isZero = true ↔ d.nanos = 0 := by
  simp [isZero]

/-- The span `k` times over, or the longest one if that is beyond it. -/
def scale (d : Duration) (k : Nat) : Duration := ofNanos (d.nanos * k)

@[simp] theorem nanos_scale (d : Duration) (k : Nat) : (d.scale k).nanos = min (d.nanos * k) limit := rfl

/-- The shorter of two spans. -/
def shorter (d e : Duration) : Duration := if d.nanos ≤ e.nanos then d else e

@[simp] theorem nanos_shorter (d e : Duration) : (d.shorter e).nanos = min d.nanos e.nanos := by
  unfold shorter
  split <;> omega

/-- The longest rest: thirty years of 365 days. -/
def longestRest : Duration := ofParts (30 * 365 * 86400) 0

/-- How long a rest is that is meant to be so long: the clock ends every rest after the longest one. -/
def asRest (d : Duration) : Duration := d.shorter longestRest

@[simp] theorem nanos_asRest (d : Duration) : d.asRest.nanos = min d.nanos longestRest.nanos :=
  nanos_shorter _ _

end Duration

/-- A reading of the clock: nanoseconds since it was started. -/
abbrev Instant := Nat

end LogRelay
