/-!
Spans of time. A `Duration` is a non-negative span, counted in nanoseconds and shown as whole
seconds and the nanoseconds past them; it is what waits and delays are measured in. A `Delta` is a
signed span of at most `Delta.limitMillis` milliseconds either way; it is what moves an instant.
Its seconds are counted toward zero and its sub-second part carries the sign of the whole, so
`-1.5 s` has `-1` seconds and `-500000000` nanoseconds.
-/

set_option autoImplicit false

namespace Outbox.Time

def nanosPerSec : Nat := 1000000000

def nanosPerMilli : Nat := 1000000

/-- A non-negative span of time in nanoseconds. -/
structure Duration where
  nanos : Nat
  deriving DecidableEq, Repr, Inhabited

namespace Duration

def zero : Duration := ⟨0⟩

def ofSecs (s : Nat) : Duration := ⟨s * nanosPerSec⟩

def ofMillis (ms : Nat) : Duration := ⟨ms * nanosPerMilli⟩

def ofParts (secs nanos : Nat) : Duration := ⟨secs * nanosPerSec + nanos⟩

def secs (d : Duration) : Nat := d.nanos / nanosPerSec

def subsecNanos (d : Duration) : Nat := d.nanos % nanosPerSec

/-- The longest span a duration holds: `2^64 - 1` seconds and `10^9 - 1` nanoseconds. -/
def max : Duration := ⟨(Nat.pow 2 64 - 1) * nanosPerSec + (nanosPerSec - 1)⟩

/-- The span in whole milliseconds, rounded up: how long a timer that ticks each millisecond
waits for it. -/
def ceilMillis (d : Duration) : Nat := (d.nanos + (nanosPerMilli - 1)) / nanosPerMilli

def min (a b : Duration) : Duration := if a.nanos ≤ b.nanos then a else b

@[simp] theorem secs_ofSecs (s : Nat) : (ofSecs s).secs = s := by
  simp [ofSecs, secs, nanosPerSec]

@[simp] theorem subsecNanos_ofSecs (s : Nat) : (ofSecs s).subsecNanos = 0 := by
  simp [ofSecs, subsecNanos, nanosPerSec]

end Duration

/-- A signed span of time in nanoseconds, within `Delta.limitMillis` milliseconds of zero. -/
structure Delta where
  nanos : Int
  deriving DecidableEq, Repr, Inhabited

namespace Delta

def limitMillis : Nat := 9223372036854775807

def limitNanos : Nat := limitMillis * nanosPerMilli

def max : Delta := ⟨limitNanos⟩

def min : Delta := ⟨-(limitNanos : Int)⟩

def zero : Delta := ⟨0⟩

def fits (n : Int) : Bool := n.natAbs ≤ limitNanos

def ofDuration? (d : Duration) : Option Delta :=
  if fits d.nanos then some ⟨d.nanos⟩ else none

def ofSeconds? (s : Int) : Option Delta :=
  if fits (s * nanosPerSec) then some ⟨s * nanosPerSec⟩ else none

/-- Whole milliseconds as a delta, if they fit: every count down to `-(2^63 - 1)`. -/
def ofMillis? (ms : Int) : Option Delta :=
  if ms.natAbs ≤ limitMillis then some ⟨ms * nanosPerMilli⟩ else none

def add? (a b : Delta) : Option Delta :=
  if fits (a.nanos + b.nanos) then some ⟨a.nanos + b.nanos⟩ else none

/-- The message of the panic of seconds that do not fit in a delta. -/
def secondsOutOfBounds : String := "TimeDelta::seconds out of bounds"

/-- The message of the panic of milliseconds that do not fit in a delta. -/
def millisOutOfBounds : String := "TimeDelta::milliseconds out of bounds"

/-- The message of the panic of a sum of deltas that does not fit in one. -/
def sumOverflow : String := "`TimeDelta + TimeDelta` overflowed"

/-- The delta of `secs` seconds plus `ms` milliseconds, each made and then added as a checked
delta, or the message of the first panic: the seconds are made first. -/
def ofParts (secs ms : Int) : Except String Delta := do
  let s ← (ofSeconds? secs).elim (.error secondsOutOfBounds) .ok
  let m ← (ofMillis? ms).elim (.error millisOutOfBounds) .ok
  (add? s m).elim (.error sumOverflow) .ok

def seconds (d : Delta) : Int := d.nanos.tdiv nanosPerSec

/-- The nanoseconds past the whole seconds, with the sign of the delta. -/
def subsecNanos (d : Delta) : Int := d.nanos.tmod nanosPerSec

def neg (d : Delta) : Delta := ⟨-d.nanos⟩

def ofDurationClamped (d : Duration) : Delta :=
  (ofDuration? d).getD max

theorem seconds_mul_add_subsecNanos (d : Delta) :
    d.seconds * nanosPerSec + d.subsecNanos = d.nanos := by
  simp only [seconds, subsecNanos]
  exact Int.tdiv_mul_add_tmod d.nanos nanosPerSec

end Delta

end Outbox.Time
