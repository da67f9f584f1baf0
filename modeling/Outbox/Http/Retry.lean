import Outbox.Time.Span

/-!
How long to wait before retrying a request that failed with a server error.

Retry `r` (counted from 1) of a policy with at most `maxRetries` retries waits
`baseDelay · multiplier^(r-1)` seconds, worked out in double precision: the base delay as a
double of seconds, the power by repeated squaring with the exponent capped at `2^31 - 1`. The
seconds become a duration rounded to the nearest nanosecond, ties to even; a negative, infinite
or not-a-number result, or one of `2^64` seconds or more, becomes the policy's longest delay, and
no delay is longer than that. Retry 0 and retries past the last have no delay.
-/

set_option autoImplicit false

namespace Outbox.Time

def Duration.toSecsFloat (d : Duration) : Float :=
  Float.ofNat d.secs + Float.ofNat d.subsecNanos / 1000000000.0

/-- The power `a^n` by repeated squaring, the steps bounded by `fuel`. -/
def powSquaring : Nat → Float → Float → Nat → Float
  | 0, _, r, _ => r
  | fuel + 1, a, r, n =>
    let r := if n % 2 = 1 then r * a else r
    if n / 2 = 0 then r else powSquaring fuel (a * a) r (n / 2)

/-- The power `a^n` for `n` below `2^32`, multiplying as repeated squaring does. -/
def powi (a : Float) (n : Nat) : Float := powSquaring 33 a 1.0 n

/-- The quotient `n / d` rounded to the nearest whole number, ties to even. -/
def roundHalfEven (n d : Nat) : Nat :=
  let q := n / d
  let r := n % d
  if 2 * r > d then q + 1
  else if 2 * r < d then q
  else if q % 2 = 0 then q else q + 1

/-- Seconds given as a double, as a duration to the nearest nanosecond (ties to even); none for
a negative, infinite or not-a-number double or one of `2^64` seconds or more. -/
def Duration.ofSecsFloat? (x : Float) : Option Duration :=
  let bits : Nat := x.toBits.toNat
  let frac : Nat := bits % Nat.pow 2 52
  let ex : Nat := bits / Nat.pow 2 52 % 2048
  let negative : Bool := bits / Nat.pow 2 63 = 1
  if ex = 2047 then none
  else if negative ∧ (ex ≠ 0 ∨ frac ≠ 0) then none
  else
    -- the value is `m · 2^e`
    let (m, e) : Nat × Int := if ex = 0 then (frac, -1074) else (frac + Nat.pow 2 52, (ex : Int) - 1075)
    if m * Nat.pow 2 e.toNat ≥ Nat.pow 2 64 * Nat.pow 2 (-e).toNat then none
    else some ⟨roundHalfEven (m * Nat.pow 2 e.toNat * nanosPerSec) (Nat.pow 2 (-e).toNat)⟩

end Outbox.Time

namespace Outbox.Http

open Time

/-- A retry policy. -/
structure RetryPolicy where
  baseDelay : Duration
  multiplier : Float
  maxRetries : Nat
  maxDelay : Duration

namespace RetryPolicy

def standard : RetryPolicy := ⟨Duration.ofMillis 100, 2.0, 6, Duration.ofSecs 30⟩

def noRetries : RetryPolicy := { standard with maxRetries := 0 }

end RetryPolicy

def RetryPolicy.nextDelay (p : RetryPolicy) (r : Nat) : Option Duration :=
  if r = 0 ∨ r > p.maxRetries then none
  else
    let secs := p.baseDelay.toSecsFloat * powi p.multiplier (Nat.min (r - 1) (Nat.pow 2 31 - 1))
    some (Duration.min ((Duration.ofSecsFloat? secs).getD p.maxDelay) p.maxDelay)

end Outbox.Http
