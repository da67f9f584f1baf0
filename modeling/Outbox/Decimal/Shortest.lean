/-!
The shortest decimal of a finite double. A double is `m · 2^e`; every real strictly between it
and the midpoints to its two neighbours reads back as it, and so do the midpoints themselves when
`m` is even (reading rounds half to even). The shortest decimal is the one with the fewest
significant digits in that interval; of two with as few, the one nearer the double, and of two
as near, the one with the even last digit. Everything is exact natural-number arithmetic on the
scaled interval, so the digits do not depend on floating-point operations.
-/

set_option autoImplicit false

namespace Outbox.Decimal

/-- A finite double taken apart: its sign, and `mantissa · 2^exponent` its magnitude.
`narrowBelow` marks a power of two above the least normal exponent, where the gap to the
neighbour below is half the gap above. -/
structure Parts where
  negative : Bool
  mantissa : Nat
  exponent : Int
  narrowBelow : Bool
  deriving DecidableEq, Repr

/-- The parts of a double given by its bits (the caller ensures it is finite). -/
def Parts.ofBits (bits : UInt64) : Parts :=
  let b : Nat := bits.toNat
  let frac : Nat := b % Nat.pow 2 52
  let ex : Nat := b / Nat.pow 2 52 % 2048
  let negative := decide (b / Nat.pow 2 63 = 1)
  if ex = 0 then ⟨negative, frac, -1074, false⟩
  else ⟨negative, frac + Nat.pow 2 52, (ex : Int) - 1075, decide (frac = 0 ∧ ex > 1)⟩

def digitCount (n : Nat) : Nat := (Nat.toDigits 10 n).length

def compareScaled (c : Nat) (q : Int) (x : Nat) (s : Int) : Ordering :=
  compare (c * Nat.pow 10 q.toNat * Nat.pow 2 (-s).toNat) (x * Nat.pow 2 s.toNat * Nat.pow 10 (-q).toNat)

/-- The rounding interval of the parts, in units of `2^(exponent - 2)`: its ends, and whether
they belong to it. -/
def Parts.interval (p : Parts) : Nat × Nat × Bool :=
  (4 * p.mantissa - (if p.narrowBelow then 1 else 2), 4 * p.mantissa + 2, p.mantissa % 2 == 0)

/-- Whether `c · 10^q` reads back as the double. -/
def Parts.readsBack (p : Parts) (c : Nat) (q : Int) : Bool :=
  let (lo, hi, closed) := p.interval
  let s := p.exponent - 2
  let above := compareScaled c q lo s
  let below := compareScaled c q hi s
  if closed then (above != Ordering.lt) && (below != Ordering.gt)
  else (above == Ordering.gt) && (below == Ordering.lt)

/-- The decimal exponent of the double: the `E` with `10^E ≤ m · 2^e < 10^(E+1)`. -/
def Parts.decimalExponent (p : Parts) : Int :=
  let num := p.mantissa * Nat.pow 2 p.exponent.toNat
  let den := Nat.pow 2 (-p.exponent).toNat
  if den ≤ num then (digitCount (num / den) : Int) - 1
  else
    let r := (den + num - 1) / num
    Int.neg (digitCount (r - 1))

/-- Among the decimals of `n` significant digits, the ones next to the double that read back:
the nearer if both do, the even one if both are as near. -/
def Parts.candidate (p : Parts) (n : Nat) : Option (Nat × Int) :=
  let q := p.decimalExponent + 1 - n
  let num := p.mantissa * Nat.pow 2 p.exponent.toNat * Nat.pow 10 (-q).toNat
  let den := Nat.pow 2 (-p.exponent).toNat * Nat.pow 10 q.toNat
  let lower := num / den
  let upper := lower + 1
  let exact := lower * den = num
  if exact then some (lower, q)
  else
    match p.readsBack lower q, p.readsBack upper q with
    | true, true =>
      -- compare the double with the midpoint `(2·lower + 1) / 2 · 10^q`
      match compare (2 * num) ((2 * lower + 1) * den) with
      | .lt => some (lower, q)
      | .gt => some (upper, q)
      | .eq => if lower % 2 == 0 then some (lower, q) else some (upper, q)
    | true, false => some (lower, q)
    | false, true => some (upper, q)
    | false, false => none

def stripZeros : Nat → Nat → Int → Nat × Int
  | 0, c, q => (c, q)
  | fuel + 1, c, q => if c ≠ 0 ∧ c % 10 = 0 then stripZeros fuel (c / 10) (q + 1) else (c, q)

/-- The shortest decimal `digits · 10^exponent` of a positive finite double. -/
def Parts.shortest (p : Parts) : Nat × Int :=
  match (List.range 17).findSome? (fun i => p.candidate (i + 1)) with
  | some (c, q) => stripZeros 20 c q
  | none => (p.mantissa, 0)

end Outbox.Decimal
