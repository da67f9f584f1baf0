import Outbox.Time.Span
import Outbox.Time.Calendar

/-!
Instants in UTC on the calendar of `Time.Calendar`, from `-262143-01-01` to `+262142-12-31`. An
instant is a day, a second of that day and nanoseconds past the second; nanoseconds of `10^9` or
more mark a leap second, shown as second 60 of its minute. Instants are ordered by day, then
second, then nanoseconds, so a leap second comes after the second it extends.

Moving an instant by a `Delta` (`Instant.add?`) counts a leap second as a second of its own only
while the move stays inside it: a move that leaves it first steps to the second after it (forward)
or to its own second (back). A move that leaves the calendar's range has no result.
-/

set_option autoImplicit false

namespace Outbox.Time

def secsPerDay : Nat := 86400

/-- A moment in UTC: a day number from 1970-01-01, the second of the day (below `86400`) and the
nanoseconds past it (below `2·10^9`; from `10^9` on a leap second). -/
structure Instant where
  day : Int
  second : Nat
  nanos : Nat
  deriving DecidableEq, Repr, Inhabited

namespace Instant

def firstDay : Int := daysOfCivil ⟨-262143, 1, 1⟩

def lastDay : Int := daysOfCivil ⟨262142, 12, 31⟩

def dayInRange (d : Int) : Bool := firstDay ≤ d && d ≤ lastDay

def epoch : Instant := ⟨0, 0, 0⟩

def civil (t : Instant) : Civil := civilOfDays t.day

/-- Seconds since the epoch, a leap second counted as the second it extends. -/
def timestamp (t : Instant) : Int := t.day * secsPerDay + t.second

/-- Milliseconds since the epoch; within a leap second they run on past the next second. -/
def timestampMillis (t : Instant) : Int := t.timestamp * 1000 + (t.nanos / nanosPerMilli : Nat)

def lt (a b : Instant) : Bool :=
  a.day < b.day || (a.day == b.day && (a.second < b.second ||
    (a.second == b.second && a.nanos < b.nanos)))

/-- The instant `s` seconds from the start of day `day`, the leap state kept in `nanos`. -/
def ofDaySeconds? (s : Int) (nanos : Nat) : Option Instant :=
  let second := s % secsPerDay
  let day := (s - second) / secsPerDay
  if dayInRange day then some ⟨day, second.toNat, nanos⟩ else none

/-- The time of day moved by a delta, and the whole seconds it carried past the day: the
leap second is left first when the move leaves it. -/
def shiftTime (second nanos : Nat) (d : Delta) : Nat × Nat × Int :=
  let addSecs := d.seconds
  let addFrac := d.subsecNanos
  let ns : Int := nanosPerSec
  -- a leap second: stay in it, or leave it to the following or its own second
  let start : Option (Int × Int) :=
    if (nanos : Int) ≥ ns then
      if addSecs > 0 ∨ (addFrac > 0 ∧ (nanos : Int) ≥ 2 * ns - addFrac) then
        some ((second : Int), (nanos : Int) - ns)
      else if addSecs < 0 then some ((second : Int) + 1, (nanos : Int) - ns)
      else none
    else some ((second : Int), (nanos : Int))
  match start with
  | none => (second, ((nanos : Int) + addFrac).toNat, 0)
  | some (secs, frac) =>
    let secs := secs + addSecs
    let frac := frac + addFrac
    let (secs, frac) :=
      if frac < 0 then (secs - 1, frac + ns)
      else if frac ≥ ns then (secs + 1, frac - ns)
      else (secs, frac)
    let inDay := secs % secsPerDay
    (inDay.toNat, frac.toNat, secs - inDay)

/-- The instant a delta later, if it is in the calendar's range. -/
def add? (t : Instant) (d : Delta) : Option Instant :=
  let (second, nanos, carry) := shiftTime t.second t.nanos d
  match Delta.ofSeconds? carry with
  | none => none
  | some _ =>
    let day := t.day + carry / secsPerDay
    if dayInRange day then some ⟨day, second, nanos⟩ else none

/-- The instant `n` nanoseconds after the epoch, if it is in the calendar's range. -/
def ofUnixNanos? (n : Int) : Option Instant := epoch.add? ⟨n⟩

def sub? (t : Instant) (d : Delta) : Option Instant := t.add? d.neg

/-- The instant at a date and time of day, `nanos` past the second (a leap second when
`10^9` or more), if the date is valid and in the calendar's range. -/
def ofCivil? (c : Civil) (second nanos : Nat) : Option Instant :=
  if c.valid && dayInRange (daysOfCivil c) then some ⟨daysOfCivil c, second, nanos⟩ else none

end Instant

end Outbox.Time
