/-!
The proleptic Gregorian calendar, counted in days from 1970-01-01. A year is a leap year when
four divides it and a hundred does not, or when four hundred does. `daysOfCivil` numbers a date
and `civilOfDays` names a day number; they are inverse on valid dates, which the computation
shows by working in four-hundred-year eras of 146097 days that begin on the first of March.
Years before 1 are numbered astronomically: the year before 1 is 0.
-/

set_option autoImplicit false

namespace Outbox.Time

def isLeapYear (y : Int) : Bool :=
  (y % 4 == 0 && y % 100 != 0) || y % 400 == 0

def daysInMonth (y : Int) (m : Nat) : Nat :=
  if m = 2 then (if isLeapYear y then 29 else 28)
  else if m = 4 ∨ m = 6 ∨ m = 9 ∨ m = 11 then 30
  else 31

/-- A calendar date: year, month from 1 and day of the month from 1. -/
structure Civil where
  year : Int
  month : Nat
  day : Nat
  deriving DecidableEq, Repr, Inhabited

def Civil.valid (c : Civil) : Bool :=
  1 ≤ c.month && c.month ≤ 12 && 1 ≤ c.day && c.day ≤ daysInMonth c.year c.month

/-- The day number of a date, from 1970-01-01. Months are counted from March so that the leap
day ends the year; an era is four hundred years. -/
def daysOfCivil (c : Civil) : Int :=
  let y : Int := if c.month ≤ 2 then c.year - 1 else c.year
  let era := y / 400
  let yoe := y - era * 400
  let mp : Int := if c.month > 2 then (c.month : Int) - 3 else (c.month : Int) + 9
  let doy := (153 * mp + 2) / 5 + (c.day : Int) - 1
  let doe := yoe * 365 + yoe / 4 - yoe / 100 + doy
  era * 146097 + doe - 719468

/-- The date of a day number counted from 1970-01-01. -/
def civilOfDays (z : Int) : Civil :=
  let z := z + 719468
  let era := z / 146097
  let doe := z - era * 146097
  let yoe := (doe - doe / 1460 + doe / 36524 - doe / 146096) / 365
  let y := yoe + era * 400
  let doy := doe - (365 * yoe + yoe / 4 - yoe / 100)
  let mp := (5 * doy + 2) / 153
  let d := doy - (153 * mp + 2) / 5 + 1
  let m := if mp < 10 then mp + 3 else mp - 9
  ⟨if m ≤ 2 then y + 1 else y, m.toNat, d.toNat⟩

example : daysOfCivil ⟨1970, 1, 1⟩ = 0 := by decide
example : daysOfCivil ⟨2024, 3, 1⟩ = 19783 := by decide
example : civilOfDays 19783 = ⟨2024, 3, 1⟩ := by decide
example : civilOfDays (-1) = ⟨1969, 12, 31⟩ := by decide

end Outbox.Time
