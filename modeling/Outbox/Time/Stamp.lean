import Outbox.Time.Instant
import Outbox.Text.Classes

/-!
Instants as RFC 3339 text in UTC.

Writing (`Instant.stamp`): the year as four digits, or with a sign and at least four digits
outside `0000 .. 9999`; then month, day, hour, minute and second as two digits each, a leap
second as second `60`; then a fraction of three, six or nine digits, the fewest that hold the
nanoseconds, or none when they are zero; then `Z`.

Reading (`Instant.readStamp?`) is lenient. Blanks may stand before every number and around the
`-` and `:` between them; the year has up to four digits, or a sign and any number of them;
month, day, hour, minute and second have one or two; the date and time are split by `T`, `t` or
a space; a fraction has at least one digit and counts up to nine; the offset is `Z`, `z`, `UTC`
in any case, or a sign (`+`, `-` or the minus sign `−`), two digits of hours, optional colons or
blanks, and two digits of minutes. Trailing blanks are allowed. Second 60 is a leap second of
any minute. The local time less the offset is the instant, and it must lie in the calendar.
-/

set_option autoImplicit false

namespace Outbox.Time

def padded (width n : Nat) : String :=
  let ds := Nat.toDigits 10 n
  String.ofList (List.replicate (width - ds.length) '0' ++ ds)

/-- A year as written: four digits inside `0 .. 9999`, else a sign and at least four digits. -/
def yearText (y : Int) : String :=
  if 0 ≤ y ∧ y ≤ 9999 then padded 4 y.toNat
  else (if y < 0 then "-" else "+") ++ padded 4 y.natAbs

/-- The fraction of a second as written: none, or three, six or nine digits. -/
def fractionText (nanos : Nat) : String :=
  if nanos = 0 then ""
  else if nanos % 1000000 = 0 then "." ++ padded 3 (nanos / 1000000)
  else if nanos % 1000 = 0 then "." ++ padded 6 (nanos / 1000)
  else "." ++ padded 9 nanos

/-- The RFC 3339 text of an instant in UTC. -/
def Instant.stamp (t : Instant) : String :=
  let c := t.civil
  let (leap, nanos) :=
    if t.nanos ≥ nanosPerSec then (1, t.nanos - nanosPerSec) else (0, t.nanos)
  yearText c.year ++ "-" ++ padded 2 c.month ++ "-" ++ padded 2 c.day ++ "T" ++
    padded 2 (t.second / 3600) ++ ":" ++ padded 2 (t.second / 60 % 60) ++ ":" ++
    padded 2 (t.second % 60 + leap) ++ fractionText nanos ++ "Z"

example : Instant.stamp ⟨19783, 32400, 0⟩ = "2024-03-01T09:00:00Z" := by decide
example : Instant.stamp ⟨0, 86399, 1500000000⟩ = "1970-01-01T23:59:60.500Z" := by decide

/-- The fields of a written time before they are checked. -/
structure StampFields where
  year : Int
  month : Nat
  day : Nat
  hour : Nat
  minute : Nat
  second : Nat
  nanos : Nat
  offset : Int
  deriving Repr

def digitValue (c : Char) : Nat := c.toNat - '0'.toNat

def digitsValue (ds : List Char) : Nat := ds.foldl (fun n c => 10 * n + digitValue c) 0

/-- At least one and at most `most` leading digits: their value, their count and the rest. -/
def leadingDigits (most : Nat) (s : List Char) : Option (Nat × Nat × List Char) :=
  let ds := (s.take most).takeWhile Char.isDigit
  if ds.isEmpty then none else some (digitsValue ds, ds.length, s.drop ds.length)

def readField (s : List Char) : Option (Nat × List Char) :=
  (leadingDigits 2 (Text.dropBlank s)).map (fun (v, _, r) => (v, r))

/-- A year after optional blanks: a sign and digits, or up to four digits. -/
def readYear (s : List Char) : Option (Int × List Char) :=
  match Text.dropBlank s with
  | '-' :: r => (leadingDigits r.length r).map (fun (v, _, r) => (-(v : Int), r))
  | '+' :: r => (leadingDigits r.length r).map (fun (v, _, r) => ((v : Int), r))
  | r => (leadingDigits 4 r).map (fun (v, _, r) => ((v : Int), r))

def readMark (mark : Char) (s : List Char) : Option (List Char) :=
  match Text.dropBlank s with
  | c :: r => if c = mark then some r else none
  | [] => none

/-- An optional fraction of a second: a point and at least one digit, nine counted. -/
def readFraction (s : List Char) : Option (Nat × List Char) :=
  match s with
  | '.' :: r => do
    let (v, n, r) ← leadingDigits 9 r
    pure (v * Nat.pow 10 (9 - n), r.dropWhile Char.isDigit)
  | _ => some (0, s)

/-- Two digit characters, the first at most `hi`. -/
def twoDigits (hi : Nat) : List Char → Option (Nat × List Char)
  | a :: b :: r =>
    if a.isDigit && b.isDigit && digitValue a ≤ hi then
      some (10 * digitValue a + digitValue b, r)
    else none
  | _ => none

/-- The offset from UTC in seconds, after the time. -/
def readOffset (s : List Char) : Option (Int × List Char) :=
  let s := Text.dropBlank s
  match s with
  | a :: b :: c :: r =>
    if a.toUpper = 'U' ∧ b.toUpper = 'T' ∧ c.toUpper = 'C' then some (0, r) else signedOffset s
  | _ => signedOffset s
where
  /-- Either `Z`, or a signed offset of hours and minutes. -/
  signedOffset (s : List Char) : Option (Int × List Char) :=
    match s with
    | 'Z' :: r => some (0, r)
    | 'z' :: r => some (0, r)
    | c :: r =>
      if c = '+' ∨ c = '-' ∨ c = '−' then do
        let (h, r) ← twoDigits 9 r
        let r := r.dropWhile (fun c => c = ':' || Text.isBlank c)
        let (m, r) ← twoDigits 5 r
        let secs : Int := (h * 3600 + m * 60 : Nat)
        pure (if c = '+' then secs else -secs, r)
      else none
    | [] => none

/-- The fields of a written time, read as far as their shape goes. -/
def readStampFields (s : List Char) : Option StampFields := do
  let (year, s) ← readYear s
  let s ← readMark '-' s
  let (month, s) ← readField s
  let s ← readMark '-' s
  let (day, s) ← readField s
  let s ← match s with
    | c :: r => if c = 'T' ∨ c = 't' ∨ c = ' ' then some r else none
    | [] => none
  let (hour, s) ← readField s
  let s ← readMark ':' s
  let (minute, s) ← readField s
  let s ← readMark ':' s
  let (second, s) ← readField s
  let (nanos, s) ← readFraction s
  let (offset, s) ← readOffset s
  if (Text.dropBlank s).isEmpty then
    pure ⟨year, month, day, hour, minute, second, nanos, offset⟩
  else none

/-- The instant the fields name, if they are in range: second 60 is a leap second, the offset is
under a day, and the instant lies in the calendar. -/
def StampFields.instant? (f : StampFields) : Option Instant :=
  if f.month < 1 ∨ f.month > 12 ∨ f.day < 1 ∨ f.day > 31 ∨ f.hour > 23 ∨ f.minute > 59 ∨
    f.second > 60 ∨ f.offset.natAbs ≥ secsPerDay then none
  else
    let (second, nanos) :=
      if f.second = 60 then (59, f.nanos + nanosPerSec) else (f.second, f.nanos)
    let c : Civil := ⟨f.year, f.month, f.day⟩
    if !(c.valid && Instant.dayInRange (daysOfCivil c)) then none
    else
      let secs : Int := ((f.hour * 3600 + f.minute * 60 + second : Nat) : Int) - f.offset
      let inDay := secs % secsPerDay
      let day := daysOfCivil c + (secs - inDay) / secsPerDay
      if Instant.dayInRange day then some ⟨day, inDay.toNat, nanos⟩ else none

def Instant.readStamp? (s : String) : Option Instant :=
  (readStampFields s.toList).bind StampFields.instant?

end Outbox.Time
