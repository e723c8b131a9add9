import BookingApi.Exceptions
import Mathlib.Algebra.Ring.Nat
import Mathlib.Data.Fin.Basic

/-!
# Dates and datetimes

Python's `date` and `datetime` over the proleptic Gregorian calendar, years 1 to 9999.  A datetime
has the fields of a wall clock and, if it is aware, an offset from UTC.  `DateTime.instant` is the
point of time that the database stores for it, in microseconds; a naive datetime is taken as UTC,
which is what the driver does in a process whose time zone is UTC.
-/

namespace BookingApi

/-! ### Dates -/

def isLeap (year : ℕ) : Bool := year % 4 = 0 ∧ (year % 100 ≠ 0 ∨ year % 400 = 0)

def daysInMonth (year month : ℕ) : ℕ :=
  match month with
  | 2 => if isLeap year then 29 else 28
  | 4 | 6 | 9 | 11 => 30
  | _ => 31

/-- The number of days before January 1st of `year`. -/
def daysBeforeYear (year : ℕ) : ℕ :=
  (year - 1) * 365 + (year - 1) / 4 - (year - 1) / 100 + (year - 1) / 400

/-- The number of days of `year` before the first day of `month`. -/
def daysBeforeMonth (year month : ℕ) : ℕ :=
  ((List.range (month - 1)).map fun m => daysInMonth year (m + 1)).sum

structure Date where
  year : ℕ
  month : ℕ
  day : ℕ
  year_pos : 1 ≤ year
  year_le : year ≤ 9999
  month_pos : 1 ≤ month
  month_le : month ≤ 12
  day_pos : 1 ≤ day
  day_le : day ≤ daysInMonth year month
deriving DecidableEq

/-- `n` in decimal, with zeros to the left up to `width` digits. -/
def zeroPad (width n : ℕ) : String :=
  let digits := toString n
  String.ofList (List.replicate (width - digits.length) '0') ++ digits

namespace Date

/-- `date.toordinal`: day 1 is January 1st of year 1. -/
def toOrdinal (d : Date) : ℕ := daysBeforeYear d.year + daysBeforeMonth d.year d.month + d.day

/-- `date.isoformat`: `YYYY-MM-DD`. -/
def isoformat (d : Date) : String :=
  zeroPad 4 d.year ++ "-" ++ zeroPad 2 d.month ++ "-" ++ zeroPad 2 d.day

end Date

/-! ### Datetimes -/

/-- A point of time, in microseconds. -/
abbrev Instant := ℤ

/-- The microseconds of an hour, and of a day. -/
def microsPerHour : ℤ := 3600000000
def microsPerDay : ℤ := 86400000000

/-- The offset of a wall clock from UTC: strictly less than a day either way. -/
structure UtcOffset where
  micros : ℤ
  gt : -86400000000 < micros
  lt : micros < 86400000000
deriving DecidableEq

structure DateTime where
  date : Date
  hour : Fin 24
  minute : Fin 60
  second : Fin 60
  microsecond : Fin 1000000
  /-- `none` for a naive datetime. -/
  utcoffset : Option UtcOffset
deriving DecidableEq

namespace DateTime

/-- The time of day in microseconds. -/
def timeOfDay (t : DateTime) : ℕ :=
  t.hour * 3600000000 + t.minute * 60000000 + t.second * 1000000 + t.microsecond

/-- The reading of the wall clock, in microseconds. -/
def wall (t : DateTime) : ℤ := t.date.toOrdinal * 86400000000 + t.timeOfDay

def offset (t : DateTime) : ℤ := (t.utcoffset.map UtcOffset.micros).getD 0

/-- The point of time that the database stores. -/
def instant (t : DateTime) : Instant := t.wall - t.offset

/-- `a - b`, a `timedelta` in microseconds; `TypeError` between a naive and an aware datetime. -/
def sub (a b : DateTime) : Except Exc ℤ :=
  if a.utcoffset.isSome = b.utcoffset.isSome then .ok (a.instant - b.instant)
  else .error .typeError

/-- `a <= b`; `TypeError` between a naive and an aware datetime. -/
def le (a b : DateTime) : Except Exc Bool := do
  let d ← a.sub b
  return d ≤ 0

/-- `:MM` or `:SS`. -/
def colonPad (n : ℕ) : String := ":" ++ zeroPad 2 n

/-- `.ffffff`, or nothing if there are no microseconds. -/
def microText (n : ℕ) : String := if n = 0 then "" else "." ++ zeroPad 6 n

/-- The offset in `datetime.isoformat`: `+HH:MM`, then seconds and microseconds if it has any. -/
def offsetText (o : UtcOffset) : String :=
  let a := o.micros.natAbs
  let seconds := a / 1000000 % 60
  let micros := a % 1000000
  (if o.micros < 0 then "-" else "+") ++ zeroPad 2 (a / 3600000000)
    ++ colonPad (a / 60000000 % 60)
    ++ (if seconds = 0 ∧ micros = 0 then "" else colonPad seconds ++ microText micros)

/-- `datetime.isoformat`. -/
def isoformat (t : DateTime) : String :=
  t.date.isoformat ++ "T" ++ zeroPad 2 t.hour ++ colonPad t.minute ++ colonPad t.second
    ++ microText t.microsecond ++ (t.utcoffset.map offsetText).getD ""

end DateTime

namespace Instant

/-- `.hour` of the datetime that the driver returns for a stored timestamp, in UTC. -/
def hour (t : Instant) : ℤ := t / microsPerHour % 24

/-- `datetime.combine(d, time(hour=h))`, a naive datetime, as the instant that the driver sends. -/
def combine (d : Date) (h : ℤ) : Instant := d.toOrdinal * microsPerDay + h * microsPerHour

theorem combine_le_combine_iff {d : Date} {h k : ℤ} : combine d h ≤ combine d k ↔ h ≤ k := by
  unfold combine microsPerHour Instant
  omega

/-- The hours of a day begin one after the other. -/
theorem hour_lt_iff {d : Date} {t : Instant} {k : ℤ} (h0 : combine d 0 ≤ t)
    (h24 : t < combine d 24) : hour t < k ↔ t < combine d k := by
  unfold combine microsPerHour microsPerDay Instant at *
  unfold hour microsPerHour
  omega

end Instant

end BookingApi
