import LogQuery.Text.Basic
/-!
# Dates and times of day

The proleptic Gregorian calendar of the years 1 to 9999. A date carries the proof that it
exists, and so does a time of day. `Date.ordinal` numbers the dates from 1, and
`Date.ofOrdinal?` goes the other way.
-/
namespace LogQuery

/-- A year with a 29th of February. -/
def isLeapYear (year : Nat) : Bool :=
  year % 4 = 0 && (year % 100 ≠ 0 || year % 400 = 0)

def daysInMonth (year month : Nat) : Nat :=
  match month with
  | 2 => if isLeapYear year then 29 else 28
  | 4 | 6 | 9 | 11 => 30
  | _ => 31

/-- The date with these numbers exists. -/
def IsDate (year month day : Nat) : Prop :=
  (1 ≤ year ∧ year ≤ 9999) ∧ (1 ≤ month ∧ month ≤ 12) ∧ 1 ≤ day ∧ day ≤ daysInMonth year month

instance (year month day : Nat) : Decidable (IsDate year month day) := by
  unfold IsDate; infer_instance

/-- A day of the calendar. -/
structure Date where
  year : Nat
  month : Nat
  day : Nat
  isDate : IsDate year month day
  deriving DecidableEq

/-- The time of day with these numbers exists; there are no leap seconds. -/
def IsTimeOfDay (hour minute second micro : Nat) : Prop :=
  hour < 24 ∧ minute < 60 ∧ second < 60 ∧ micro < 1000000

instance (hour minute second micro : Nat) : Decidable (IsTimeOfDay hour minute second micro) := by
  unfold IsTimeOfDay; infer_instance

/-- A time of day, to the microsecond. -/
structure TimeOfDay where
  hour : Nat
  minute : Nat
  second : Nat
  micro : Nat
  isTimeOfDay : IsTimeOfDay hour minute second micro
  deriving DecidableEq

namespace Date

instance : Inhabited Date := ⟨⟨1, 1, 1, by decide⟩⟩

/-- The date with these numbers, if it exists. -/
def of? (year month day : Nat) : Option Date :=
  if h : IsDate year month day then some ⟨year, month, day, h⟩ else none

def daysBeforeYear (year : Nat) : Nat :=
  let y := year - 1
  y * 365 + y / 4 - y / 100 + y / 400

/-- The number of days of a year before one of its months. -/
def daysBeforeMonth (year month : Nat) : Nat :=
  (List.range (month - 1)).foldl (fun days m => days + daysInMonth year (m + 1)) 0

def dayOfYear (d : Date) : Nat := daysBeforeMonth d.year d.month + d.day

/-- The number of a date; the first of January of the year 1 is 1. -/
def ordinal (d : Date) : Nat := daysBeforeYear d.year + d.dayOfYear

def lastOrdinal : Nat := 3652059

/-- The year and the day of that year, both counted from zero, of a day counted from zero: whole
periods of 400, 100, 4 years and one year are taken off, and the last day of a period that ends
with a leap day belongs to its last year. -/
def yearOfDay (day : Nat) : Nat × Nat :=
  let r400 := day % 146097
  let centuries := min 3 (r400 / 36524)
  let r100 := r400 - centuries * 36524
  let r4 := r100 % 1461
  let years := min 3 (r4 / 365)
  (day / 146097 * 400 + centuries * 100 + r100 / 1461 * 4 + years, r4 - years * 365)

/-- The month and the day of the month, from 1, of a day of the year counted from zero, looking
through the given months. -/
def monthOfDay (year : Nat) : (months : List Nat) → (day : Nat) → Nat × Nat
  | [], day => (0, day)
  | m :: months, day =>
    if day < daysInMonth year m then (m, day + 1)
    else monthOfDay year months (day - daysInMonth year m)

/-- The date with a given number. -/
def ofOrdinal? (n : Nat) : Option Date :=
  if n = 0 then none
  else
    let (year, day) := yearOfDay (n - 1)
    let (month, day) := monthOfDay (year + 1) (List.range' 1 12) day
    of? (year + 1) month day

/-- The day of the week, from Monday as 0. -/
def weekday (d : Date) : Nat := (d.ordinal + 6) % 7

def monthNames : List String :=
  ["January", "February", "March", "April", "May", "June", "July", "August", "September",
    "October", "November", "December"]

/-- The English names of the days of the week, from Monday. -/
def weekdayNames : List String :=
  ["Monday", "Tuesday", "Wednesday", "Thursday", "Friday", "Saturday", "Sunday"]

/-- The first three letters of a name. -/
def shortName (name : String) : Text := (Text.ofString name).take 3

end Date

/-- Seconds since the beginning of the year 1 at which a year begins. -/
def yearBegins (year : Nat) : Int := (Date.daysBeforeYear year : Int) * 86400

/-- The year of a number of seconds since the beginning of the year 1. -/
def yearOfSeconds (seconds : Int) : Nat := (Date.yearOfDay (seconds.fdiv 86400).toNat).1 + 1

namespace TimeOfDay

/-- The time of day with these numbers, if it exists. -/
def of? (hour minute second micro : Nat) : Option TimeOfDay :=
  if h : IsTimeOfDay hour minute second micro then some ⟨hour, minute, second, micro, h⟩ else none

/-- The first moment of a day. -/
def midnight : TimeOfDay := ⟨0, 0, 0, 0, by decide⟩

instance : Inhabited TimeOfDay := ⟨midnight⟩

/-- Microseconds since midnight. -/
def micros (t : TimeOfDay) : Nat := ((t.hour * 60 + t.minute) * 60 + t.second) * 1000000 + t.micro

def microsPerDay : Nat := 86400000000

/-- The time of day a number of microseconds after midnight; whole days are dropped. -/
def ofMicros (n : Nat) : TimeOfDay where
  hour := n / 3600000000 % 24
  minute := n / 60000000 % 60
  second := n / 1000000 % 60
  micro := n % 1000000
  isTimeOfDay := by
    refine ⟨?_, ?_, ?_, ?_⟩ <;> exact Nat.mod_lt _ (by decide)

end TimeOfDay
end LogQuery
