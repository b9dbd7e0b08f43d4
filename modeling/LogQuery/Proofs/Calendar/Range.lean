import LogQuery.Calendar.Moment
import Mathlib.Tactic.IntervalCases
/-!
# The range of the calendar

The days of the years 1 to 9999 have the numbers from 1 to `Date.lastOrdinal`, and every one of these
numbers is the number of a day. So a reading is some number of microseconds that is not negative and
below `Moment.endMicros`, and a moment can be read off the clock of another zone unless its instant or
that reading is outside of this range (`inZone?_eq_none_iff`).
-/
namespace LogQuery

namespace Date

def daysInMonths (year : Nat) (months : List Nat) : Nat := (months.map (daysInMonth year)).sum

theorem monthOfDay_spec (year : Nat) : ∀ (months : List Nat) (day : Nat), day < daysInMonths year months →
    (monthOfDay year months day).1 ∈ months ∧ 1 ≤ (monthOfDay year months day).2 ∧
      (monthOfDay year months day).2 ≤ daysInMonth year (monthOfDay year months day).1
  | [], day, h => absurd h (Nat.not_lt_zero day)
  | m :: months, day, h => by
    rw [daysInMonths, List.map_cons, List.sum_cons] at h
    unfold monthOfDay
    split
    next hday => exact ⟨List.mem_cons_self, Nat.succ_le_succ (Nat.zero_le day), hday⟩
    next hday =>
      obtain ⟨hmem, hspec⟩ := monthOfDay_spec year months (day - daysInMonth year m)
        (by rw [daysInMonths]; omega)
      exact ⟨List.mem_cons_of_mem m hmem, hspec⟩

theorem daysInMonths_year (year : Nat) :
    daysInMonths year (List.range' 1 12) = if isLeapYear year then 366 else 365 := by
  simp only [daysInMonths, List.range', List.map_cons, List.map_nil, daysInMonth, List.sum_cons,
    List.sum_nil]
  cases isLeapYear year <;> rfl

/-- A day as its year and the day of that year: whole periods of 400, 100, 4 years and one year. Only the
last of four years has a leap day, and only the last of four centuries ends with one. -/
structure IsDayOf (day year rest : Nat) : Prop where
  split : ∃ periods centuries fours years, year = periods * 400 + centuries * 100 + fours * 4 + years ∧
    day = periods * 146097 + centuries * 36524 + fours * 1461 + years * 365 + rest ∧
    centuries ≤ 3 ∧ fours ≤ 24 ∧ years ≤ 3 ∧ rest ≤ 365 ∧ (rest = 365 → years = 3) ∧
    (centuries < 3 → fours * 1461 + years * 365 + rest < 36524)

theorem isDayOf_yearOfDay (day : Nat) : IsDayOf day (yearOfDay day).1 (yearOfDay day).2 := by
  simp only [yearOfDay]
  refine ⟨_, _, _, _, rfl, ?_, ?_, ?_, ?_, ?_, ?_, ?_⟩ <;> omega

theorem IsDayOf.year_lt_iff {day year rest : Nat} (h : IsDayOf day year rest) :
    year < 9999 ↔ day < lastOrdinal := by
  obtain ⟨periods, centuries, fours, years, rfl, rfl, hcenturies, hfours, hyears, hrest, hleap, hlast⟩ :=
    h.split
  unfold lastOrdinal
  rcases Nat.lt_trichotomy periods 24 with hperiods | rfl | hperiods
  · constructor <;> omega
  · interval_cases centuries <;> constructor <;> omega
  · constructor <;> omega

theorem IsDayOf.rest_lt {day year rest : Nat} (h : IsDayOf day year rest) :
    rest < if isLeapYear (year + 1) then 366 else 365 := by
  obtain ⟨periods, centuries, fours, years, rfl, -, hcenturies, hfours, hyears, hrest, hlast, hcentury⟩ :=
    h.split
  by_cases hleap : rest = 365
  · obtain rfl := hlast hleap
    have hyear : isLeapYear (periods * 400 + centuries * 100 + fours * 4 + 3 + 1) = true := by
      simp only [isLeapYear, Bool.and_eq_true, Bool.or_eq_true, decide_eq_true_eq]
      omega
    rw [if_pos hyear]
    omega
  · split <;> omega

theorem of?_eq_none_iff (year month day : Nat) : of? year month day = none ↔ ¬ IsDate year month day := by
  unfold of?
  split
  next hdate => simp only [reduceCtorEq, hdate, not_true]
  next hdate => simp only [hdate, not_false_eq_true]

/-- **The numbers of the days** are those from 1 to the last one. -/
theorem ofOrdinal?_eq_none_iff (n : Nat) : ofOrdinal? n = none ↔ n = 0 ∨ lastOrdinal < n := by
  unfold ofOrdinal?
  by_cases hzero : n = 0
  · simp only [hzero, if_true, true_or]
  have hyear := (isDayOf_yearOfDay (n - 1)).year_lt_iff
  have hday := (isDayOf_yearOfDay (n - 1)).rest_lt
  rw [← daysInMonths_year] at hday
  obtain ⟨hmonth, hfirst, hlast⟩ := monthOfDay_spec _ _ _ hday
  rw [List.mem_range'_1] at hmonth
  simp only [hzero, if_false, false_or]
  rw [of?_eq_none_iff, IsDate]
  omega

end Date

namespace Moment

def endMicros : Int := (Date.lastOrdinal : Int) * TimeOfDay.microsPerDay

/-- A number of microseconds after the beginning of the year 1 that the calendar has. -/
def IsReading (micros : Int) : Prop := 0 ≤ micros ∧ micros < endMicros

theorem ofWallMicros?_eq_none_iff (micros : Int) (zone : Zone) (later : Bool) :
    ofWallMicros? micros zone later = none ↔ ¬ IsReading micros := by
  unfold ofWallMicros? IsReading endMicros
  split
  next hneg => simp only [true_iff]; omega
  next hnonneg =>
    rw [Option.map_eq_none_iff, Date.ofOrdinal?_eq_none_iff]
    simp only [TimeOfDay.microsPerDay, Date.lastOrdinal]
    omega

variable [ZoneDatabase]

/-- What a zone's clock shows at an instant, in microseconds. -/
def readingAt (t : Int) (zone : Zone) : Int := t + zone.offsetAtInstant (t.fdiv 1000000) * 1000000

/-- A moment that the clock of a zone cannot show: it is read off another clock, and its instant or the
reading of that clock is outside of the calendar. -/
def IsBeyond (m : Moment) (zone : Zone) : Prop :=
  m.zone ≠ zone ∧ ¬ (IsReading m.instant ∧ IsReading (readingAt m.instant zone))

/-- **The moments without a reading** on the clock of a zone. -/
theorem inZone?_eq_none_iff (m : Moment) (zone : Zone) : m.inZone? zone = none ↔ m.IsBeyond zone := by
  unfold inZone? IsBeyond
  by_cases hzone : m.zone = zone
  · simp only [hzone, if_true, reduceCtorEq, ne_eq, not_true, false_and]
  rw [if_neg hzone]
  unfold ofInstant?
  have hinstant := ofWallMicros?_eq_none_iff m.instant .utc false
  have hreading := ofWallMicros?_eq_none_iff (readingAt m.instant zone) zone
    (zone.isLaterAt (m.instant.fdiv 1000000))
  rw [readingAt] at hreading ⊢
  cases hutc : ofWallMicros? m.instant .utc false with
  | none =>
    have hout := hinstant.mp hutc
    simp only [Option.bind_eq_bind, Option.bind_none, true_iff]
    exact ⟨hzone, fun h => hout h.1⟩
  | some utc =>
    have hin : IsReading m.instant := by
      by_contra hout
      rw [hinstant.mpr hout] at hutc
      cases hutc
    exact hreading.trans ⟨fun hout => ⟨hzone, fun h => hout h.2⟩, fun h hread => h.2 ⟨hin, hread⟩⟩

end Moment

/-! ## Away from the ends -/

/-- A clock that is never more than a day ahead or behind. -/
structure RegionClock.IsWithinDay (c : RegionClock) : Prop where
  offsetAtInstant : ∀ t, (c.offsetAtInstant t).natAbs ≤ 86400
  offsetAtWall : ∀ later wall, (c.offsetAtWall later wall).natAbs ≤ 86400

section

variable [ZoneDatabase]

/-- A zone whose clock is never more than a day ahead or behind. -/
def Zone.IsWithinDay : Zone → Prop
  | utc => True
  | fixed offset _ _ => offset.natAbs ≤ 86400
  | region name => (regionClock name).IsWithinDay

theorem Zone.IsWithinDay.natAbs_offsetAtInstant {zone : Zone} (h : zone.IsWithinDay) (t : Int) :
    (zone.offsetAtInstant t).natAbs ≤ 86400 := by
  cases zone with
  | utc => exact Nat.zero_le 86400
  | fixed offset name object => exact h
  | region name => exact RegionClock.IsWithinDay.offsetAtInstant h t

theorem Zone.IsWithinDay.natAbs_offsetAtWall {zone : Zone} (h : zone.IsWithinDay) (later : Bool)
    (wall : Int) : (zone.offsetAtWall later wall).natAbs ≤ 86400 := by
  cases zone with
  | utc => exact Nat.zero_le 86400
  | fixed offset name object => exact h
  | region name => exact RegionClock.IsWithinDay.offsetAtWall h later wall

/-- A moment at least a day away from both ends of the calendar. -/
def Moment.IsInner (m : Moment) : Prop :=
  (TimeOfDay.microsPerDay : Int) ≤ m.instant ∧ m.instant + TimeOfDay.microsPerDay < endMicros

/-- **Away from the ends** every clock that is at most a day ahead or behind shows a moment. -/
theorem Moment.IsInner.not_isBeyond {m : Moment} {zone : Zone} (h : m.IsInner)
    (hzone : zone.IsWithinDay) : ¬ m.IsBeyond zone := by
  rintro ⟨-, hout⟩
  obtain ⟨hfirst, hlast⟩ := h
  have hoffset := hzone.natAbs_offsetAtInstant (m.instant.fdiv 1000000)
  refine hout ⟨⟨?_, ?_⟩, ?_, ?_⟩ <;> simp only [readingAt, TimeOfDay.microsPerDay] at * <;> omega

end

end LogQuery
