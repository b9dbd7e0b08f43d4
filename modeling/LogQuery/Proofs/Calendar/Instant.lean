import LogQuery.Proofs.Calendar.Range
/-!
# Instants on other clocks

Reading a moment off another clock keeps its instant (`instant_of_inZone?`), also where clocks are set
forward and back, if the clock reads back: what it shows at an instant has the offset of that instant,
provided that the later of two equal readings is marked (`RegionClock.ReadsBack`).

The numbers of days and months are taken apart and put together again first (`ordinal_of_ofOrdinal?`), so
that a reading is the number of microseconds it was made from (`of_ofWallMicros?`).
-/
namespace LogQuery

namespace Date

theorem daysBeforeYear_of_isDayOf {day year rest : Nat} (h : IsDayOf day year rest) :
    daysBeforeYear (year + 1) + rest = day := by
  obtain ⟨periods, centuries, fours, years, rfl, rfl, hcenturies, hfours, hyears, -, -, -⟩ := h.split
  simp only [daysBeforeYear, Nat.add_sub_cancel]
  omega

theorem succ_div_period (year period : Nat) :
    (year + 1) / period = year / period + if (year + 1) % period = 0 then 1 else 0 := by
  rw [Nat.succ_div]
  simp only [Nat.dvd_iff_mod_eq_zero]

theorem daysBeforeYear_succ (year : Nat) :
    daysBeforeYear (year + 2) = daysBeforeYear (year + 1) + if isLeapYear (year + 1) then 366 else 365 := by
  have hfours := succ_div_period year 4
  have hcenturies := succ_div_period year 100
  have hperiods := succ_div_period year 400
  have hle : year / 100 ≤ year / 4 := Nat.div_le_div_left (by decide) (by decide)
  simp only [daysBeforeYear, isLeapYear, Nat.add_sub_cancel, Bool.and_eq_true, Bool.or_eq_true,
    decide_eq_true_eq]
  show (year + 1) * 365 + (year + 1) / 4 - (year + 1) / 100 + (year + 1) / 400 = _
  rw [hfours, hcenturies, hperiods]
  by_cases hfour : (year + 1) % 4 = 0
  · by_cases hcentury : (year + 1) % 100 = 0
    · by_cases hperiod : (year + 1) % 400 = 0
      · simp [hfour, hcentury, hperiod]
        omega
      · simp [hfour, hcentury, hperiod]
        omega
    · have hperiod : (year + 1) % 400 ≠ 0 := by omega
      simp [hfour, hcentury, hperiod]
      omega
  · have hcentury : (year + 1) % 100 ≠ 0 := by omega
    have hperiod : (year + 1) % 400 ≠ 0 := by omega
    simp [hfour, hcentury, hperiod]
    omega

theorem daysBeforeMonth_succ (year : Nat) {month : Nat} (h : 1 ≤ month) :
    daysBeforeMonth year (month + 1) = daysBeforeMonth year month + daysInMonth year month := by
  obtain ⟨m, rfl⟩ := Nat.exists_eq_add_of_le' h
  simp only [daysBeforeMonth, Nat.add_sub_cancel, List.range_succ, List.foldl_append, List.foldl_cons,
    List.foldl_nil]

theorem dayOfYear_monthOfDay (year : Nat) : ∀ (count first day : Nat), 1 ≤ first →
    day < daysInMonths year (List.range' first count) →
    daysBeforeMonth year (monthOfDay year (List.range' first count) day).1
      + (monthOfDay year (List.range' first count) day).2 = daysBeforeMonth year first + day + 1
  | 0, first, day, _, h => absurd h (Nat.not_lt_zero day)
  | count + 1, first, day, hfirst, h => by
    rw [List.range'_succ, daysInMonths, List.map_cons, List.sum_cons] at h
    rw [List.range'_succ]
    unfold monthOfDay
    split
    · rfl
    next hday =>
      have ih := dayOfYear_monthOfDay year count (first + 1) (day - daysInMonth year first) (by omega)
        (by rw [daysInMonths]; omega)
      rw [daysBeforeMonth_succ year hfirst] at ih
      rw [ih]
      omega

theorem ordinal_of_ofOrdinal? {n : Nat} {d : Date} (h : ofOrdinal? n = some d) : d.ordinal = n := by
  unfold ofOrdinal? at h
  split at h
  · cases h
  next hzero =>
    have hdays := isDayOf_yearOfDay (n - 1)
    have hrest := hdays.rest_lt
    rw [← daysInMonths_year] at hrest
    have hyear := daysBeforeYear_of_isDayOf hdays
    have hmonth := dayOfYear_monthOfDay _ 12 1 _ (Nat.le_refl 1) hrest
    simp only [of?] at h
    split at h
    next hdate =>
      obtain rfl := Option.some.inj h
      simp only [ordinal, dayOfYear]
      rw [hmonth]
      show _ + (0 + _ + 1) = _
      omega
    next => cases h

end Date

theorem TimeOfDay.micros_ofMicros (n : Nat) : (ofMicros n).micros = n % microsPerDay := by
  simp only [micros, ofMicros, microsPerDay]
  omega

namespace Moment

variable {m m' : Moment} {zone : Zone}

/-- **A reading** is the number of microseconds that it was made from. -/
theorem of_ofWallMicros? {micros : Int} {later : Bool} (h : ofWallMicros? micros zone later = some m) :
    (m.wallMicros : Int) = micros ∧ m.zone = zone ∧ m.later = later := by
  unfold ofWallMicros? at h
  split at h
  · cases h
  next hneg =>
    obtain ⟨date, hdate, rfl⟩ := Option.map_eq_some_iff.mp h
    refine ⟨?_, rfl, rfl⟩
    simp only [wallMicros, Date.ordinal_of_ofOrdinal? hdate, TimeOfDay.micros_ofMicros,
      TimeOfDay.microsPerDay]
    omega

end Moment

/-! ## Readings -/

/-- A clock whose readings have the offsets of the instants at which they are shown. -/
def RegionClock.ReadsBack (c : RegionClock) : Prop :=
  ∀ t, 0 ≤ t → 0 ≤ t + c.offsetAtInstant t →
    c.offsetAtWall (c.isLaterAt t) (t + c.offsetAtInstant t) = c.offsetAtInstant t

/-- A clock that is never changed. -/
def RegionClock.IsSteady (c : RegionClock) : Prop :=
  ∃ offset, ∀ later wall, c.offsetAtWall later wall = offset

namespace Zone

variable [ZoneDatabase] {zone : Zone}

def ReadsBack : Zone → Prop
  | region name => (regionClock name).ReadsBack
  | _ => True

def IsSteady : Zone → Prop
  | region name => (regionClock name).IsSteady
  | _ => True

/-- **The offset of a reading** is that of the instant at which it is shown. -/
theorem ReadsBack.offsetAtWall_reading {t w : Int} (h : zone.ReadsBack) (ht : 0 ≤ t) (hreading : 0 ≤ w)
    (hw : w = t + zone.offsetAtInstant t) :
    zone.offsetAtWall (zone.isLaterAt t) w = zone.offsetAtInstant t := by
  subst hw
  cases zone with
  | utc => simp only [offsetAtWall, offsetAtInstant]
  | fixed offset name object => simp only [offsetAtWall, offsetAtInstant]
  | region name => exact h t ht hreading

theorem IsSteady.offset_eq {m m' : Moment} (h : m.zone.IsSteady) (hzone : m'.zone = m.zone) :
    m'.offset = m.offset := by
  rw [Moment.offset, Moment.offset, hzone]
  cases hz : m.zone with
  | utc => simp only [offsetAtWall]
  | fixed offset name object => simp only [offsetAtWall]
  | region name =>
    rw [hz] at h
    obtain ⟨offset, h⟩ := h
    exact (h _ _).trans (h _ _).symm

end Zone

namespace Moment

variable [ZoneDatabase] {m m' : Moment} {zone : Zone}

theorem zone_of_inZone? (h : m.inZone? zone = some m') : m'.zone = zone := by
  unfold inZone? at h
  split at h
  next hzone => exact Option.some.inj h ▸ hzone
  · obtain ⟨-, -, h⟩ := Option.bind_eq_some_iff.mp h
    exact (of_ofWallMicros? h).2.1

/-- **The instant stays** when a moment is read off another clock. -/
theorem instant_of_inZone? (hreads : zone.ReadsBack) (h : m.inZone? zone = some m') :
    m'.instant = m.instant := by
  unfold inZone? at h
  split at h
  · rw [Option.some.inj h]
  obtain ⟨utc, hutc, h⟩ := Option.bind_eq_some_iff.mp h
  obtain ⟨hinstant, -, -⟩ := of_ofWallMicros? hutc
  obtain ⟨hmicros, hzone, hlater⟩ := of_ofWallMicros? h
  have hseconds : m.instant.fdiv 1000000 = m.instant / 1000000 :=
    Int.fdiv_eq_ediv_of_nonneg _ (by decide)
  rw [hseconds] at hmicros hlater
  have hwall : m'.wallSeconds = m.instant / 1000000 + zone.offsetAtInstant (m.instant / 1000000) := by
    rw [wallSeconds]
    omega
  have hoffset : m'.offset = zone.offsetAtInstant (m.instant / 1000000) := by
    rw [offset, hzone, hlater]
    exact hreads.offsetAtWall_reading (by omega) (by rw [wallSeconds]; omega) hwall
  rw [instant, hmicros, hoffset]
  omega

end Moment

end LogQuery
