import LogQuery.Calendar.Region
import LogQuery.Proofs.Calendar.Instant
/-!
# Clocks with a yearly rule read back

A rule is looked up by the year of the instant when a clock is read and by the year of the reading when
the reading is placed again, and the two may differ in the hours around New Year. As clocks change well
inside of a year (`SummerTime.IsRegular`), both years say the same, so that the clock of every region reads
back (`Region.readsBack`).
-/
namespace LogQuery

/-! ## Years -/

theorem yearBegins_succ (year : Nat) :
    yearBegins (year + 2) = yearBegins (year + 1) + 31536000 ∨
      yearBegins (year + 2) = yearBegins (year + 1) + 31622400 := by
  rw [yearBegins, yearBegins, Date.daysBeforeYear_succ]
  split <;> omega

theorem yearOfSeconds_spec {seconds : Int} (h : 0 ≤ seconds) : 1 ≤ yearOfSeconds seconds ∧
    yearBegins (yearOfSeconds seconds) ≤ seconds ∧ seconds < yearBegins (yearOfSeconds seconds + 1) := by
  have hdays := Date.isDayOf_yearOfDay (seconds.fdiv 86400).toNat
  have hyear := Date.daysBeforeYear_of_isDayOf hdays
  have hnext := Date.daysBeforeYear_succ (Date.yearOfDay (seconds.fdiv 86400).toNat).1
  have hrest := hdays.rest_lt
  have hdiv : seconds.fdiv 86400 = seconds / 86400 := Int.fdiv_eq_ediv_of_nonneg _ (by decide)
  rw [hdiv] at hyear hnext hrest
  simp only [yearOfSeconds, yearBegins, hdiv]
  refine ⟨Nat.succ_pos _, ?_, ?_⟩
  · omega
  · rw [hnext]
    omega

theorem yearBegins_add_le (year more : Nat) :
    yearBegins (year + 1) + 31536000 * more ≤ yearBegins (year + 1 + more) := by
  induction more with
  | zero => simp
  | succ more ih =>
    have hnext := yearBegins_succ (year + more)
    rw [show year + more + 2 = year + 1 + (more + 1) by omega,
      show year + more + 1 = year + 1 + more by omega] at hnext
    omega

theorem yearOfSeconds_near {t w : Int} (ht : 0 ≤ t) (hw : 0 ≤ w) (hnear : (w - t).natAbs ≤ 86400) :
    yearOfSeconds w = yearOfSeconds t ∨ yearOfSeconds w = yearOfSeconds t + 1 ∨
      yearOfSeconds t = yearOfSeconds w + 1 := by
  obtain ⟨hyear, hfirst, hlast⟩ := yearOfSeconds_spec ht
  obtain ⟨hyear', hfirst', hlast'⟩ := yearOfSeconds_spec hw
  generalize yearOfSeconds t = y at *
  generalize yearOfSeconds w = y' at *
  obtain ⟨y, rfl⟩ := Nat.exists_eq_add_of_le' hyear
  obtain ⟨y', rfl⟩ := Nat.exists_eq_add_of_le' hyear'
  rcases Nat.lt_trichotomy y y' with hlt | rfl | hlt
  · have hgap := yearBegins_add_le (y + 1) (y' - y - 1)
    rw [show y + 1 + 1 + (y' - y - 1) = y' + 1 by omega] at hgap
    omega
  · exact Or.inl rfl
  · have hgap := yearBegins_add_le (y' + 1) (y - y' - 1)
    rw [show y' + 1 + 1 + (y - y' - 1) = y + 1 by omega] at hgap
    omega

/-! ## Changes of the clocks -/

theorem ClockChange.sundayOrdinal_spec (c : ClockChange) (year : Nat)
    (hsunday : c.sunday = .last ∨ ∃ weeks ≤ 1, c.sunday = .fromFirst weeks) :
    Date.daysBeforeYear year + Date.daysBeforeMonth year c.month + 1 ≤ c.sundayOrdinal year ∧
      c.sundayOrdinal year ≤ Date.daysBeforeYear year + Date.daysBeforeMonth year c.month + 31 := by
  have hdays : 28 ≤ daysInMonth year c.month ∧ daysInMonth year c.month ≤ 31 := by
    unfold daysInMonth
    split <;> (try split) <;> omega
  rcases hsunday with hsunday | ⟨weeks, hweeks, hsunday⟩
  · simp only [sundayOrdinal, hsunday]
    omega
  · simp only [sundayOrdinal, hsunday]
    omega

/-- Clocks change well inside of a year, and the two changes of a year are always in the same order and far
from each other. -/
structure SummerTime.IsRegular (s : SummerTime) : Prop where
  saving : s.saving ≤ 7200
  begins : ∀ year, yearBegins (year + 1) + 259200 ≤ s.begins.instant (year + 1) ∧
    s.begins.instant (year + 1) + 259200 ≤ yearBegins (year + 2)
  ends : ∀ year, yearBegins (year + 1) + 259200 ≤ s.ends.instant (year + 1) ∧
    s.ends.instant (year + 1) + 259200 ≤ yearBegins (year + 2)
  ordered : (∀ year, s.begins.instant (year + 1) + 259200 ≤ s.ends.instant (year + 1)) ∨
    ∀ year, s.ends.instant (year + 1) + 259200 ≤ s.begins.instant (year + 1)

/-- The instant of a change lies in its month, give or take the hours behind that Sunday's beginning. -/
theorem ClockChange.instant_spec (c : ClockChange) (year : Nat)
    (hsunday : c.sunday = .last ∨ ∃ weeks ≤ 1, c.sunday = .fromFirst weeks) :
    yearBegins year + Date.daysBeforeMonth year c.month * 86400 + c.after ≤ c.instant year ∧
      c.instant year ≤
        yearBegins year + (Date.daysBeforeMonth year c.month + 30) * 86400 + c.after := by
  have := c.sundayOrdinal_spec year hsunday
  simp only [instant, yearBegins]
  omega

/-- A change falls into the month behind a day of the year, give or take a leap day. -/
def ClockChange.IsBehind (c : ClockChange) (seconds : Int) : Prop :=
  ∀ year, yearBegins year + seconds ≤ c.instant year ∧
    c.instant year ≤ yearBegins year + seconds + 2678400

theorem ClockChange.isBehind {c : ClockChange} {days : Nat} {seconds : Int}
    (hmonth : ∀ year, days ≤ Date.daysBeforeMonth year c.month ∧
      Date.daysBeforeMonth year c.month ≤ days + 1)
    (hsunday : c.sunday = .last ∨ ∃ weeks ≤ 1, c.sunday = .fromFirst weeks)
    (hseconds : seconds = days * 86400 + c.after) : c.IsBehind seconds := by
  intro year
  have := c.instant_spec year hsunday
  have := hmonth year
  omega

theorem SummerTime.isRegular_of_isBehind {s : SummerTime} {first last : Int} (hsaving : s.saving ≤ 7200)
    (hbegins : s.begins.IsBehind first) (hends : s.ends.IsBehind last)
    (hfirst : 259200 ≤ first ∧ first ≤ 28598400) (hlast : 259200 ≤ last ∧ last ≤ 28598400)
    (hapart : first + 2937600 ≤ last ∨ last + 2937600 ≤ first) : s.IsRegular := by
  refine ⟨hsaving, fun year => ?_, fun year => ?_, ?_⟩
  · have := hbegins (year + 1)
    have := yearBegins_succ year
    omega
  · have := hends (year + 1)
    have := yearBegins_succ year
    omega
  · rcases hapart with hapart | hapart
    · refine Or.inl fun year => ?_
      have := hbegins (year + 1)
      have := hends (year + 1)
      omega
    · refine Or.inr fun year => ?_
      have := hbegins (year + 1)
      have := hends (year + 1)
      omega

theorem daysBeforeMonth_bounds (year : Nat) :
    (59 ≤ Date.daysBeforeMonth year 3 ∧ Date.daysBeforeMonth year 3 ≤ 60) ∧
    (90 ≤ Date.daysBeforeMonth year 4 ∧ Date.daysBeforeMonth year 4 ≤ 91) ∧
    (273 ≤ Date.daysBeforeMonth year 10 ∧ Date.daysBeforeMonth year 10 ≤ 274) ∧
    (304 ≤ Date.daysBeforeMonth year 11 ∧ Date.daysBeforeMonth year 11 ≤ 305) := by
  simp only [Date.daysBeforeMonth, List.range, List.range.loop, List.foldl_cons, List.foldl_nil,
    daysInMonth]
  cases isLeapYear year <;> decide

theorem Region.isRegular {r : Region} {s : SummerTime} (h : r.rule.summer = some s) : s.IsRegular := by
  have hmarch := fun year => (daysBeforeMonth_bounds year).1
  have hapril := fun year => (daysBeforeMonth_bounds year).2.1
  have hoctober := fun year => (daysBeforeMonth_bounds year).2.2.1
  have hnovember := fun year => (daysBeforeMonth_bounds year).2.2.2
  cases r with
  | kolkata => cases h
  | tokyo => cases h
  | berlin =>
    cases h
    exact SummerTime.isRegular_of_isBehind (by decide)
      (ClockChange.isBehind hmarch (Or.inl rfl) rfl) (ClockChange.isBehind hoctober (Or.inl rfl) rfl)
      (by decide) (by decide) (by decide)
  | newYork =>
    cases h
    exact SummerTime.isRegular_of_isBehind (by decide)
      (ClockChange.isBehind hmarch (Or.inr ⟨1, by decide, rfl⟩) rfl)
      (ClockChange.isBehind hnovember (Or.inr ⟨0, by decide, rfl⟩) rfl)
      (by decide) (by decide) (by decide)
  | lordHowe =>
    cases h
    exact SummerTime.isRegular_of_isBehind (by decide)
      (ClockChange.isBehind hoctober (Or.inr ⟨0, by decide, rfl⟩) rfl)
      (ClockChange.isBehind hapril (Or.inr ⟨0, by decide, rfl⟩) rfl)
      (by decide) (by decide) (by decide)

namespace SummerTime

variable {s : SummerTime} {standard t : Int}

/-- Seconds that a clock is ahead of standard time at an instant. -/
def savingAt (s : SummerTime) (t : Int) : Int := if s.coversInstant t then (s.saving : Int) else 0

theorem covers_iff (begins ends reading : Int) : covers begins ends reading = true ↔
    (begins ≤ ends ∧ begins ≤ reading ∧ reading < ends) ∨
      (ends < begins ∧ (begins ≤ reading ∨ reading < ends)) := by
  unfold covers
  split
  next h => simp only [Bool.and_eq_true, decide_eq_true_eq]; omega
  next h => simp only [Bool.or_eq_true, decide_eq_true_eq]; omega

/-- Whether an instant or a reading lies in a season, by the changes of its year. -/
def InSeason (begins ends reading : Int) : Prop :=
  (begins ≤ ends ∧ begins ≤ reading ∧ reading < ends) ∨
    (ends < begins ∧ (begins ≤ reading ∨ reading < ends))

theorem coversWall_iff (later : Bool) (w : Int) : s.coversWall standard later w = true ↔
    InSeason (s.begins.instant (yearOfSeconds w)) (s.ends.instant (yearOfSeconds w))
      (w - standard - if later then 0 else (s.saving : Int)) := by
  rw [coversWall, covers_iff, InSeason]
  omega

theorem savingAt_cases (s : SummerTime) (t : Int) :
    (InSeason (s.begins.instant (yearOfSeconds t)) (s.ends.instant (yearOfSeconds t)) t ∧
      s.savingAt t = s.saving) ∨
    (¬ InSeason (s.begins.instant (yearOfSeconds t)) (s.ends.instant (yearOfSeconds t)) t ∧
      s.savingAt t = 0) := by
  have hseason : s.coversInstant t = true ↔ InSeason _ _ t := covers_iff _ _ t
  rw [savingAt, ← hseason]
  by_cases h : s.coversInstant t = true
  · exact Or.inl ⟨h, if_pos h⟩
  · exact Or.inr ⟨h, if_neg h⟩

theorem shift_cases (s : SummerTime) (t : Int) :
    ((s.ends.instant (yearOfSeconds t) ≤ t ∧ t < s.ends.instant (yearOfSeconds t) + s.saving) ∧
      (if s.repeats t then 0 else (s.saving : Int)) = 0) ∨
    (¬ (s.ends.instant (yearOfSeconds t) ≤ t ∧ t < s.ends.instant (yearOfSeconds t) + s.saving) ∧
      (if s.repeats t then 0 else (s.saving : Int)) = s.saving) := by
  have hrepeats : s.repeats t = true ↔ s.ends.instant (yearOfSeconds t) ≤ t ∧
      t < s.ends.instant (yearOfSeconds t) + s.saving := by
    simp only [repeats, Bool.and_eq_true, decide_eq_true_eq]
  rw [← hrepeats]
  by_cases h : s.repeats t = true
  · exact Or.inl ⟨h, if_pos h⟩
  · exact Or.inr ⟨h, if_neg h⟩

/-- **The season of a reading** is that of the instant at which it is shown. -/
theorem coversWall_reading (h : s.IsRegular) {w : Int} (hstandard : standard.natAbs ≤ 50400) (ht : 0 ≤ t)
    (hreading : 0 ≤ w) (hw : w = t + standard + s.savingAt t) :
    s.coversWall standard (s.repeats t) w = s.coversInstant t := by
  have hseason : s.coversInstant t = true ↔ InSeason _ _ t := covers_iff _ _ t
  have hsaving := h.saving
  have hsaved := s.savingAt_cases t
  have hshift := s.shift_cases t
  obtain ⟨hyear, hfirst, hlast⟩ := yearOfSeconds_spec ht
  obtain ⟨hyear', hfirst', hlast'⟩ := yearOfSeconds_spec hreading
  have hyears := yearOfSeconds_near ht hreading (by omega)
  rw [Bool.eq_iff_iff, coversWall_iff, hseason]
  generalize (if s.repeats t then 0 else (s.saving : Int)) = shift at hshift ⊢
  generalize s.savingAt t = saved at hsaved hw
  obtain ⟨y, hy⟩ := Nat.exists_eq_add_of_le' hyear
  obtain ⟨y', hy'⟩ := Nat.exists_eq_add_of_le' hyear'
  rw [hy] at hfirst hlast hyears hsaved hshift ⊢
  rw [hy'] at hfirst' hlast' hyears ⊢
  simp only [Nat.add_assoc, Nat.reduceAdd] at hlast hlast'
  have hbegins := h.begins y
  have hends := h.ends y
  have hbegins' := h.begins y'
  have hends' := h.ends y'
  simp only [InSeason] at hsaved ⊢
  -- The two changes of each year are in the same order, whichever hemisphere it is.
  have hordered : (s.begins.instant (y + 1) + 259200 ≤ s.ends.instant (y + 1) ∧
      s.begins.instant (y' + 1) + 259200 ≤ s.ends.instant (y' + 1)) ∨
      (s.ends.instant (y + 1) + 259200 ≤ s.begins.instant (y + 1) ∧
      s.ends.instant (y' + 1) + 259200 ≤ s.begins.instant (y' + 1)) := by
    rcases h.ordered with h | h
    · exact Or.inl ⟨h y, h y'⟩
    · exact Or.inr ⟨h y, h y'⟩
  rcases hyears with hsame | hnext | hnext
  · obtain rfl : y' = y := by omega
    rcases hordered with hordered | hordered <;> omega
  · obtain rfl : y' = y + 1 := by omega
    have hnewYear : yearBegins (y + 1 + 1) = yearBegins (y + 2) := rfl
    rcases hordered with hordered | hordered <;> omega
  · obtain rfl : y = y' + 1 := by omega
    have hnewYear : yearBegins (y' + 1 + 1) = yearBegins (y' + 2) := rfl
    rcases hordered with hordered | hordered <;> omega

end SummerTime

/-! ## The clocks of the regions -/

namespace Region

theorem standard_le (r : Region) : r.rule.standard.natAbs ≤ 50400 := by
  cases r <;> decide

/-- **The clocks of the regions** read back. -/
theorem readsBack (r : Region) : r.rule.clock.ReadsBack := by
  intro t ht hreading
  unfold ZoneRule.clock at hreading ⊢
  cases hsummer : r.rule.summer with
  | none => rfl
  | some s =>
    simp only [hsummer] at hreading ⊢
    rw [SummerTime.coversWall_reading (isRegular hsummer) r.standard_le ht hreading]
    rw [SummerTime.savingAt]
    omega

theorem isWithinDay (r : Region) : r.rule.clock.IsWithinDay := by
  have hstandard := r.standard_le
  unfold ZoneRule.clock
  cases hsummer : r.rule.summer with
  | none => exact ⟨fun _ => by simp only; omega, fun _ _ => by simp only; omega⟩
  | some s =>
    have hsaving := (isRegular hsummer).saving
    refine ⟨fun t => ?_, fun later wall => ?_⟩ <;> simp only <;> split <;> omega

attribute [local instance] database

theorem ofName?_name (r : Region) : ofName? r.name = some r := by
  cases r <;> decide

theorem regionClock_name (r : Region) : Zone.regionClock r.name = r.rule.clock := by
  simp only [Zone.regionClock, ZoneDatabase.region, ofName?_name]

theorem zone_isWithinDay (r : Region) : (Zone.region r.name).IsWithinDay := by
  rw [Zone.IsWithinDay, regionClock_name]
  exact r.isWithinDay

theorem zone_readsBack (r : Region) : (Zone.region r.name).ReadsBack := by
  rw [Zone.ReadsBack, regionClock_name]
  exact r.readsBack

end Region

end LogQuery
