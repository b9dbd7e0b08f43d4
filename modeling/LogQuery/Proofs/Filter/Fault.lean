import LogQuery.Calendar.Region
import LogQuery.Proofs.Calendar.Range
import LogQuery.Proofs.Filter.Read
import LogQuery.Proofs.Text.Split
/-!
# Filters that break down

A filter that cannot be read is reported with an error that says why. Two things break down instead, both
in a bound of a time range: a step back whose number has too many digits to be read, and a moment that the
clock of the settings cannot show because it lies at an end of the calendar (`BoundBreaks`).

* `timeBound_eq_fault`, `timeBounds_eq_fault`: when the bounds of a time range break down, and how.
* `read_eq_fault`: filters break down when their bounds do, and for no other reason.
* `readAll_eq_fault`: of several filters the first that cannot be read decides.
-/
namespace LogQuery.Filter

/-- A bound of a time range breaks down. -/
inductive BoundBreaks [ZoneDatabase] (zone : Zone) (now : Moment) (bound : Text) : Fault → Prop
  /-- It is a step back whose number has too many digits. -/
  | longStep {step : Step} (hstep : Step.ofText? bound = some step)
    (hlong : Integer.maxDigits < step.digits.length) :
    BoundBreaks zone now bound (.badValue (IntegerError.tooLong step.digits.length).message)
  /-- It means a moment that the clock of the settings cannot show. -/
  | beyond {m : Moment} (hm : resolve bound now = .ok m) (hbeyond : m.IsBeyond zone) :
    BoundBreaks zone now bound (.overflow "date value out of range")

/-- A time range breaks down: the present cannot be shown, or the first of its bounds that is no moment
breaks down. -/
inductive RangeBreaks [ZoneDatabase] (settings : TimeSettings) (first last : Text) : Fault → Prop
  | now (h : settings.now.IsBeyond settings.zone) :
    RangeBreaks settings first last (.overflow "date value out of range")
  | first {now : Moment} {f : Fault} (hnow : settings.now.inZone? settings.zone = some now)
    (h : BoundBreaks settings.zone now first f) : RangeBreaks settings first last f
  | last {now m : Moment} {f : Fault} (hnow : settings.now.inZone? settings.zone = some now)
    (hfirst : meant? settings first = some m) (h : BoundBreaks settings.zone now last f) :
    RangeBreaks settings first last f

/-- One of the formats that write every moment. -/
def HasNamedFormat (settings : TimeSettings) : Prop :=
  settings.format = .rfc3339 ∨ settings.format = .timestamp

section
variable {expression first last bound key : Text} {settings : TimeSettings} {aliases : Aliases}
  {now : Moment} {f : Fault}

theorem HasNamedFormat.exists_text [ZoneDatabase] (h : HasNamedFormat settings) (m : Moment) :
    ∃ v, formatMoment m settings.format = .ok v := by
  rcases h with h | h <;> rw [h] <;> exact ⟨_, rfl⟩

/-! ## Bounds -/

theorem Step.ofText?_now {token : Text} (h : token.isString "now" = true) : Step.ofText? token = none := by
  rw [isString_iff] at h
  rw [h]
  rfl

theorem before_eq_fault {step : Step} : step.before bound now = .error (.fault f) ↔
    Integer.maxDigits < step.digits.length ∧
      f = .badValue (IntegerError.tooLong step.digits.length).message := by
  unfold Step.before
  split
  next hlong =>
    simp only [Except.error.injEq, DateFailure.fault.injEq, hlong, true_and]
    exact eq_comm
  next hshort =>
    simp only [hshort, false_and, iff_false]
    intro h
    split at h
    · cases h
    split at h
    · cases h
    split at h <;> cases h

theorem resolve_eq_fault : resolve bound now = .error (.fault f) ↔
    ∃ step, Step.ofText? bound = some step ∧ Integer.maxDigits < step.digits.length ∧
      f = .badValue (IntegerError.tooLong step.digits.length).message := by
  unfold resolve
  split
  next hnow => simp [Step.ofText?_now hnow]
  next =>
    cases hstep : Step.ofText? bound with
    | some step => simp only [before_eq_fault, Option.some.injEq, exists_eq_left']
    | none =>
      simp only [reduceCtorEq, false_and, exists_false, iff_false]
      intro h
      split at h <;> cases h

variable [ZoneDatabase]

theorem moved_eq_fault {m : Moment} {zone : Zone} : moved m zone = .error (.fault f) ↔
    m.IsBeyond zone ∧ f = .overflow "date value out of range" := by
  rw [← Moment.inZone?_eq_none_iff]
  unfold moved
  cases m.inZone? zone with
  | some m => simp
  | none => simp [eq_comm]

/-- **When a bound breaks down**, and how. -/
theorem timeBound_eq_fault (hformat : HasNamedFormat settings) :
    timeBound expression settings now bound = .error (.fault f) ↔
      BoundBreaks settings.zone now bound f := by
  unfold timeBound
  rw [bind_eq_error_iff]
  constructor
  · rintro (h | ⟨m, hm, h⟩)
    · obtain ⟨cause, hcause, he⟩ := eq_error_of_mapError h
      cases cause with
      | error e => cases he
      | fault f' =>
        cases he
        obtain ⟨step, hstep, hlong, rfl⟩ := resolve_eq_fault.mp hcause
        exact .longStep hstep hlong
    rcases eq_error_of_bind h with h | ⟨m', -, h⟩
    · obtain ⟨hbeyond, rfl⟩ := moved_eq_fault.mp h
      exact .beyond (eq_ok_of_mapError hm) hbeyond
    · obtain ⟨v, hv⟩ := hformat.exists_text m'
      rw [hv] at h
      cases h
  · rintro (⟨hstep, hlong⟩ | ⟨hm, hbeyond⟩)
    · rw [resolve_eq_fault.mpr ⟨_, hstep, hlong, rfl⟩]
      exact Or.inl rfl
    · refine Or.inr ⟨_, by rw [hm]; rfl, bind_eq_error_iff.mpr (Or.inl ?_)⟩
      exact moved_eq_fault.mpr ⟨hbeyond, rfl⟩

theorem moved_eq_ok_iff {m m' : Moment} {zone : Zone} :
    moved m zone = .ok m' ↔ m.inZone? zone = some m' := by
  refine ⟨moved_eq_ok, fun h => ?_⟩
  rw [moved, h]

theorem exists_timeBound (expression : Text) (hformat : HasNamedFormat settings)
    (hnow : settings.now.inZone? settings.zone = some now) {m : Moment}
    (h : meant? settings bound = some m) :
    ∃ v, timeBound expression settings now bound = .ok v := by
  obtain ⟨v, hv⟩ := hformat.exists_text m
  rw [meant?, hnow, Option.bind_eq_bind, Option.bind_some] at h
  obtain ⟨resolved, hresolved, hmoved⟩ := Option.bind_eq_some_iff.mp h
  have hok : resolve bound now = .ok resolved := by
    cases hr : resolve bound now with
    | error e => rw [hr] at hresolved; cases hresolved
    | ok r => rw [hr] at hresolved; exact congrArg Except.ok (Option.some.inj hresolved)
  refine ⟨v, ?_⟩
  unfold timeBound
  rw [hok]
  show (moved resolved settings.zone >>= fun m => _) = _
  rw [moved_eq_ok_iff.mpr hmoved]
  show (formatMoment m settings.format).mapError _ = _
  rw [hv]
  rfl

/-- **When a time range breaks down**, and how. -/
theorem timeBounds_eq_fault (hformat : HasNamedFormat settings) :
    timeBounds expression first last settings = .error (.fault f) ↔
      RangeBreaks settings first last f := by
  unfold timeBounds
  rw [bind_eq_error_iff]
  constructor
  · rintro (h | ⟨now, hnow, h⟩)
    · obtain ⟨hbeyond, rfl⟩ := moved_eq_fault.mp h
      exact .now hbeyond
    rcases eq_error_of_bind h with h | ⟨v, hv, h⟩
    · exact .first (moved_eq_ok hnow) ((timeBound_eq_fault hformat).mp h)
    obtain ⟨m, hm, -⟩ := timeBound_eq_ok hnow hv
    rcases eq_error_of_bind h with h | ⟨v', -, h⟩
    · exact .last (moved_eq_ok hnow) hm ((timeBound_eq_fault hformat).mp h)
    · cases h
  · intro h
    cases h with
    | now hbeyond => exact Or.inl (moved_eq_fault.mpr ⟨hbeyond, rfl⟩)
    | @first now _ hnow hbreaks =>
      refine Or.inr ⟨now, moved_eq_ok_iff.mpr hnow, bind_eq_error_iff.mpr (Or.inl ?_)⟩
      exact (timeBound_eq_fault hformat).mpr hbreaks
    | @last now m _ hnow hfirst hbreaks =>
      obtain ⟨v, hv⟩ := exists_timeBound expression hformat hnow hfirst
      refine Or.inr ⟨now, moved_eq_ok_iff.mpr hnow, bind_eq_error_iff.mpr (Or.inr ⟨v, hv, ?_⟩)⟩
      exact bind_eq_error_iff.mpr (Or.inl ((timeBound_eq_fault hformat).mpr hbreaks))

/-! ## Filters -/

theorem answer_timeRange_eq_fault (hformat : HasNamedFormat settings) :
    answer expression settings key (.timeRange first last) = .error (.fault f) ↔
      RangeBreaks settings first last f := by
  have hbounds : timeBounds expression first last settings = .error (.fault f) ↔
      RangeBreaks settings first last f := timeBounds_eq_fault hformat
  rw [← hbounds]
  refine bind_eq_error_iff.trans ⟨?_, Or.inl⟩
  rintro (h | ⟨values, -, h⟩)
  · exact h
  · cases h

namespace Asked

theorem parse_eq_fault (hformat : HasNamedFormat settings) :
    parse expression settings aliases = .error (.fault f) ↔
      ∃ first last, (filter expression).bounds? = some (first, last) ∧
        RangeBreaks settings first last f := by
  unfold parse
  constructor
  · intro h
    split at h
    next key w rest htokens =>
      rcases eq_error_of_bind h with h | ⟨q, hq, h⟩
      · obtain ⟨e, -, he⟩ := eq_error_of_mapError h
        cases he
      rcases question_eq_ok (eq_ok_of_mapError hq) with hform | ⟨hw, first, last, rfl, rfl⟩
      · obtain ⟨form, operators, values, -, rfl⟩ := hform
        cases h
      · refine ⟨_, _, ?_, (answer_timeRange_eq_fault hformat).mp h⟩
        rw [bounds?, htokens]
        exact if_pos hw
    next => cases h
  · rintro ⟨first, last, hbounds, hbreaks⟩
    simp only [bounds?] at hbounds
    split at hbounds
    next key w raw raw' htokens =>
      split at hbounds
      next hw =>
        cases hbounds
        rw [htokens]
        simp only [question_time hw, twoValues]
        exact (answer_timeRange_eq_fault hformat).mpr hbreaks
      next => cases hbounds
    next => cases hbounds

theorem parseTimeRange_eq_fault (hformat : HasNamedFormat settings) :
    parseTimeRange expression settings key aliases = .error (.fault f) ↔
      ∃ first last, (timeRange expression key).bounds? = some (first, last) ∧
        RangeBreaks settings first last f := by
  have hrange : ∀ a b : Text, answer expression settings (aliases.apply key) (.timeRange a b)
      = .error (.fault f) ↔ ∃ first last, some (a, b) = some (first, last) ∧
        RangeBreaks settings first last f := by
    intro a b
    rw [answer_timeRange_eq_fault hformat]
    constructor
    · exact fun h => ⟨a, b, rfl, h⟩
    · rintro ⟨first, last, hsame, h⟩
      cases hsame
      exact h
  simp only [parseTimeRange, bounds?]
  generalize expression.splitOn (.scalar '/') = parts
  have hnone : ∀ e, (.error (.error e) : Except ParseFailure Filter) = .error (.fault f) ↔
      ∃ first last, none = some (first, last) ∧ RangeBreaks settings first last f := by
    intro e
    refine ⟨fun h => (by cases h), ?_⟩
    rintro ⟨first, last, hnone, -⟩
    cases hnone
  rcases parts with _ | ⟨first, _ | ⟨last, _ | ⟨_, _⟩⟩⟩
  · exact hnone _
  · exact hrange first.strip "now"
  · exact hrange first.strip last.strip
  · exact hnone _

end Asked

/-- A bound breaks down for its digits, or it means a moment less than a day away from an end of the
calendar. -/
theorem BoundBreaks.cases_of_near {zone : Zone} {now : Moment} {bound : Text} {f : Fault}
    (hzone : zone.IsWithinDay) (h : BoundBreaks zone now bound f) :
    (∃ n, Integer.maxDigits < n ∧ f = .badValue (IntegerError.tooLong n).message) ∨
      ∃ m, resolve bound now = .ok m ∧ ¬ m.IsInner := by
  cases h with
  | longStep _ hlong => exact Or.inl ⟨_, hlong, rfl⟩
  | beyond hm hbeyond => exact Or.inr ⟨_, hm, fun hinner => hinner.not_isBeyond hzone hbeyond⟩

/-- A time range breaks down for the digits of a bound, or the present or a bound is less than a day away
from an end of the calendar. -/
theorem RangeBreaks.cases_of_near {settings : TimeSettings} {first last : Text} {f : Fault}
    (hzone : settings.zone.IsWithinDay)
    (h : RangeBreaks settings first last f) :
    (∃ n, Integer.maxDigits < n ∧ f = .badValue (IntegerError.tooLong n).message) ∨
      ¬ settings.now.IsInner ∨ ∃ bound now m, (bound = first ∨ bound = last) ∧
        settings.now.inZone? settings.zone = some now ∧ resolve bound now = .ok m ∧ ¬ m.IsInner := by
  cases h with
  | now hbeyond => exact Or.inr (Or.inl fun hinner => hinner.not_isBeyond hzone hbeyond)
  | first hnow hbreaks =>
    rcases hbreaks.cases_of_near hzone with hlong | ⟨m, hm, hnear⟩
    · exact Or.inl hlong
    · exact Or.inr (Or.inr ⟨_, _, m, Or.inl rfl, hnow, hm, hnear⟩)
  | last hnow _ hbreaks =>
    rcases hbreaks.cases_of_near hzone with hlong | ⟨m, hm, hnear⟩
    · exact Or.inl hlong
    · exact Or.inr (Or.inr ⟨_, _, m, Or.inr rfl, hnow, hm, hnear⟩)

/-- **Filters break down only with their bounds.** A filter or a time range is read, or an error says why it
is not, or it breaks down because one of its bounds does. Of several filters the first one that is not
read decides. On clocks that are at most a day ahead or behind, bounds break down for their digits or
within a day of an end of the calendar. -/
theorem read_eq_fault (settings : TimeSettings) (aliases : Aliases)
    (hformat : HasNamedFormat settings) :
    (∀ (a : Asked) (f : Fault), a.read settings aliases = .error (.fault f) ↔
      ∃ first last, a.bounds? = some (first, last) ∧ RangeBreaks settings first last f) ∧
    (∀ (expressions : List Text) (f : Fault), parseAll expressions settings aliases = .error (.fault f) ↔
      ∃ before expression after, expressions = before ++ expression :: after ∧
        (∀ e ∈ before, ∃ g, parse e settings aliases = .ok g) ∧
        ∃ first last, (Asked.filter expression).bounds? = some (first, last) ∧
          RangeBreaks settings first last f) ∧
    (settings.zone.IsWithinDay →
      ∀ (first last : Text) (f : Fault), RangeBreaks settings first last f →
        (∃ n, Integer.maxDigits < n ∧ f = .badValue (IntegerError.tooLong n).message) ∨
          ¬ settings.now.IsInner ∨ ∃ bound now m, (bound = first ∨ bound = last) ∧
            settings.now.inZone? settings.zone = some now ∧ resolve bound now = .ok m ∧
            ¬ m.IsInner) := by
  refine ⟨fun a f => ?_, fun expressions f => ?_, fun hzone first last f h => h.cases_of_near hzone⟩
  · cases a with
    | filter expression => exact Asked.parse_eq_fault hformat
    | timeRange expression key => exact Asked.parseTimeRange_eq_fault hformat
  · unfold parseAll
    simp only [mapM_eq_error_iff, Asked.parse_eq_fault hformat]

end

def behind : Zone := .fixed (-18000) none 0

/-- Settings whose clock is five hours behind. -/
def behindSettings : TimeSettings where
  zone := behind
  now := { date := ⟨2021, 7, 14, by decide⟩, time := .midnight, zone := behind, later := false }

/-- A time range that begins with the calendar. -/
def sinceFirstDay : Text := "t intime 0001-01-01T00:00:00Z now"

theorem isDate_firstDay : IsDate 1 1 1 := by decide

def firstMoment : Moment :=
  { date := ⟨1, 1, 1, isDate_firstDay⟩, time := .midnight, zone := .utc, later := false }

theorem resolve_firstMoment : resolve "0001-01-01T00:00:00Z" behindSettings.now = .ok firstMoment :=
  eq_ok_of_toOption (by decide +kernel)

section

attribute [local instance] Region.database

theorem firstMoment_isBeyond : firstMoment.IsBeyond behindSettings.zone :=
  ⟨by decide, fun h => absurd h.2.1 (by decide)⟩

theorem bounds?_sinceFirstDay :
    (Asked.filter sinceFirstDay).bounds?
      = some (Text.ofString "0001-01-01T00:00:00Z", Text.ofString "now") := by
  decide +kernel

/-- Five hours before the first day there is nothing. -/
theorem read_eq_fault_firstDay : HasNamedFormat behindSettings ∧
    (Asked.filter sinceFirstDay).read behindSettings []
      = .error (.fault (.overflow "date value out of range")) := by
  refine ⟨Or.inl rfl, ?_⟩
  obtain ⟨hread, -, -⟩ := read_eq_fault behindSettings [] (Or.inl rfl)
  exact (hread _ _).mpr ⟨_, _, bounds?_sinceFirstDay,
    .first (if_pos rfl) (.beyond resolve_firstMoment firstMoment_isBeyond)⟩

/-! ## A long step back -/

/-- A step back of some number of days whose digits are all nine. -/
def manyDays (n : Nat) : Text := .scalar '-' :: (List.replicate n (.scalar '9') ++ [.scalar 'd'])

theorem digits_nines (n : Nat) (t : Text) (h : Decimal.digits t = ([], t)) :
    Decimal.digits (List.replicate n (.scalar '9') ++ t) = (List.replicate n 9, t) := by
  induction n with
  | zero => exact h
  | succ n ih =>
    have hnine : (CodePoint.scalar '9').asciiDigit? = some 9 := rfl
    rw [List.replicate_succ, List.cons_append, Decimal.digits, hnine, ih]
    rfl

theorem ofText?_manyDays {n : Nat} (h : n ≠ 0) :
    Step.ofText? (manyDays n) = some ⟨List.replicate n 9, .day⟩ := by
  obtain ⟨m, rfl⟩ := Nat.exists_eq_succ_of_ne_zero h
  simp only [manyDays, Step.ofText?]
  rw [digits_nines m.succ [.scalar 'd'] rfl, List.replicate_succ]
  rfl

theorem mem_of_mem_manyDays {n : Nat} {p : CodePoint} (h : p ∈ manyDays n) : p ∈ Text.ofString "-9d" := by
  rw [manyDays, List.mem_cons, List.mem_append, List.mem_replicate, List.mem_singleton] at h
  rcases h with rfl | ⟨-, rfl⟩ | rfl <;> decide

theorem bounds?_manyDays (n : Nat) (key : Text) :
    (Asked.timeRange (manyDays n) key).bounds? = some (manyDays n, Text.ofString "now") := by
  have hdelimiter : CodePoint.scalar '/' ∉ manyDays n := fun h =>
    absurd (mem_of_mem_manyDays h) (by decide)
  have hblank : ∀ p ∈ Text.ofString "-9d", p.isBlank = false := by decide
  have hstrip : (manyDays n).strip = manyDays n :=
    Text.trim_eq_self fun p hp => hblank p (mem_of_mem_manyDays hp)
  simp only [Asked.bounds?, Text.splitOn_of_not_mem hdelimiter, hstrip]

theorem parseTimeRange_manyDays {n : Nat} (h : Integer.maxDigits < n) (key : Text) :
    parseTimeRange (manyDays n) behindSettings key []
      = .error (.fault (.badValue (IntegerError.tooLong n).message)) := by
  refine (Asked.parseTimeRange_eq_fault (Or.inl rfl)).mpr ⟨_, _, bounds?_manyDays n key, ?_⟩
  have hbreaks : BoundBreaks behindSettings.zone behindSettings.now (manyDays n) _ :=
    .longStep (ofText?_manyDays (by omega)) (by rwa [List.length_replicate])
  rw [List.length_replicate] at hbreaks
  exact .first (if_pos rfl) hbreaks

/-- **Two expressions that break down**, one for its digits and one at the end of the calendar. -/
theorem filters_break :
    parseTimeRange (manyDays 4301) behindSettings timestampField []
      = .error (.fault (.badValue (IntegerError.tooLong 4301).message)) ∧
    parse sinceFirstDay behindSettings [] = .error (.fault (.overflow "date value out of range")) := by
  refine ⟨parseTimeRange_manyDays (by decide) timestampField, ?_⟩
  exact (Asked.parse_eq_fault (Or.inl rfl)).mpr ⟨_, _, bounds?_sinceFirstDay,
    .first (if_pos rfl) (.beyond resolve_firstMoment firstMoment_isBeyond)⟩

end

end LogQuery.Filter
