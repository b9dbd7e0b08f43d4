import LogQuery.Proofs.Calendar.Formats
import LogQuery.Proofs.Calendar.Region
import LogQuery.Proofs.Filter.Read
import LogQuery.Proofs.Number.ReadInteger
/-!
# What a relative time range spans

A step back is taken on the wall clock of the settings' zone, and only then are the bounds converted to
seconds of universal time. So a range `-Nu/now` spans the time that it names plus the change of the zone's
offset in between (`parseTimeRange_step`): exactly `N` units in a zone whose offset is always the same, and
an hour more or less across the beginning or the end of summer time, where the range may even be empty
(`parseTimeRange_summer`).
-/
namespace LogQuery

open CodePoint (isAsciiDigit)

namespace Moment

variable [ZoneDatabase] {now first : Moment}

theorem sinceEpoch_of_minus? {seconds : Int} (h : now.minus? seconds = some first) :
    first.zone = now.zone ∧ first.sinceEpoch
      = now.sinceEpoch - (seconds + (first.offset - now.offset)) * 1000000 := by
  obtain ⟨hmicros, hzone, -⟩ := of_ofWallMicros? h
  refine ⟨hzone, ?_⟩
  rw [sinceEpoch, sinceEpoch, instant, instant, hmicros]
  omega

theorem natAbs_offset {m : Moment} (h : m.zone.IsWithinDay) : m.offset.natAbs ≤ 86400 :=
  h.natAbs_offsetAtWall m.later m.wallSeconds

theorem exists_minus? {seconds : Int} (hzone : now.zone.IsWithinDay) (hseconds : 0 ≤ seconds)
    (h : 0 ≤ now.sinceEpoch - seconds * 1000000) (hlast : now.sinceEpoch < 2 ^ 34 * 1000000) :
    ∃ first, now.minus? seconds = some first := by
  have hoffset := natAbs_offset hzone
  rw [← Option.isSome_iff_exists, Option.isSome_iff_ne_none, minus?, ne_eq, ofWallMicros?_eq_none_iff,
    not_not]
  simp only [sinceEpoch, instant, epoch] at h hlast
  simp only [IsReading, endMicros, Date.lastOrdinal, TimeOfDay.microsPerDay]
  omega

theorem timestamp_sub_of_minus? {seconds : Int} (h : now.minus? seconds = some first)
    (hzone : now.zone.IsWithinDay) (hseconds : 0 ≤ seconds) (hnow : 0 ≤ now.sinceEpoch)
    (hfirst : 0 ≤ first.sinceEpoch) (hlast : now.sinceEpoch < (2 ^ 34 - 172800) * 1000000) :
    now.timestamp - first.timestamp = seconds + (first.offset - now.offset) := by
  obtain ⟨hsame, hback⟩ := sinceEpoch_of_minus? h
  have hoffset := natAbs_offset hzone
  have hoffset' := natAbs_offset (hsame.symm ▸ hzone)
  rw [timestamp_of_nonneg hnow (by omega), timestamp_of_nonneg hfirst (by omega), hback]
  omega

theorem exists_inZone? {m : Moment} {zone : Zone} (h : m.IsInner) (hzone : zone.IsWithinDay)
    (hreads : zone.ReadsBack) :
    ∃ m', m.inZone? zone = some m' ∧ m'.sinceEpoch = m.sinceEpoch ∧ m'.zone = zone := by
  cases hmoved : m.inZone? zone with
  | none => exact absurd ((inZone?_eq_none_iff m zone).mp hmoved) (h.not_isBeyond hzone)
  | some m' =>
    exact ⟨m', rfl, by rw [sinceEpoch, sinceEpoch, instant_of_inZone? hreads hmoved],
      zone_of_inZone? hmoved⟩

end Moment

/-! ## Steps back -/

theorem Decimal.digits_append {ds rest : Text} (hds : ∀ p ∈ ds, p.isAsciiDigit = true)
    (hrest : digits rest = ([], rest)) :
    digits (ds ++ rest) = (ds.filterMap CodePoint.asciiDigit?, rest) := by
  induction ds with
  | nil => exact hrest
  | cons p ds ih =>
    rw [List.forall_mem_cons] at hds
    have hp := CodePoint.asciiDigit?_eq hds.1
    rw [List.cons_append, digits, hp, ih hds.2, List.filterMap_cons_some hp]

def stepText (n : Nat) (unit : StepUnit) : Text :=
  .scalar '-' :: (Text.ofNat n ++ Text.single unit.letter)

def stepOf (n : Nat) (unit : StepUnit) : Step := ⟨(Text.ofNat n).filterMap CodePoint.asciiDigit?, unit⟩

theorem ofText?_stepText (n : Nat) (unit : StepUnit) :
    Step.ofText? (stepText n unit) = some (stepOf n unit) := by
  have hunit : Decimal.digits (Text.single unit.letter) = ([], Text.single unit.letter) ∧
      StepUnit.ofLetter? (.scalar unit.letter) = some unit := by
    cases unit <;> decide
  have hdigits : Decimal.digits (Text.ofNat n ++ Text.single unit.letter)
      = ((Text.ofNat n).filterMap CodePoint.asciiDigit?, [.scalar unit.letter]) :=
    Decimal.digits_append (fun p hp => Text.isAsciiDigit_of_mem_ofNat hp) hunit.1
  obtain ⟨p, t, hfirst, hp⟩ := Text.ofNat_first n
  have hne : (Text.ofNat n).filterMap CodePoint.asciiDigit?
      = (p.code - 0x30) :: t.filterMap CodePoint.asciiDigit? := by
    rw [hfirst, List.filterMap_cons_some (CodePoint.asciiDigit?_eq hp)]
  simp only [stepText, Step.ofText?]
  rw [hdigits, stepOf, hne]
  simp only [hunit.2, Option.map_some]

theorem before_stepOf {n : Nat} {unit : StepUnit} {now first : Moment} {token : Text}
    (hsize : n * unit.seconds < 2 ^ 34) (h : now.minus? (n * unit.seconds : Nat) = some first) :
    (stepOf n unit).before token now = .ok first := by
  have hseconds : 1 ≤ unit.seconds := by cases unit <;> decide
  have hn : n < 2 ^ 34 := Nat.lt_of_le_of_lt (Nat.le_mul_of_pos_right n hseconds) hsize
  have hdigits : ¬ Integer.maxDigits < (stepOf n unit).digits.length := by
    have hlength := (Text.length_ofNat_le_iff (n := n) (k := 11) (by decide)).mpr
      (Nat.lt_trans hn (by decide))
    have hfilter := List.length_filterMap_le CodePoint.asciiDigit? (Text.ofNat n)
    simp only [stepOf, Integer.maxDigits]
    omega
  have hvalue : ofDigits 10 (stepOf n unit).digits = n := Text.ofDigits_ofNat n
  have hunit : (stepOf n unit).unit = unit := rfl
  have hdays : ¬ Nat.pow 2 31 ≤ n * unit.seconds / 86400 := by
    show ¬ 2 ^ 31 ≤ _
    omega
  unfold Step.before
  rw [if_neg hdigits, hvalue, hunit]
  simp only [if_neg hdays, if_neg (show ¬ 999999999 < n * unit.seconds / 86400 by omega), h]

theorem resolve_stepText {n : Nat} {unit : StepUnit} {now first : Moment}
    (hsize : n * unit.seconds < 2 ^ 34) (h : now.minus? (n * unit.seconds : Nat) = some first) :
    resolve (stepText n unit) now = .ok first := by
  have hword : (stepText n unit).isString "now" = false := by
    rw [Text.isString, beq_eq_false_iff_ne]
    intro h
    exact absurd (List.cons.inj h).1 (by decide)
  simp only [resolve, hword, Bool.false_eq_true, if_false, ofText?_stepText, before_stepOf hsize h]

namespace Filter

/-! ## The range -/

/-- The text of a range from some time ago to the present. -/
def sinceText (n : Nat) (unit : StepUnit) : Text := stepText n unit ++ .scalar '/' :: Text.ofString "now"

theorem splitOn_sinceText (n : Nat) (unit : StepUnit) :
    (sinceText n unit).splitOn (.scalar '/') = [stepText n unit, Text.ofString "now"] ∧
      (stepText n unit).strip = stepText n unit ∧
      (Text.ofString "now").strip = Text.ofString "now" := by
  have hplain : ∀ p ∈ stepText n unit, p.isBlank = false ∧ p ≠ .scalar '/' := by
    intro p hp
    rw [stepText, List.mem_cons, List.mem_append] at hp
    rcases hp with rfl | hp | hp
    · decide
    · have hcode := CodePoint.code_of_isAsciiDigit (Text.isAsciiDigit_of_mem_ofNat hp)
      refine ⟨?_, ?_⟩
      · simp only [CodePoint.isBlank, if_pos (show p.code < 0x80 by omega), Bool.or_eq_false_iff,
          Bool.and_eq_false_iff, decide_eq_false_iff_not]
        omega
      · intro h
        rw [h] at hcode
        exact absurd hcode (by decide)
    · rw [List.mem_singleton.mp hp]
      cases unit <;> decide
  refine ⟨?_, Text.trim_eq_self fun p hp => (hplain p hp).1, by decide⟩
  rw [sinceText, Text.splitOn_append_sep, Text.splitOn_of_not_mem fun h => (hplain _ h).2 rfl]
  rfl

section

variable [ZoneDatabase] {settings : TimeSettings} {now first : Moment} {n : Nat} {unit : StepUnit}

theorem timeBound_timestamp {expression bound : Text} {m : Moment} (hformat : settings.format = .timestamp)
    (hresolve : resolve bound now = .ok m) (hzone : m.zone = settings.zone) :
    timeBound expression settings now bound = .ok (Text.ofInt m.timestamp) := by
  have hmoved : moved m settings.zone = .ok m := by
    rw [moved, Moment.inZone?, if_pos hzone]
  simp only [timeBound, hresolve, hmoved, hformat, Except.mapError, formatMoment, bind, Except.bind]

theorem parseTimeRange_sinceText (key : Text) (aliases : Aliases) (hformat : settings.format = .timestamp)
    (hnow : settings.now.inZone? settings.zone = some now) (hsize : n * unit.seconds < 2 ^ 34)
    (hfirst : now.minus? (n * unit.seconds : Nat) = some first) :
    parseTimeRange (sinceText n unit) settings key aliases = .ok
      { key := aliases.apply key, operation := .during,
        values := [Text.ofInt first.timestamp, Text.ofInt now.timestamp] } := by
  obtain ⟨hsplit, hstrip, hstrip'⟩ := splitOn_sinceText n unit
  have hzone := Moment.zone_of_inZone? hnow
  obtain ⟨hzone', -⟩ := Moment.sinceEpoch_of_minus? hfirst
  have hmoved : moved settings.now settings.zone = .ok now := by rw [moved, hnow]
  have hlast : resolve (Text.ofString "now") now = .ok now := if_pos rfl
  simp only [parseTimeRange, hsplit, hstrip, hstrip', answer, timeBounds, hmoved,
    timeBound_timestamp hformat (resolve_stepText hsize hfirst) (hzone'.trans hzone),
    timeBound_timestamp hformat hlast hzone, bind, Except.bind]

/-- Microseconds from the beginning of 1970 to the beginning of 2500. -/
def epoch2500 : Int := 16725225600 * 1000000

/-- **What a relative time range spans.** With whole seconds as the format, a range from `n` units ago to
the present is read between 1970 and 2500, in every zone whose clock is at most a day ahead or behind and
reads back. Its end is the present in whole seconds, and it spans the time that it names plus what the
clock of the zone has been set back, which is exactly the time if the offset is the same at both ends, as
it always is in a zone whose clock is never changed. -/
theorem parseTimeRange_step (settings : TimeSettings) (key : Text) (aliases : Aliases) (n : Nat)
    (unit : StepUnit) (hformat : settings.format = .timestamp) (hzone : settings.zone.IsWithinDay)
    (hreads : settings.zone.ReadsBack)
    (hfirst : 0 ≤ settings.now.sinceEpoch - n * unit.seconds * 1000000)
    (hlast : settings.now.sinceEpoch < epoch2500) :
    ∃ now first, settings.now.inZone? settings.zone = some now ∧
      now.minus? (n * unit.seconds : Nat) = some first ∧
      parseTimeRange (sinceText n unit) settings key aliases = .ok
        { key := aliases.apply key, operation := .during,
          values := [Text.ofInt first.timestamp, Text.ofInt now.timestamp] } ∧
      now.timestamp = settings.now.sinceEpoch / 1000000 ∧
      (0 ≤ first.sinceEpoch →
        now.timestamp - first.timestamp = n * unit.seconds + (first.offset - now.offset)) ∧
      (first.offset = now.offset → now.timestamp - first.timestamp = n * unit.seconds) ∧
      (settings.zone.IsSteady → first.offset = now.offset) := by
  have hspanned : (0 : Int) ≤ n * unit.seconds := Int.natCast_nonneg (n * unit.seconds)
  -- Between 1970 and 2500 no clock comes near the ends of the calendar.
  have hinner : settings.now.IsInner := by
    simp only [Moment.sinceEpoch, Moment.epoch, epoch2500] at hfirst hlast
    simp only [Moment.IsInner, Moment.endMicros, Date.lastOrdinal, TimeOfDay.microsPerDay]
    omega
  obtain ⟨now, hnow, hsince, hzone'⟩ := Moment.exists_inZone? hinner hzone hreads
  rw [← hsince] at hfirst hlast ⊢
  rw [← hzone'] at hzone
  rw [epoch2500] at hlast
  obtain ⟨first, hstep⟩ : ∃ first, now.minus? (n * unit.seconds : Nat) = some first :=
    Moment.exists_minus? hzone (by omega) (by omega) (by omega)
  have hspan : 0 ≤ first.sinceEpoch →
      now.timestamp - first.timestamp = n * unit.seconds + (first.offset - now.offset) := fun hnonneg =>
    Moment.timestamp_sub_of_minus? hstep hzone hspanned (by omega) hnonneg (by omega)
  obtain ⟨hsame, hback⟩ := Moment.sinceEpoch_of_minus? hstep
  refine ⟨now, first, hnow, hstep, parseTimeRange_sinceText key aliases hformat hnow (by omega) hstep,
    Moment.timestamp_of_nonneg (by omega) (by omega), hspan, ?_, ?_⟩
  · intro hoffset
    rw [hspan (by omega), hoffset]
    omega
  · intro hsteady
    rw [← hzone'] at hsteady
    exact hsteady.offset_eq hsame

end

/-- Berlin, where the clocks go forward on the 28th of March and back on the 31st of October. -/
def berlinSettings (now : Moment) : TimeSettings where
  zone := .region "Europe/Berlin"
  format := .timestamp
  now := now

/-- Half an hour after the clocks went forward. -/
def inSpring : Moment :=
  { date := ⟨2021, 3, 28, by decide⟩, time := ⟨1, 30, 0, 0, by decide⟩, zone := .utc, later := false }

/-- Half an hour after the clocks went back. -/
def inAutumn : Moment :=
  { date := ⟨2021, 10, 31, by decide⟩, time := ⟨1, 30, 0, 0, by decide⟩, zone := .utc, later := false }

section

attribute [local instance] Region.database

/-- The thirty-six hours before half past three on that Sunday are thirty-five. -/
theorem parseTimeRange_step_spring :
    ((inSpring.inZone? (.region "Europe/Berlin")).bind fun now =>
      (now.minus? (36 * 3600 : Nat)).map fun first =>
      (first.timestamp, first.offset, now.timestamp, now.offset))
      = some (1616769000, 3600, 1616769000 + 35 * 3600, 7200) ∧
    ∃ now first, (berlinSettings inSpring).now.inZone? (berlinSettings inSpring).zone = some now ∧
      now.minus? (36 * StepUnit.hour.seconds : Nat) = some first ∧
      parseTimeRange (sinceText 36 .hour) (berlinSettings inSpring) timestampField [] = .ok
        { key := Aliases.apply [] timestampField, operation := .during,
          values := [Text.ofInt first.timestamp, Text.ofInt now.timestamp] } ∧
      now.timestamp = (berlinSettings inSpring).now.sinceEpoch / 1000000 := by
  obtain ⟨now, first, hnow, hfirst, hrange, hlast, -⟩ :=
    parseTimeRange_step (berlinSettings inSpring) timestampField [] 36 .hour rfl
      Region.berlin.zone_isWithinDay Region.berlin.zone_readsBack (by decide +kernel) (by decide +kernel)
  exact ⟨by decide +kernel, now, first, hnow, hfirst, hrange, hlast⟩

/-- **An hour that is empty and a second that is an hour.** Across the changes of the clocks a range does
not span the time that it names. -/
theorem parseTimeRange_summer :
    parseTimeRange "-1h/now" (berlinSettings inSpring) timestampField [] = .ok
      { key := timestampField, operation := .during, values := ["1616895000", "1616895000"] } ∧
    parseTimeRange "-1s/now" (berlinSettings inAutumn) timestampField [] = .ok
      { key := timestampField, operation := .during, values := ["1635640199", "1635643800"] } ∧
    inSpring.sinceEpoch = 1616895000 * 1000000 ∧ inAutumn.sinceEpoch = 1635643800 * 1000000 ∧
    (1616895000 - 1616895000 : Int) ≠ 1 * StepUnit.hour.seconds ∧
    (1635643800 - 1635640199 : Int) ≠ 1 * StepUnit.second.seconds :=
  ⟨eq_ok_of_toOption (by decide +kernel), eq_ok_of_toOption (by decide +kernel), by decide +kernel,
    by decide +kernel, by decide, by decide⟩

end

end Filter

end LogQuery
