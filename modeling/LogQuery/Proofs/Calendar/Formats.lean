import LogQuery.Calendar.Region
import LogQuery.Proofs.Calendar.Instant
import LogQuery.Proofs.Calendar.ReadBack
import LogQuery.Proofs.Number.Truncated
/-!
# Instants as texts

A moment is written for a service as whole seconds since 1970 or in international notation, and both name
the same second (`formats_agree`). `Iso.moment?` reads the notation back, part by part, to the date, the
time of day and the offset that were written (`moment?_rfc3339`). In universal time it is also a date
expression, whatever the zone of the reference moment is (`resolve_rfc3339`).
-/
namespace LogQuery

open CodePoint (digit)

def TimeOfDay.wholeSecond (t : TimeOfDay) : TimeOfDay :=
  ⟨t.hour, t.minute, t.second, 0, t.isTimeOfDay.1, t.isTimeOfDay.2.1, t.isTimeOfDay.2.2.1, by decide⟩

/-- The beginning of the second of a reading, in some zone. -/
def Moment.wholeSecond (m : Moment) (zone : Zone) : Moment :=
  { date := m.date, time := m.time.wholeSecond, zone, later := false }

theorem Zone.offsetAtWall_ofOffset [ZoneDatabase] (o : Int) (object : Nat) (later : Bool) (wall : Int) :
    (ofOffset o object).offsetAtWall later wall = o := by
  unfold ofOffset
  split
  next h => exact h.symm
  next => rfl

/-! ## Reading the notation -/

namespace Iso

variable {n : Nat} {o : Int} {t : Text}

theorem filterMap_asciiDigit?_digits {ds : List Nat} (h : ∀ d ∈ ds, d < 10) :
    (ds.map digit).filterMap CodePoint.asciiDigit? = ds := by
  induction ds with
  | nil => rfl
  | cons d ds ih =>
    rw [List.forall_mem_cons] at h
    rw [List.map_cons, List.filterMap_cons_some (CodePoint.asciiDigit?_digit h.1), ih h.2]

theorem number?_padded {width : Nat} (hwidth : 0 < width) (h : n < 10 ^ width) (t : Text) :
    number? width (Text.ofNatPadded width n ++ t) = some (n, t) := by
  obtain ⟨width, rfl⟩ := Nat.exists_eq_add_of_le' hwidth
  obtain ⟨ds, hds, hlength, hdigits, hvalue⟩ := Text.exists_digits_ofNatPadded h
  have hmap : (ds.map digit).length = width + 1 := by rw [List.length_map, hlength]
  rw [hds, number?, List.take_left' hmap, List.drop_left' hmap, filterMap_asciiDigit?_digits hdigits]
  simp only [hlength, hvalue, if_true]

theorem number?_two (h : n < 100) (t : Text) : number? 2 (Text.ofNatPadded 2 n ++ t) = some (n, t) :=
  number?_padded (by decide) h t

theorem clock?_padded {hours minutes : Nat} (hhours : hours < 100) (hminutes : minutes < 100) :
    clock? (Text.ofNatPadded 2 hours ++ .scalar ':' :: Text.ofNatPadded 2 minutes)
      = some (hours * 3600 + minutes * 60, []) := by
  have hread := number?_two hminutes []
  rw [List.append_nil] at hread
  have hcolon : skip? ":" (.scalar ':' :: Text.ofNatPadded 2 minutes) = some (Text.ofNatPadded 2 minutes) :=
    rfl
  simp only [clock?, number?_two hhours, Option.bind_eq_bind, Option.bind_some, hcolon, Option.getD_some,
    hread]
  rfl

theorem offsetText_minutes (hminutes : o % 60 = 0) :
    Zone.offsetText ":" o = (if o < 0 then .scalar '-' else .scalar '+')
      :: (Text.ofNatPadded 2 (o.natAbs / 3600)
        ++ .scalar ':' :: Text.ofNatPadded 2 (o.natAbs / 60 % 60)) := by
  have hseconds : o.natAbs % 60 = 0 := by omega
  simp only [Zone.offsetText, hseconds, if_true, List.append_nil, List.append_assoc]
  split <;> rfl

theorem offset?_offsetText (hday : o.natAbs < 86400) (hminutes : o % 60 = 0) :
    offset? (Zone.offsetText ":" o) = some o := by
  have hclock := clock?_padded (show o.natAbs / 3600 < 100 by omega) (show o.natAbs / 60 % 60 < 100 by omega)
  have hsum : o.natAbs / 3600 * 3600 + o.natAbs / 60 % 60 * 60 = o.natAbs := by omega
  rw [hsum] at hclock
  rw [offsetText_minutes hminutes]
  by_cases hneg : o < 0
  · rw [if_pos hneg]
    simp only [offset?, hclock, Option.some.injEq]
    omega
  · rw [if_neg hneg]
    simp only [offset?, hclock, Option.some.injEq]
    omega

/-- What stands behind the seconds in international notation. -/
def zoneText (o : Int) : Text := if o = 0 then Text.single 'Z' else Zone.offsetText ":" o

theorem offset?_zoneText (hday : o.natAbs < 86400) (hminutes : o % 60 = 0) :
    offset? (zoneText o) = some o := by
  unfold zoneText
  split
  next h =>
    rw [h]
    rfl
  next => exact offset?_offsetText hday hminutes

theorem micros_zoneText (hminutes : o % 60 = 0) : micros (zoneText o) = (0, zoneText o) := by
  unfold zoneText
  split
  · rfl
  · rw [offsetText_minutes hminutes]
    by_cases hneg : o < 0
    · rw [if_pos hneg]
      rfl
    · rw [if_neg hneg]
      rfl

/-! ## Reading moments -/

theorem date_bounds (d : Date) : d.year < 10 ^ 4 ∧ d.month < 100 ∧ d.day < 100 := by
  obtain ⟨⟨-, hyear⟩, ⟨-, hmonth⟩, -, hday⟩ := d.isDate
  have hlast := Layout.daysInMonth_le d.year d.month
  omega

variable [ZoneDatabase]

theorem rfc3339_eq (m : Moment) : m.rfc3339 =
    Text.ofNatPadded 4 m.date.year ++ .scalar '-' :: (Text.ofNatPadded 2 m.date.month
      ++ .scalar '-' :: (Text.ofNatPadded 2 m.date.day ++ .scalar 'T' :: (Text.ofNatPadded 2 m.time.hour
      ++ .scalar ':' :: (Text.ofNatPadded 2 m.time.minute ++ .scalar ':' :: (Text.ofNatPadded 2 m.time.second
      ++ zoneText m.offset))))) := by
  simp only [Moment.rfc3339, Date.toText, TimeOfDay.toText, List.append_assoc]
  rfl

/-- **The notation is read back**: the date, the second and the offset of a moment whose zone is ahead or
behind by whole minutes. -/
theorem moment?_rfc3339 {m : Moment} (hday : m.offset.natAbs < 86400) (hminutes : m.offset % 60 = 0)
    (object : Nat) : moment? m.rfc3339 object = some (m.wholeSecond (Zone.ofOffset m.offset object)) := by
  obtain ⟨hyear, hmonth, hdate⟩ := date_bounds m.date
  obtain ⟨hhour, hminute, hsecond, -⟩ := m.time.isTimeOfDay
  have hdash : ∀ t : Text, skip? "-" (.scalar '-' :: t) = some t := fun _ => rfl
  have hmark : ∀ t : Text, skip? "T " (.scalar 'T' :: t) = some t := fun _ => rfl
  have hcolon : ∀ t : Text, skip? ":" (.scalar ':' :: t) = some t := fun _ => rfl
  have hwhole : Date.of? m.date.year m.date.month m.date.day = some m.date := dif_pos m.date.isDate
  have htime : TimeOfDay.of? m.time.hour m.time.minute m.time.second 0 = some m.time.wholeSecond :=
    dif_pos m.time.wholeSecond.isTimeOfDay
  have hseconds : ∀ {second : Nat} {t : Text}, second < 100 →
      (skip? ":" (.scalar ':' :: (Text.ofNatPadded 2 second ++ t))).bind (number? 2) = some (second, t) := by
    intro second t h
    rw [hcolon, Option.bind_some, number?_two h]
  rw [rfc3339_eq, moment?]
  -- Part by part, in the order of the reader.
  refine Option.bind_eq_some_iff.mpr ⟨_, number?_padded (by decide) hyear _, ?_⟩
  refine Option.bind_eq_some_iff.mpr ⟨_, hdash _, ?_⟩
  refine Option.bind_eq_some_iff.mpr ⟨_, number?_two hmonth _, ?_⟩
  refine Option.bind_eq_some_iff.mpr ⟨_, hdash _, ?_⟩
  refine Option.bind_eq_some_iff.mpr ⟨_, number?_two hdate _, ?_⟩
  refine Option.bind_eq_some_iff.mpr ⟨_, hmark _, ?_⟩
  refine Option.bind_eq_some_iff.mpr ⟨_, number?_two (by omega) _, ?_⟩
  refine Option.bind_eq_some_iff.mpr ⟨_, hcolon _, ?_⟩
  refine Option.bind_eq_some_iff.mpr ⟨_, number?_two (by omega) _, ?_⟩
  simp only [hseconds (show m.time.second < 100 by omega), micros_zoneText hminutes]
  refine Option.bind_eq_some_iff.mpr ⟨_, offset?_zoneText hday hminutes, ?_⟩
  refine Option.bind_eq_some_iff.mpr ⟨_, hwhole, ?_⟩
  exact Option.bind_eq_some_iff.mpr ⟨_, htime, rfl⟩

end Iso

namespace Moment

variable {m : Moment}

/-! ## Universal time as a date expression -/

/-- Date and time with a `T` between them, in universal time. -/
def zuluLayout : Layout := { parts := Layout.dateT, zulu := true }

theorem isValid_numbers (m : Moment) : m.numbers.IsValid :=
  ⟨m.date.isDate, m.time.wholeSecond.isTimeOfDay⟩

theorem wallMicros_wholeSecond (m : Moment) (zone : Zone) :
    (m.wholeSecond zone).wallMicros % 1000000 = 0 ∧
      m.wallMicros = (m.wholeSecond zone).wallMicros + m.time.micro := by
  simp only [wallMicros, wholeSecond, TimeOfDay.wholeSecond, TimeOfDay.micros, TimeOfDay.microsPerDay]
  omega

variable [ZoneDatabase]

theorem rfc3339_eq_print (h : m.offset = 0) : m.rfc3339 = zuluLayout.print m.numbers [] := by
  rw [rfc3339, if_pos h]
  simp only [Date.toText, TimeOfDay.toText, List.append_assoc]
  simp only [Layout.print, zuluLayout, Layout.printRow, Layout.dateT, Layout.yearMonthDay,
    Layout.hourMinuteSecond, Layout.hourMinute, List.cons_append, List.nil_append, List.flatMap_cons,
    List.flatMap_nil, LayoutPart.print, DateNumbers.get, if_true, List.append_assoc, List.append_nil]
  rfl

/-- **Universal time is read back** to the second, in whatever zone the reference moment is. -/
theorem resolve_rfc3339 (h : m.offset = 0) (now : Moment) :
    resolve m.rfc3339 now = .ok (m.wholeSecond .utc) := by
  have hlayout : zuluLayout ∈ Layout.table := by decide +kernel
  have hnumbers : zuluLayout.completed now.date m.numbers = m.numbers := rfl
  have hvalid : (zuluLayout.completed now.date m.numbers).IsValid := hnumbers ▸ m.isValid_numbers
  have hreads : zuluLayout.ReadsAs now.date (zuluLayout.print m.numbers []) m.numbers 0 :=
    Layout.readsAs_print hlayout hvalid (List.forall_mem_nil _) rfl
  have hread : zuluLayout.read? now m.rfc3339 = some (m.wholeSecond .utc) := by
    rw [rfc3339_eq_print h]
    exact Layout.read?_eq_some_iff.mpr ⟨m.numbers, 0, hreads, dif_pos m.date.isDate,
      dif_pos m.time.wholeSecond.isTimeOfDay, rfl, rfl⟩
  obtain ⟨p, u, hp, -, hminus, hword⟩ := Layout.print_head hlayout hvalid []
  rw [← rfc3339_eq_print h] at hp
  exact resolve_of_findSome? hp hword hminus (findSome?_table hlayout hread)

/-! ## Whole seconds -/

theorem timestamp_of_nonneg (hfirst : 0 ≤ m.sinceEpoch) (hlast : m.sinceEpoch < 2 ^ 34 * 1000000) :
    m.timestamp = m.sinceEpoch / 1000000 := by
  have hsign : decide (m.sinceEpoch < 0) = false := decide_eq_false (by omega)
  have hsize : m.sinceEpoch.natAbs < 2 ^ 34 * 1000000 := by omega
  rw [timestamp, hsign, Binary64.truncate?_ofRatio_million hsize, Option.getD_some]
  omega

theorem sinceEpoch_wholeSecond (m : Moment) (object : Nat) :
    (m.wholeSecond (Zone.ofOffset m.offset object)).sinceEpoch = m.sinceEpoch / 1000000 * 1000000 := by
  have hoffset : (m.wholeSecond (Zone.ofOffset m.offset object)).offset = m.offset :=
    Zone.offsetAtWall_ofOffset m.offset object _ _
  obtain ⟨hwhole, hwall⟩ := m.wallMicros_wholeSecond (Zone.ofOffset m.offset object)
  have hmicro := m.time.isTimeOfDay.2.2.2
  rw [sinceEpoch, sinceEpoch, instant, instant, hoffset, hwall, epoch]
  omega

end Moment

/-- **The two formats agree.** In international notation a moment of universal time is a date expression
that means the beginning of its second, whatever the reference moment is. Where the zone is ahead or behind
by whole minutes, and the moment lies between the beginnings of 1970 and of 2500, what is read back from
the notation is exactly as many seconds after the beginning of 1970 as the timestamp says. -/
theorem formats_agree [ZoneDatabase] (m : Moment) (object : Nat) :
    (m.offset = 0 → ∀ now, ∃ t, formatMoment m .rfc3339 = .ok t ∧
      resolve t now = .ok (m.wholeSecond .utc)) ∧
    (m.offset.natAbs < 86400 → m.offset % 60 = 0 → yearBegins 1970 * 1000000 ≤ m.instant →
      m.instant < yearBegins 2500 * 1000000 →
      ∃ t w seconds, formatMoment m .rfc3339 = .ok t ∧ Iso.moment? t object = some w ∧
        w = m.wholeSecond (Zone.ofOffset m.offset object) ∧
        formatMoment m .timestamp = .ok (Text.ofInt seconds) ∧ w.sinceEpoch = seconds * 1000000) := by
  refine ⟨fun hutc now => ⟨m.rfc3339, rfl, m.resolve_rfc3339 hutc now⟩, ?_⟩
  intro hday hminutes hfirst hlast
  have hbegin : yearBegins 1970 = 719162 * 86400 := by decide
  have hend : yearBegins 2500 = 719162 * 86400 + 16725225600 := by decide
  have hnonneg : 0 ≤ m.sinceEpoch := by
    rw [Moment.sinceEpoch, Moment.epoch]
    omega
  have hbound : m.sinceEpoch < 2 ^ 34 * 1000000 := by
    rw [Moment.sinceEpoch, Moment.epoch]
    omega
  refine ⟨m.rfc3339, _, m.timestamp, rfl, Iso.moment?_rfc3339 hday hminutes object, rfl, rfl, ?_⟩
  rw [m.sinceEpoch_wholeSecond object, Moment.timestamp_of_nonneg hnonneg hbound]

/-- The last microsecond of the first second of the calendar. -/
def firstSecond : Moment :=
  { date := default, time := ⟨0, 0, 0, 999999, by decide⟩, zone := .utc, later := false }

/-- The last microsecond before 2500, three hours and a half behind universal time. -/
def lastMicrosecond : Moment :=
  { date := ⟨2499, 12, 31, by decide⟩, time := ⟨20, 29, 59, 999999, by decide⟩,
    zone := .fixed (-12600) none 0,
    later := false }

attribute [local instance] Region.database in
/-- The ends of both ranges, where a double-precision number of seconds is coarser than a microsecond. -/
theorem formats_agree_ends : firstSecond.offset = 0 ∧
    resolve "0001-01-01T00:00:00Z" lastMicrosecond = .ok (firstSecond.wholeSecond .utc) ∧
    lastMicrosecond.offset = -12600 ∧ lastMicrosecond.instant + 1 = yearBegins 2500 * 1000000 ∧
    formatMoment lastMicrosecond .timestamp = .ok "16725225599" ∧
    ∃ w, Iso.moment? "2499-12-31T20:29:59-03:30" 1 = some w ∧ w.sinceEpoch = 16725225599 * 1000000 := by
  have hinstant : lastMicrosecond.instant + 1 = yearBegins 2500 * 1000000 := by decide +kernel
  have hbegin : yearBegins 1970 ≤ yearBegins 2500 - 1 := by decide
  have hfirst : formatMoment firstSecond .rfc3339 = .ok "0001-01-01T00:00:00Z" :=
    eq_ok_of_toOption (by decide +kernel)
  have hlast : formatMoment lastMicrosecond .rfc3339 = .ok "2499-12-31T20:29:59-03:30" :=
    eq_ok_of_toOption (by decide +kernel)
  have hsecond : (lastMicrosecond.wholeSecond (Zone.ofOffset lastMicrosecond.offset 1)).sinceEpoch
      = 16725225599 * 1000000 := by decide +kernel
  have hdigits : Text.ofInt 16725225599 = "16725225599" := by decide +kernel
  obtain ⟨t, ht, hresolve⟩ := (formats_agree firstSecond 1).1 rfl lastMicrosecond
  obtain rfl := Except.ok.inj (hfirst.symm.trans ht)
  obtain ⟨t, w, seconds, ht, hread, rfl, hseconds, hsame⟩ := (formats_agree lastMicrosecond 1).2
    (by decide) (by decide) (by omega) (by omega)
  obtain rfl := Except.ok.inj (hlast.symm.trans ht)
  obtain rfl : seconds = 16725225599 := by omega
  rw [hdigits] at hseconds
  exact ⟨rfl, hresolve, rfl, hinstant, hseconds, _, hread, hsecond⟩

end LogQuery
