import LogQuery.Calendar.Zone
/-!
# Moments

A moment is a date and a time of day read off the clock of a zone. Where that clock is set back
a reading occurs twice, and `later` marks the second occurrence.

`instant` places a moment on the one line of universal time, `inZone?` reads the same instant off
another clock, and `minus?` steps back on the wall clock of the moment's own zone. Both leave the
calendar at its ends. A moment that is in a zone already stays as it is, but an equal zone that was
made apart is another one.
-/
namespace LogQuery

/-- A reading of date and time in a zone. -/
structure Moment where
  date : Date
  time : TimeOfDay
  zone : Zone
  /-- The second of two equal readings. -/
  later : Bool
  deriving DecidableEq, Inhabited

namespace Moment

/-- Microseconds from the beginning of the year 1 to a reading of date and time. -/
def wallMicros (m : Moment) : Nat :=
  (m.date.ordinal - 1) * TimeOfDay.microsPerDay + m.time.micros

/-- Whole seconds from the beginning of the year 1 to a reading. -/
def wallSeconds (m : Moment) : Int := (m.wallMicros / 1000000 : Nat)

/-- The reading a number of microseconds after the beginning of the year 1. -/
def ofWallMicros? (micros : Int) (zone : Zone) (later : Bool) : Option Moment :=
  if micros < 0 then none
  else
    (Date.ofOrdinal? (micros.toNat / TimeOfDay.microsPerDay + 1)).map fun date =>
      { date, time := TimeOfDay.ofMicros micros.toNat, zone, later }

/-- A number of seconds earlier on the same wall clock. -/
def minus? (m : Moment) (seconds : Int) : Option Moment :=
  ofWallMicros? (m.wallMicros - seconds * 1000000) m.zone false

/-- Microseconds from the beginning of the year 1 to the beginning of 1970. -/
def epoch : Int := 719162 * 86400000000

section

variable [ZoneDatabase]

/-- Seconds that the zone is ahead of universal time. -/
def offset (m : Moment) : Int := m.zone.offsetAtWall m.later m.wallSeconds

/-- Microseconds of universal time from the beginning of the year 1. -/
def instant (m : Moment) : Int := (m.wallMicros : Int) - m.offset * 1000000

/-- The reading of a zone's clock at an instant. Both the instant and the reading have to lie
in the calendar. -/
def ofInstant? (t : Int) (zone : Zone) : Option Moment := do
  let _ ← ofWallMicros? t .utc false
  let seconds := t.fdiv 1000000
  ofWallMicros? (t + zone.offsetAtInstant seconds * 1000000) zone (zone.isLaterAt seconds)

/-- The same instant on the clock of another zone. -/
def inZone? (m : Moment) (zone : Zone) : Option Moment :=
  if m.zone = zone then some m else ofInstant? m.instant zone

/-- Microseconds of universal time since the beginning of 1970. -/
def sinceEpoch (m : Moment) : Int := m.instant - epoch

end

end Moment
end LogQuery
