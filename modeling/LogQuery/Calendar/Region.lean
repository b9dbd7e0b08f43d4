import LogQuery.Calendar.Zone
/-!
# Clocks that are changed by a yearly rule

Regions whose clocks change twice a year or never. A rule says on which Sunday the summer season begins
and ends, as an instant of universal time, so that one definition serves both hemispheres. The offset
before a change counts for a wall-clock reading that is skipped or occurs twice, unless the reading is
marked as the later one.

`Region.database` is a small zone database to run the program with. It has five regions, each with the
rule of recent years, and the machine shows universal time.
-/
namespace LogQuery

/-- The Sunday of a month on which clocks change. -/
inductive Sunday where
  /-- Counted from zero at the front of the month. -/
  | fromFirst (weeks : Nat)
  | last
  deriving DecidableEq

/-- A yearly change of the clocks. -/
structure ClockChange where
  month : Nat
  sunday : Sunday
  /-- Seconds of universal time from the beginning of that Sunday to the change. -/
  after : Int
  deriving DecidableEq

/-- A season in which clocks are ahead of standard time. -/
structure SummerTime where
  /-- By how many seconds. -/
  saving : Nat
  begins : ClockChange
  ends : ClockChange
  name : String
  deriving DecidableEq

/-- A rule for the clocks of a region. -/
structure ZoneRule where
  /-- Seconds ahead of universal time. -/
  standard : Int
  name : String
  summer : Option SummerTime
  deriving DecidableEq

namespace ClockChange

/-- The number of the Sunday of a change in a year; numbers divisible by seven are Sundays. -/
def sundayOrdinal (c : ClockChange) (year : Nat) : Nat :=
  let first := Date.daysBeforeYear year + Date.daysBeforeMonth year c.month + 1
  match c.sunday with
  | .fromFirst weeks => (first + 6) / 7 * 7 + weeks * 7
  | .last => (first + daysInMonth year c.month - 1) / 7 * 7

/-- The instant of a change in a year, in seconds since the beginning of the year 1. -/
def instant (c : ClockChange) (year : Nat) : Int :=
  (c.sundayOrdinal year - 1 : Int) * 86400 + c.after

end ClockChange

namespace SummerTime

/-- Whether a reading lies in the season, given where the season of its year begins and ends
on the same clock. -/
def covers (begins ends reading : Int) : Bool :=
  if begins ≤ ends then begins ≤ reading && reading < ends
  else begins ≤ reading || reading < ends

/-- Whether an instant lies in the season. -/
def coversInstant (s : SummerTime) (t : Int) : Bool :=
  let year := yearOfSeconds t
  covers (s.begins.instant year) (s.ends.instant year) t

/-- Whether a wall-clock reading lies in the season. A reading that is skipped or occurs twice
counts as before the change, and as after it if it is marked as the later one. -/
def coversWall (s : SummerTime) (standard : Int) (later : Bool) (wall : Int) : Bool :=
  let year := yearOfSeconds wall
  let ahead := standard + (if later then 0 else (s.saving : Int))
  covers (s.begins.instant year + ahead) (s.ends.instant year + ahead) wall

/-- Whether the clock shows at this instant what it has shown a little before. -/
def repeats (s : SummerTime) (t : Int) : Bool :=
  let ends := s.ends.instant (yearOfSeconds t)
  ends ≤ t && t < ends + s.saving

end SummerTime

def ZoneRule.clock (r : ZoneRule) : RegionClock :=
  match r.summer with
  | none =>
    { offsetAtInstant _ := r.standard, isLaterAt _ := false, offsetAtWall _ _ := r.standard,
      isSummerAt _ _ := false, abbreviation _ _ := r.name }
  | some s =>
    { offsetAtInstant t := r.standard + if s.coversInstant t then (s.saving : Int) else 0
      isLaterAt t := s.repeats t
      offsetAtWall later wall :=
        r.standard + if s.coversWall r.standard later wall then (s.saving : Int) else 0
      isSummerAt later wall := s.coversWall r.standard later wall
      abbreviation later wall := if s.coversWall r.standard later wall then s.name else r.name }

/-- The regions whose rules are known. -/
inductive Region where
  | kolkata
  | tokyo
  | berlin
  | newYork
  | lordHowe
  deriving DecidableEq

namespace Region

def all : List Region := [kolkata, tokyo, berlin, newYork, lordHowe]

def name : Region → String
  | kolkata => "Asia/Kolkata"
  | tokyo => "Asia/Tokyo"
  | berlin => "Europe/Berlin"
  | newYork => "America/New_York"
  | lordHowe => "Australia/Lord_Howe"

def ofName? (t : Text) : Option Region := all.find? fun r => t.isString r.name

def rule : Region → ZoneRule
  | kolkata => { standard := 19800, name := "IST", summer := none }
  | tokyo => { standard := 32400, name := "JST", summer := none }
  | berlin =>
    { standard := 3600, name := "CET",
      summer := some
        { saving := 3600, begins := ⟨3, .last, 3600⟩, ends := ⟨10, .last, 3600⟩, name := "CEST" } }
  | newYork =>
    { standard := -18000, name := "EST",
      summer := some
        { saving := 3600, begins := ⟨3, .fromFirst 1, 25200⟩, ends := ⟨11, .fromFirst 0, 21600⟩,
          name := "EDT" } }
  | lordHowe =>
    { standard := 37800, name := "+1030",
      summer := some
        { saving := 1800, begins := ⟨10, .fromFirst 0, -30600⟩, ends := ⟨4, .fromFirst 0, -32400⟩,
          name := "+11" } }

/-- A machine whose clock shows universal time. An hour that is said to be one of summer is set back. -/
def machine : MachineClock where
  offset := 0
  name := "UTC"
  seasonName _ := "UTC"
  secondsAt summer reading := if summer = some true then reading - 3600 else reading

@[reducible]
def database : ZoneDatabase where
  region name :=
    match ofName? name with
    | some r => .ok r.rule.clock
    | none => .error .missing
  machine := machine

end Region
end LogQuery
