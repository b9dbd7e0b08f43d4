import LogQuery.Calendar.Date
import LogQuery.Fault
/-!
# Time zones

Universal time, fixed offsets, and regions whose clocks may be changed. What the clock of a region
shows is recorded in a `ZoneDatabase`, which is not part of the program: it also knows the clock
of the machine. All seconds count from the beginning of the year 1 unless something else is said.

A wall-clock reading may be skipped or occur twice. A clock therefore gives two offsets for a reading,
one for the case that it is marked as the later one.
-/
namespace LogQuery

/-- What the clock of a region shows. -/
structure RegionClock where
  /-- Seconds ahead of universal time at an instant. -/
  offsetAtInstant : Int → Int
  /-- Whether the wall-clock reading at an instant is the later of two equal ones. -/
  isLaterAt : Int → Bool
  /-- Seconds ahead of universal time at a wall-clock reading. -/
  offsetAtWall : (later : Bool) → Int → Int
  /-- Whether it is summer time at a wall-clock reading. -/
  isSummerAt : (later : Bool) → Int → Bool
  /-- What the zone is called at a wall-clock reading. -/
  abbreviation : (later : Bool) → Int → Text

/-- What the clock of the machine shows. -/
structure MachineClock where
  /-- Seconds ahead of universal time at present. -/
  offset : Int
  /-- What its zone is called at present. -/
  name : Text
  /-- What its zone is called in winter and in summer. -/
  seasonName : (summer : Bool) → Text
  /-- Seconds since 1970 at a wall-clock reading, itself in seconds since 1970. It may be known whether
  the reading is one in summer. -/
  secondsAt : (summer : Option Bool) → Int → Int

/-- Why a zone database has no clock for a name. -/
inductive RegionError where
  | missing
  /-- What the database has under the name is no description of a clock. -/
  | malformed (message : Text)
  | fault (f : Fault)
  deriving DecidableEq

/-- The clocks of the regions of the world, by their names, and that of the machine. -/
class ZoneDatabase where
  region : (name : Text) → Except RegionError RegionClock
  machine : MachineClock

/-- A time zone. Zones at a fixed offset may be equal and yet not the same: `object` tells those apart
that were made apart. There is one universal time, and one zone for each region. -/
inductive Zone where
  | utc
  /-- Seconds ahead of universal time, and a name if the zone has one. -/
  | fixed (offset : Int) (name : Option Text) (object : Nat)
  | region (name : Text)
  deriving DecidableEq, Inhabited

def RegionClock.universal : RegionClock where
  offsetAtInstant _ := 0
  isLaterAt _ := false
  offsetAtWall _ _ := 0
  isSummerAt _ _ := false
  abbreviation _ _ := "UTC"

namespace Zone

/-- The zone made for an offset; at offset zero it is universal time. -/
def ofOffset (offset : Int) (object : Nat) : Zone :=
  if offset = 0 then .utc else .fixed offset none object

/-- An offset as sign, hours and minutes, with seconds where there are any; `sep` stands
between the parts. -/
def offsetText (sep : String) (offset : Int) : Text :=
  let n := offset.natAbs
  let seconds := n % 60
  (if offset < 0 then "-" else "+") ++ Text.ofNatPadded 2 (n / 3600) ++ Text.ofString sep
    ++ Text.ofNatPadded 2 (n / 60 % 60)
    ++ (if seconds = 0 then [] else Text.ofString sep ++ Text.ofNatPadded 2 seconds)

def toText : Zone → Text
  | utc => "UTC"
  | fixed o name _ => name.getD ("UTC" ++ offsetText ":" o)
  | region name => name

section

variable [ZoneDatabase]

/-- What the clock of a region shows. Only the names that the database has are names of zones. -/
def regionClock (name : Text) : RegionClock :=
  match ZoneDatabase.region name with
  | .ok clock => clock
  | .error _ => .universal

/-- Seconds ahead of universal time at an instant. -/
def offsetAtInstant : Zone → Int → Int
  | utc, _ => 0
  | fixed o _ _, _ => o
  | region name, t => (regionClock name).offsetAtInstant t

/-- Seconds ahead of universal time at a wall-clock reading. -/
def offsetAtWall (z : Zone) (later : Bool) (wall : Int) : Int :=
  match z with
  | utc => 0
  | fixed o _ _ => o
  | region name => (regionClock name).offsetAtWall later wall

/-- Whether the wall-clock reading at an instant is the later of two equal ones. -/
def isLaterAt : Zone → Int → Bool
  | region name, t => (regionClock name).isLaterAt t
  | _, _ => false

/-- Whether a wall-clock reading is one in summer, where that is known. -/
def isSummerAt? (z : Zone) (later : Bool) (wall : Int) : Option Bool :=
  match z with
  | region name => some ((regionClock name).isSummerAt later wall)
  | _ => none

/-- What a zone is called at a wall-clock reading. -/
def abbreviation (z : Zone) (later : Bool) (wall : Int) : Text :=
  match z with
  | region name => (regionClock name).abbreviation later wall
  | _ => z.toText

end

end Zone
end LogQuery
