import LogQuery.Calendar.Zone
import LogQuery.Config.Error
import LogQuery.Text.Class
/-!
# Names of time zones

The name of a region is a path into a zone database. A name that is no plain path inside the
database is refused before it is looked up.
-/
namespace LogQuery

namespace Text

/-- The parts of a path when the dots in it have been followed, the last one first. -/
def followDots (parts : List Text) : List Text :=
  parts.foldl
    (fun stack part =>
      if part = [] ∨ part = "." then stack
      else if part = ".." then
        match stack with
        | [] => [part]
        | top :: rest => if top = ".." then part :: stack else rest
      else part :: stack)
    []

/-- The parts of a relative path when the dots in it have been followed. -/
def pathParts (path : Text) : List Text := (followDots (path.splitOn (.scalar '/'))).reverse

/-- A relative path when the dots in it have been followed. -/
def normalPath (path : Text) : Text :=
  match pathParts path with
  | [] => "."
  | parts => join "/" parts

end Text

/-- Why a name is not that of a time zone, or cannot be looked up. -/
inductive ZoneNameFailure where
  | error (e : ZoneNameError)
  | fault (f : Fault)
  deriving DecidableEq

namespace Zone

/-- A path that leads to something inside the directory that it starts from. -/
def staysInside (path : Text) : Bool :=
  match Text.pathParts ("_/" ++ path) with
  | top :: _ :: _ => top.isString "_"
  | _ => false

section

variable [ZoneDatabase]

def ofRegionName (name : Text) : Except ZoneNameFailure Zone :=
  if name.head? = some (.scalar '/') then .error (.error (.absolute name))
  else if name.normalPath.length ≠ name.length then .error (.error (.notNormal name))
  else if !staysInside name.normalPath then .error (.error (.outside name))
  else
    match ZoneDatabase.region name with
    | .ok _ => .ok (.region name)
    | .error .missing => .error (.error (.unknown name))
    | .error (.malformed message) => .error (.error (.malformed message))
    | .error (.fault f) => .error (.fault f)

/-- The zone that the clock of the machine shows, made anew. -/
def ofMachine (object : Nat) : Zone :=
  .fixed ZoneDatabase.machine.offset ZoneDatabase.machine.name object

/-- The zone of a name: universal time, the zone of the machine, or a region. -/
def ofName (name : Text) (object : Nat) : Except ZoneNameFailure Zone :=
  if name.asciiUpper.isString "UTC" then .ok .utc
  else if name.isString "Local" then .ok (ofMachine object)
  else ofRegionName name

end

end Zone
end LogQuery
