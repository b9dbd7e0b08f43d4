import LogQuery.Calendar.Moment
import LogQuery.Number.Binary64
import LogQuery.Text.Utf8
/-!
# Document values

What a JSON or YAML document stands for. JSON knows null, booleans, numbers, strings, lists and
maps with string keys; YAML adds dates, timestamps and byte strings, sets, ordered pairs, and
maps whose keys may be any scalar.

A map is its list of entries in order of first insertion. Two keys are the same key when they are
equal as values, and numbers of any kind are compared by their numeric value (`Scalar.sameKey`).
-/
namespace LogQuery

/-- A date and time of day as a document states it, with an offset in seconds or without one. -/
structure Timestamp where
  date : Date
  time : TimeOfDay
  offset : Option Int
  deriving DecidableEq

/-- Microseconds from the beginning of the year 1 to a timestamp, on the clock of its offset or
on universal time. -/
def Timestamp.micros (t : Timestamp) : Int :=
  ((t.date.ordinal - 1) * TimeOfDay.microsPerDay + t.time.micros : Nat)
    - t.offset.getD 0 * 1000000

/-- A value without parts. -/
inductive Scalar where
  | null
  | bool (b : Bool)
  | integer (n : Int)
  | float (x : Binary64)
  | string (t : Text)
  | date (d : Date)
  | timestamp (t : Timestamp)
  | bytes (b : Bytes)
  deriving DecidableEq, Inhabited

/-- A value of a document. -/
inductive Value where
  | scalar (s : Scalar)
  | list (items : List Value)
  | map (entries : List (Scalar × Value))
  | tuple (items : List Value)
  | set (items : List Scalar)
  deriving Inhabited

namespace Scalar

/-- The numeric value of an integer or a boolean. -/
def integer? : Scalar → Option Int
  | bool b => some (if b then 1 else 0)
  | integer n => some n
  | float x => x.toInt?
  | _ => none

/-- Whether two scalars are the same key of a map. -/
def sameKey (a b : Scalar) : Bool :=
  match a.integer?, b.integer? with
  | some m, some n => m = n
  | _, _ =>
    match a, b with
    | timestamp s, timestamp t => s.offset.isSome = t.offset.isSome && s.micros = t.micros
    | _, _ => a = b

end Scalar

namespace Value

@[match_pattern] abbrev null : Value := scalar .null
@[match_pattern] abbrev bool (b : Bool) : Value := scalar (.bool b)
@[match_pattern] abbrev integer (n : Int) : Value := scalar (.integer n)
@[match_pattern] abbrev float (x : Binary64) : Value := scalar (.float x)
@[match_pattern] abbrev string (t : Text) : Value := scalar (.string t)

def lookup? {α : Type} (key : Scalar) : List (Scalar × α) → Option α
  | [] => none
  | (k, v) :: rest => if k.sameKey key then some v else lookup? key rest

/-- Set the value of a key: one that is there keeps its place and its spelling. -/
def insert {α : Type} (key : Scalar) (value : α) : List (Scalar × α) → List (Scalar × α)
  | [] => [(key, value)]
  | (k, v) :: rest =>
    if k.sameKey key then (k, value) :: rest else (k, v) :: insert key value rest

/-- The map of a list of pairs, read from left to right: first place, last value. -/
def ofPairs {α : Type} (pairs : List (Scalar × α)) : List (Scalar × α) :=
  pairs.foldl (fun entries (k, v) => insert k v entries) []

/-- Entries with string keys as entries of a map. -/
def ofMembers (members : List (Text × Value)) : Value :=
  map (members.map fun (k, v) => (.string k, v))

def member? (v : Value) (key : Text) : Option Value :=
  match v with
  | map entries => lookup? (.string key) entries
  | _ => none

/-- Whether a value counts as something: nulls, false, zeros and empty values do not. -/
def isTruthy : Value → Bool
  | scalar .null => false
  | scalar (.bool b) => b
  | scalar (.integer n) => n ≠ 0
  | scalar (.float (.finite _ m _)) => m ≠ 0
  | scalar (.float _) => true
  | scalar (.string t) => t ≠ []
  | scalar (.bytes b) => b ≠ []
  | scalar (.date _) => true
  | scalar (.timestamp _) => true
  | list items => !items.isEmpty
  | map entries => !entries.isEmpty
  | tuple items => !items.isEmpty
  | set items => !items.isEmpty

end Value
end LogQuery
