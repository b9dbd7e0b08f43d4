import LogQuery.Failure
import LogQuery.Json.Writer
/-!
# Values that a configuration shows

An endpoint, an alias, a header of a command or the name in a report is the displayed form of a value. An
integer of too many digits has none, and neither has a value with such an integer in it. Showing it is a
fault, also where this is done to report something else.
-/
namespace LogQuery

def Scalar.isShowable (s : Scalar) : Bool := (Json.scalarRefusal? s).isNone

namespace Value

mutual

def isShowable : Value → Bool
  | scalar s => s.isShowable
  | list items => areShowable items
  | tuple items => areShowable items
  | map entries => haveShowable entries
  | set items => items.all Scalar.isShowable

def areShowable : List Value → Bool
  | [] => true
  | v :: rest => isShowable v && areShowable rest

def haveShowable : List (Scalar × Value) → Bool
  | [] => true
  | (k, v) :: rest => k.isShowable && isShowable v && haveShowable rest

end

/-- The displayed form of a value, unless it has none. -/
def shown (v : Value) : Except Fault Text :=
  if v.isShowable then .ok v.display else .error Json.longInteger

end Value

/-- A failure whose report names a value. Without a displayed form of the value there is no report. -/
def Failure.naming (v : Value) : Failure → Failure
  | .config e => if v.isShowable then .config e else .fault Json.longInteger
  | e => e

end LogQuery
