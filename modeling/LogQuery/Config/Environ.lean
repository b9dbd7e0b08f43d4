import LogQuery.Fault
/-!
# Environment variables

The variables that are set when the program starts. Some settings come from them when a
configuration does not have them.
-/
namespace LogQuery

/-- The variables that are set, with their values. -/
abbrev Environ := List (Text × Text)

namespace Environ

/-- The value of a variable, if it is set. -/
def get? (environ : Environ) (name : Text) : Option Text := Text.lookup? name environ

/-- The value of a variable, empty if it is not set. -/
def get (environ : Environ) (name : String) : Text := (environ.get? name).getD []

/-- A code point that the name of a variable may have; of the surrogates these are the ones that
stand for a single byte. -/
def isNamePoint : CodePoint → Bool
  | .scalar _ => true
  | .surrogate offset => 0x480 ≤ offset.val && offset.val < 0x500

end Environ
end LogQuery
