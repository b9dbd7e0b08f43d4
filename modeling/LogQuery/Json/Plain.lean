import LogQuery.Json.Encoding
import LogQuery.Number.Decimal
import LogQuery.Value.Basic
/-!
# Plain values of JSON documents

A JSON document as a value: integers of any size are exact, other numbers are rounded to double
precision.
-/
namespace LogQuery.Json

def integerOf (literal : Text) : Int :=
  let (negative, digits) := Integer.readSign literal
  let n : Int := ofDigits 10 (digits.filterMap CodePoint.asciiDigit?)
  if negative then -n else n

/-- The double-precision number of a number literal. -/
def decimalOf (literal : Text) : Binary64 := (Decimal.readPlain? literal).getD .nan

/-- The number that a constant names. -/
def Constant.value : Constant → Binary64
  | nan => .nan
  | infinity => .infinite false
  | minusInfinity => .infinite true

namespace Tree

mutual

def toValue : Tree → Value
  | null => .null
  | bool b => .bool b
  | integer literal => .integer (integerOf literal)
  | decimal literal => .float (decimalOf literal)
  | constant c => .float c.value
  | string t => .string t
  | list items => .list (itemValues items)
  | map members => .map (memberValues members)

def itemValues : List Tree → List Value
  | [] => []
  | x :: rest => x.toValue :: itemValues rest

def memberValues : List (Text × Tree) → List (Scalar × Value)
  | [] => []
  | (k, x) :: rest => (.string k, x.toValue) :: memberValues rest

end

end Tree

/-- Read a text as a JSON document and take its value; numbers without digits are accepted. -/
def parse (depth : Nat) (t : Text) : Except Error Value := (Tree.read true depth t).map Tree.toValue

end LogQuery.Json
