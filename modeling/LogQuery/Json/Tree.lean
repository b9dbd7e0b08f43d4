import LogQuery.Text.Basic
/-!
# JSON documents

A JSON document as it was written: numbers are kept as their literals, so that whoever reads the
tree decides what precision they deserve. Members are in order of first appearance; a repeated
name keeps its first place and its last value.
-/
namespace LogQuery.Json

/-- A name of a number that has no digits. The standard knows none of them. -/
inductive Constant where
  | nan
  | infinity
  | minusInfinity
  deriving DecidableEq

def Constant.name : Constant → String
  | nan => "NaN"
  | infinity => "Infinity"
  | minusInfinity => "-Infinity"

/-- A JSON document. -/
inductive Tree where
  | null
  | bool (b : Bool)
  /-- A number literal without point and exponent. -/
  | integer (literal : Text)
  /-- A number literal with a point or an exponent. -/
  | decimal (literal : Text)
  | constant (c : Constant)
  | string (t : Text)
  | list (items : List Tree)
  | map (members : List (Text × Tree))
  deriving Inhabited

end LogQuery.Json
