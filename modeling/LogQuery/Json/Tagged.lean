import LogQuery.Json.Plain
import LogQuery.Json.Writer
/-!
# Tagged documents

Search services return identifiers as integers that do not survive a trip through a
floating-point number. A document is therefore decoded into a tree whose every number says what it
is:

* `integer`: at most `2^53` in magnitude, exact in any representation;
* `bigInteger`: beyond that, but within 64 bits with or without sign; its digits are kept;
* `float`: any other number.

`Tagged.decode` reads a document, `Tagged.plain` drops the tags, `Tagged.ofValue` sets them on a
value, and `Tagged.encode` writes a tree back.
-/
namespace LogQuery

/-- A document whose numbers are tagged with the precision they need. -/
inductive Tagged where
  | null
  | bool (b : Bool)
  | integer (n : Int)
  | bigInteger (digits : Text)
  | float (x : Binary64)
  | string (t : Text)
  | list (items : List Tagged)
  | map (members : List (Text × Tagged))
  deriving Inhabited

namespace Tagged

/-- The greatest magnitude up to which every integer has a double-precision number. -/
def maxSafeInteger : Int := Nat.pow 2 53

/-- The least integer of 64 bits with a sign. -/
def minInteger64 : Int := -Nat.pow 2 63

/-- The greatest integer of 64 bits without a sign. -/
def maxInteger64 : Int := Nat.pow 2 64 - 1

def ofDigits (n : Int) (digits : Text) : Tagged :=
  if n.natAbs ≤ maxSafeInteger then .integer n
  else if minInteger64 ≤ n ∧ n ≤ maxInteger64 then .bigInteger digits
  else .float (Json.decimalOf digits)

def ofLiteral (literal : Text) : Tagged := ofDigits (Json.integerOf literal) literal

def ofInteger (n : Int) : Tagged := ofDigits n (Text.ofInt n)

mutual

/-- Tag the numbers of a document by their literals. -/
def ofTree : Json.Tree → Tagged
  | .null => .null
  | .bool b => .bool b
  | .integer literal => ofLiteral literal
  | .decimal literal => .float (Json.decimalOf literal)
  | .constant c => .float c.value
  | .string t => .string t
  | .list items => .list (ofTrees items)
  | .map members => .map (ofTreeMembers members)

/-- Tag the numbers of the items of a list. -/
def ofTrees : List Json.Tree → List Tagged
  | [] => []
  | x :: rest => ofTree x :: ofTrees rest

/-- Tag the numbers of the members of a map. -/
def ofTreeMembers : List (Text × Json.Tree) → List (Text × Tagged)
  | [] => []
  | (k, x) :: rest => (k, ofTree x) :: ofTreeMembers rest

end

/-- Read a text as a document; the names of numbers without digits are refused. -/
def decode (depth : Nat) (t : Text) : Except Json.Error Tagged :=
  (Json.Tree.read false depth t).map ofTree

/-- Read a byte string as a document; the names of numbers without digits are refused. -/
def decodeBytes (depth : Nat) (bytes : Bytes) : Except Json.Error Tagged :=
  (Json.Tree.readBytes false depth bytes).map ofTree

/-- Tag a scalar. What JSON does not have becomes the string that displays it. -/
def ofScalar : Scalar → Tagged
  | .null => .null
  | .bool b => .bool b
  | .integer n => ofInteger n
  | .float x => .float x
  | s => .string s.display

mutual

/-- Tag the numbers of a value. -/
def ofValue : Value → Tagged
  | .scalar s => ofScalar s
  | .list items => .list (ofValues items)
  | .tuple items => .list (ofValues items)
  | .map entries => .map (Text.ofPairs (ofEntries entries))
  | .set items => .string (Value.set items).display

/-- Tag the numbers of some values. -/
def ofValues : List Value → List Tagged
  | [] => []
  | v :: rest => ofValue v :: ofValues rest

/-- Tag the numbers of the entries of a map. -/
def ofEntries : List (Scalar × Value) → List (Text × Tagged)
  | [] => []
  | (k, v) :: rest => (k.display, ofValue v) :: ofEntries rest

end

mutual

/-- The value of a tagged document; a big integer is the exact integer of its digits. -/
def plain : Tagged → Value
  | null => .null
  | bool b => .bool b
  | integer n => .integer n
  | bigInteger digits => .integer (Json.integerOf digits)
  | float x => .float x
  | string t => .string t
  | list items => .list (plainItems items)
  | map members => .map (plainMembers members)

def plainItems : List Tagged → List Value
  | [] => []
  | x :: rest => x.plain :: plainItems rest

def plainMembers : List (Text × Tagged) → List (Scalar × Value)
  | [] => []
  | (k, x) :: rest => (.string k, x.plain) :: plainMembers rest

end

/-- The member of a map; other documents have none. -/
def member? (key : Text) : Tagged → Option Tagged
  | map members => Text.lookup? key members
  | _ => none

def kindName : Tagged → String
  | null => "null"
  | bool _ => "bool"
  | integer _ => "integer"
  | bigInteger _ => "big_integer"
  | float _ => "float"
  | string _ => "string"
  | list _ => "list"
  | map _ => "map"

/-- Write a document on one line without white space. -/
def toText (x : Tagged) : Text := Json.write .compact x.plain

/-- Write a document as bytes; there are none when a string holds a lone surrogate. -/
def encode? (x : Tagged) : Option Bytes := Utf8.encode? x.toText

end Tagged
end LogQuery
