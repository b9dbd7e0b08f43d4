import LogQuery.Fault
import LogQuery.Number.Decimal
import LogQuery.Value.Literal
/-!
# Taking values apart

A configuration is a value in which anything may stand in any place. The functions here look at a
value as the thing that it should be (a table, a sequence, a number) and say what is wrong with it
otherwise.
-/
namespace LogQuery.Value

/-- A value, or another one if it does not count as something. -/
def orElse (v : Value) (other : Value) : Value := if v.isTruthy then v else other

def entries : Value → Except Fault (List (Scalar × Value))
  | map entries => .ok entries
  | _ => .error .missingOperation

/-- An entry of a table, if the table has it. -/
def entry? (v : Value) (key : String) : Except Fault (Option Value) :=
  v.entries.map (lookup? (.string key))

def entry (v : Value) (key : String) : Except Fault Value := (v.entry? key).map (·.getD .null)

/-- An entry of a table, or a given value if the table does not have it. -/
def entryOr (v : Value) (key : String) (default : Value) : Except Fault Value :=
  (v.entry? key).map (·.getD default)

/-- An entry of a table that is a table itself; one that does not count as something is empty. -/
def table (v : Value) (key : String) : Except Fault (List (Scalar × Value)) := do
  let v ← v.entry key
  (v.orElse (.map [])).entries

/-- The elements of a sequence: the characters of a text, the keys of a table, the numbers of a
byte string. -/
def elements : Value → Except Fault (List Value)
  | list items => .ok items
  | tuple items => .ok items
  | set items => .ok (items.map .scalar)
  | map entries => .ok (entries.map fun (k, _) => .scalar k)
  | scalar (.string t) => .ok (t.map fun p => .string [p])
  | scalar (.bytes b) => .ok (b.map fun n => .integer n.toNat)
  | v => .error (.wrongType (v.kindName.quoted ++ " object is not iterable"))

/-- The characters of a byte string in which all bytes are ASCII. -/
def asciiText? (b : Bytes) : Option Text :=
  if b.all (· < 0x80) then some (b.map fun n => CodePoint.ofNat n.toNat) else none

/-- A numeral in bytes, read by a reader of texts. A bad one is quoted as bytes. -/
def readBytes {α : Type} (b : Bytes) (read : Text → Option α) (problem : Text) : Except Fault α :=
  match (asciiText? b).bind read with
  | some x => .ok x
  | none => .error (.badValue (problem ++ ": " ++ Text.quotedBytes b))

/-- The integer that a value is, or can be cut or read to. -/
def toInteger : Value → Except Fault Int
  | bool b => .ok (if b then 1 else 0)
  | integer n => .ok n
  | float .nan => .error (.badValue "cannot convert float NaN to integer")
  | float (.infinite _) => .error (.overflow "cannot convert float infinity to integer")
  | float x => .ok (x.truncate?.getD 0)
  | string t => (Integer.read 10 t).mapError fun e => .badValue e.message
  | scalar (.bytes b) =>
    readBytes b (fun t => (Integer.read 10 t).toOption)
      "invalid literal for int() with base 10"
  | v => .error (.wrongType
      ("int() argument must be a string, a bytes-like object or a real number, not "
        ++ v.kindName.quoted))

/-- The double-precision number nearest to an integer. -/
def nearest (n : Int) : Except Fault Binary64 :=
  match Binary64.ofInt? n with
  | some x => .ok x
  | none => .error (.overflow "int too large to convert to float")

/-- The double-precision number that a value is, or can be rounded or read to. -/
def toDecimal : Value → Except Fault Binary64
  | bool b => nearest (if b then 1 else 0)
  | integer n => nearest n
  | float x => .ok x
  | string t => (Decimal.read t).mapError fun e => .badValue e.message
  | scalar (.bytes b) =>
    readBytes b (fun t => (Decimal.read t).toOption) "could not convert string to float"
  | v => .error (.wrongType
      ("float() argument must be a string or a real number, not " ++ v.kindName.quoted))

end LogQuery.Value
