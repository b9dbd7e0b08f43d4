import LogQuery.Value.Basic
import LogQuery.Calendar.Iso
import LogQuery.Number.Shortest
import LogQuery.Text.Quoted
/-!
# Values in messages

How a value is shown to a person. The literal form (`Value.literal`) names the value without doubt:
strings are quoted, and dates are spelled as what would construct them. The displayed form
(`Value.display`) is the same except that a string stands for itself and dates and times are
written as such.
-/
namespace LogQuery

/-- Numbers as the arguments of a constructor. -/
def argumentList (name : Text) (arguments : List Text) : Text :=
  name ++ "(" ++ Text.join ", " arguments ++ ")"

namespace Timestamp

/-- A span of seconds as days and seconds, the seconds not negative. -/
def spanLiteral (seconds : Int) : Text :=
  let days := seconds.fdiv 86400
  let rest := seconds.fmod 86400
  argumentList "datetime.timedelta"
    ((if days = 0 then [] else ["days=" ++ Text.ofInt days])
      ++ (if rest = 0 then [] else ["seconds=" ++ Text.ofInt rest]))

def offsetLiteral (offset : Int) : Text :=
  if offset = 0 then "datetime.timezone.utc"
  else argumentList "datetime.timezone" [spanLiteral offset]

/-- The literal form of a timestamp; seconds and microseconds are left out when they are zero. -/
def literal (t : Timestamp) : Text :=
  let fields := [t.date.year, t.date.month, t.date.day, t.time.hour, t.time.minute].map Text.ofNat
  let seconds :=
    if t.time.micro ≠ 0 then [Text.ofNat t.time.second, Text.ofNat t.time.micro]
    else if t.time.second ≠ 0 then [Text.ofNat t.time.second]
    else []
  let offset : List Text := match t.offset with
    | some o => ["tzinfo=" ++ offsetLiteral o]
    | none => []
  argumentList "datetime.datetime" (fields ++ seconds ++ offset)

/-- Date and time with a blank between them, and the offset. -/
def display (t : Timestamp) : Text :=
  t.date.toText ++ " " ++ (if t.time.micro = 0 then t.time.toText else t.time.toMicroText)
    ++ (match t.offset with
      | some o => Zone.offsetText ":" o
      | none => [])

end Timestamp

namespace Scalar

def literal : Scalar → Text
  | null => "None"
  | bool b => if b then "True" else "False"
  | integer n => Text.ofInt n
  | float x => x.toText
  | string t => t.quoted
  | date d => argumentList "datetime.date" ([d.year, d.month, d.day].map Text.ofNat)
  | timestamp t => t.literal
  | bytes b => Text.quotedBytes b

def display : Scalar → Text
  | string t => t
  | date d => d.toText
  | timestamp t => t.display
  | s => s.literal

def kindName : Scalar → Text
  | null => "NoneType"
  | bool _ => "bool"
  | integer _ => "int"
  | float _ => "float"
  | string _ => "str"
  | date _ => "date"
  | timestamp _ => "datetime"
  | bytes _ => "bytes"

end Scalar

namespace Value

mutual

def literal : Value → Text
  | scalar s => s.literal
  | list items => "[" ++ Text.join ", " (itemLiterals items) ++ "]"
  | map entries => "\x7b" ++ Text.join ", " (entryLiterals entries) ++ "\x7d"
  | tuple items =>
    let comma : Text := match items with
      | [_] => ","
      | _ => []
    "(" ++ Text.join ", " (itemLiterals items) ++ comma ++ ")"
  | set [] => "set()"
  | set items => "\x7b" ++ Text.join ", " (items.map Scalar.literal) ++ "\x7d"

def itemLiterals : List Value → List Text
  | [] => []
  | v :: rest => v.literal :: itemLiterals rest

/-- The literal forms of the entries of a map. -/
def entryLiterals : List (Scalar × Value) → List Text
  | [] => []
  | (k, v) :: rest => (k.literal ++ ": " ++ v.literal) :: entryLiterals rest

end

def display : Value → Text
  | scalar s => s.display
  | v => v.literal

def kindName : Value → Text
  | scalar s => s.kindName
  | list _ => "list"
  | map _ => "dict"
  | tuple _ => "tuple"
  | set _ => "set"

end Value
end LogQuery
