import LogQuery.Fault
import LogQuery.Number.Integer
import LogQuery.Value.Literal
/-!
# Writing JSON

Values as JSON texts. A `Style` chooses the white space and whether non-ASCII characters are
escaped; `compact`, `indented` and `spaced` are the styles in use. What JSON has no form for (dates,
timestamps, byte strings, sets) is written as the string that displays it, and a tuple as a list.

`Json.write` is total. `Json.refusalWithin?` names the first value in a document that must not be
written: an integer of too many digits, a key that no JSON name stands for, or a list or map that is nested
too deeply. `Json.encodeWithin` respects it, and `Json.encode` does if nesting does not count.
-/
namespace LogQuery.Json

/-- The white space of a written document, and its characters. -/
structure Style where
  /-- What follows a comma on the same line. -/
  afterComma : Text
  afterColon : Text
  /-- By how many blanks each level of nesting is indented, if every item has its own line. -/
  indent : Option Nat
  /-- Whether everything but visible ASCII is escaped. -/
  ascii : Bool

/-- No white space at all. -/
def Style.compact : Style := ⟨[], [], none, false⟩

/-- Every item on a line of its own, indented by two blanks a level. -/
def Style.indented : Style := ⟨[], " ", some 2, false⟩

/-- On one line, with a blank behind every comma and colon, in ASCII. -/
def Style.spaced : Style := ⟨" ", " ", none, true⟩

/-- The line break in front of an item at a depth. -/
def Style.lineBreak (s : Style) (depth : Nat) : Text :=
  match s.indent with
  | none => []
  | some n => .scalar '\n' :: List.replicate (n * depth) (.scalar ' ')

def unicodeEscape (n : Nat) : Text := "\\u" ++ Text.ofNatHex 4 n

/-- The `\u` escapes of a code point, a pair of surrogates for one above `0xffff`. -/
def unicodeEscapes (n : Nat) : Text :=
  if n < 0x10000 then unicodeEscape n
  else
    unicodeEscape (0xd800 + (n - 0x10000) / 0x400) ++ unicodeEscape (0xdc00 + (n - 0x10000) % 0x400)

def escape (ascii : Bool) (p : CodePoint) : Text :=
  match p with
  | .scalar '"' => "\\\""
  | .scalar '\\' => "\\\\"
  | .scalar '\n' => "\\n"
  | .scalar '\r' => "\\r"
  | .scalar '\t' => "\\t"
  | .scalar '\x08' => "\\b"
  | .scalar '\x0c' => "\\f"
  | _ =>
    if p.code < 0x20 || (ascii && 0x7f ≤ p.code) then unicodeEscapes p.code else [p]

/-- A string between quotes. -/
def writeString (ascii : Bool) (t : Text) : Text :=
  .scalar '"' :: (t.flatMap (escape ascii) ++ [.scalar '"'])

/-- A floating-point number; those without digits have names. -/
def writeFloat : Binary64 → Text
  | .nan => "NaN"
  | .infinite negative => if negative then "-Infinity" else "Infinity"
  | x => x.toText

def writeScalar (ascii : Bool) : Scalar → Text
  | .null => "null"
  | .bool b => if b then "true" else "false"
  | .integer n => Text.ofInt n
  | .float x => writeFloat x
  | s => writeString ascii s.display

def nameOfKey : Scalar → Text
  | .string t => t
  | .null => "null"
  | .bool b => if b then "true" else "false"
  | .integer n => Text.ofInt n
  | .float x => writeFloat x
  | s => s.display

/-- The separator between two items at a depth. -/
def Style.separator (s : Style) (depth : Nat) : Text :=
  .scalar ',' :: (s.afterComma ++ s.lineBreak depth)

def bracketed (s : Style) (depth : Nat) (opening closing : Char) (items : List Text) : Text :=
  match items with
  | [] => [.scalar opening, .scalar closing]
  | items =>
    .scalar opening :: (s.lineBreak (depth + 1)
      ++ (Text.join (s.separator (depth + 1)) items ++ (s.lineBreak depth ++ [.scalar closing])))

def member (s : Style) (name value : Text) : Text :=
  writeString s.ascii name ++ .scalar ':' :: (s.afterColon ++ value)

mutual

def writeAt (s : Style) (depth : Nat) : Value → Text
  | .scalar x => writeScalar s.ascii x
  | .list items => bracketed s depth '[' ']' (writeItems s (depth + 1) items)
  | .tuple items => bracketed s depth '[' ']' (writeItems s (depth + 1) items)
  | .map entries => bracketed s depth '\x7b' '\x7d' (writeEntries s (depth + 1) entries)
  | .set items => writeString s.ascii (Value.set items).display

def writeItems (s : Style) (depth : Nat) : List Value → List Text
  | [] => []
  | v :: rest => writeAt s depth v :: writeItems s depth rest

def writeEntries (s : Style) (depth : Nat) : List (Scalar × Value) → List Text
  | [] => []
  | (k, v) :: rest =>
    member s (nameOfKey k) (writeAt s depth v) :: writeEntries s depth rest

end

def write (s : Style) (v : Value) : Text := writeAt s 0 v

def longInteger : Fault :=
  .badValue ("Exceeds the limit (" ++ Text.ofNat Integer.maxDigits
    ++ " digits) for integer string conversion")

def scalarRefusal? : Scalar → Option Fault
  | .integer n => if Integer.isWritable n then none else some longInteger
  | _ => none

/-- Why a scalar cannot be the name of a member. -/
def keyRefusal? (s : Scalar) : Option Fault :=
  match s with
  | .date _ | .timestamp _ | .bytes _ =>
    some (.wrongType ("keys must be str, int, float, bool or None, not " ++ s.kindName))
  | _ => scalarRefusal? s

/-- Why there is no more nesting, if only some levels of it are left. -/
def nestRefusal? (levels : Option Nat) : Option Fault := if levels = some 0 then some .tooDeep else none

@[simp] theorem nestRefusal?_none : nestRefusal? none = none := rfl

mutual

/-- Why a value cannot be written, of several reasons the first in the document. The levels of nesting may
be limited. -/
def refusalWithin? (levels : Option Nat) : Value → Option Fault
  | .scalar s => scalarRefusal? s
  | .list items => (nestRefusal? levels).or (itemRefusalWithin? (levels.map Nat.pred) items)
  | .tuple items => (nestRefusal? levels).or (itemRefusalWithin? (levels.map Nat.pred) items)
  | .map entries => (nestRefusal? levels).or (entryRefusalWithin? (levels.map Nat.pred) entries)
  | .set items => items.findSome? scalarRefusal?

def itemRefusalWithin? (levels : Option Nat) : List Value → Option Fault
  | [] => none
  | v :: rest => (refusalWithin? levels v).or (itemRefusalWithin? levels rest)

/-- Why one of some entries cannot be written. -/
def entryRefusalWithin? (levels : Option Nat) : List (Scalar × Value) → Option Fault
  | [] => none
  | (k, v) :: rest =>
    (keyRefusal? k).or ((refusalWithin? levels v).or (entryRefusalWithin? levels rest))

end

/-- Why a value cannot be written, however deeply it is nested. -/
def refusal? (v : Value) : Option Fault := refusalWithin? none v

theorem refusalWithin?_none (v : Value) : refusalWithin? none v = refusal? v := rfl

/-- A value as a JSON text, unless something in it cannot be written. -/
def encodeWithin (levels : Option Nat) (s : Style) (v : Value) : Except Fault Text :=
  match refusalWithin? levels v with
  | some fault => .error fault
  | none => .ok (write s v)

/-- A value as a JSON text, however deeply it is nested. -/
def encode (s : Style) (v : Value) : Except Fault Text := encodeWithin none s v

theorem encode_eq (s : Style) (v : Value) : encode s v =
    match refusal? v with
    | some fault => .error fault
    | none => .ok (write s v) := rfl

end LogQuery.Json
