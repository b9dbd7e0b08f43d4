import LogQuery.Number.Integer
/-!
# YAML tags

What a node says it is: a `Kind` for every tag that the program knows. A plain scalar without a
tag is given one by its look (`Kind.ofPlain`), so that `yes` is a boolean, `0x1F` and `1:30` are
integers and `2021-07-14` is a date.
-/
namespace LogQuery.Yaml

/-- What a node is. -/
inductive Kind where
  | null
  | bool
  | int
  | float
  | binary
  | timestamp
  | str
  | seq
  | map
  | set
  | omap
  | pairs
  /-- A key whose value is merged into the mapping. -/
  | merge
  /-- A key whose value stands for the whole mapping. -/
  | value
  | unknown
  deriving DecidableEq

/-- The front of all tags of the standard. -/
def tagRoot : Text := "tag:yaml.org,2002:"

/-- The kinds that have tags, with the ends of these. -/
def Kind.named : List (String × Kind) :=
  [("null", .null), ("bool", .bool), ("int", .int), ("float", .float), ("binary", .binary),
    ("timestamp", .timestamp), ("str", .str), ("seq", .seq), ("map", .map), ("set", .set),
    ("omap", .omap), ("pairs", .pairs), ("merge", .merge), ("value", .value)]

def Kind.ofTag (tag : Text) : Kind :=
  match Text.dropPrefix? tagRoot tag with
  | some name => ((named.find? fun (n, _) => name.isString n).map Prod.snd).getD .unknown
  | none => .unknown

/-! ### Dates and times -/

/-- The zone behind a time of day: universal time or an offset. -/
inductive ZoneMark where
  | utc
  | offset (negative : Bool) (hours minutes : Nat)
  deriving DecidableEq

/-- The time of day of a timestamp. -/
structure ClockParts where
  hour : Nat
  minute : Nat
  second : Nat
  fraction : List Nat
  zone : Option ZoneMark
  deriving DecidableEq

/-- The numbers of a timestamp, which need not make sense. -/
structure TimestampParts where
  year : Nat
  month : Nat
  day : Nat
  clock : Option ClockParts
  deriving DecidableEq

namespace TimestampParts

/-- The ASCII digits at the front, at least `least` and at most `most`. -/
def digits? (least most : Nat) (t : Text) : Option (List Nat × Text) :=
  let run := (t.take most).takeWhile CodePoint.isAsciiDigit
  if run.length < least then none
  else some (run.filterMap CodePoint.asciiDigit?, t.drop run.length)

def number? (least most : Nat) (t : Text) : Option (Nat × Text) :=
  (digits? least most t).map fun (ds, t) => (ofDigits 10 ds, t)

def mark? (c : Char) : Text → Option Text
  | p :: rest => if p = .scalar c then some rest else none
  | [] => none

def isBlank (p : CodePoint) : Bool := p = .scalar ' ' || p = .scalar '\t'

def zone? (t : Text) : Option ZoneMark :=
  match t with
  | [.scalar 'Z'] => some .utc
  | p :: rest =>
    if p = .scalar '+' ∨ p = .scalar '-' then do
      let (hours, rest) ← number? 1 2 rest
      match rest with
      | [] => some (.offset (p = .scalar '-') hours 0)
      | rest => do
        let rest ← mark? ':' rest
        match ← number? 2 2 rest with
        | (minutes, []) => some (.offset (p = .scalar '-') hours minutes)
        | _ => none
    else none
  | [] => none

/-- What separates date and time: a `T` or blanks. -/
def separator? : Text → Option Text
  | p :: rest =>
    if p = .scalar 'T' ∨ p = .scalar 't' then some rest
    else if isBlank p then some (rest.dropWhile isBlank)
    else none
  | [] => none

/-- The time of day that a text consists of. -/
def clock? (t : Text) : Option ClockParts := do
  let (hour, t) ← number? 1 2 t
  let t ← mark? ':' t
  let (minute, t) ← number? 2 2 t
  let t ← mark? ':' t
  let (second, t) ← number? 2 2 t
  let (fraction, t) : List Nat × Text := match t with
    | .scalar '.' :: rest =>
      (rest.takeWhile CodePoint.isAsciiDigit |>.filterMap CodePoint.asciiDigit?,
        rest.dropWhile CodePoint.isAsciiDigit)
    | _ => ([], t)
  match t with
  | [] => some { hour, minute, second, fraction, zone := none }
  | t => do
    let zone ← zone? (t.dropWhile isBlank)
    some { hour, minute, second, fraction, zone := some zone }

def ofText? (t : Text) : Option TimestampParts := do
  let (year, t) ← number? 4 4 t
  let t ← mark? '-' t
  let (month, t) ← number? 1 2 t
  let t ← mark? '-' t
  let (day, t) ← number? 1 2 t
  match t with
  | [] => some { year, month, day, clock := none }
  | t => do
    let t ← separator? t
    let clock ← clock? t
    some { year, month, day, clock := some clock }

/-- A timestamp that shows: a date alone has to have all its digits. -/
def shows (t : Text) : Bool :=
  match ofText? t with
  | some parts => parts.clock.isSome || t.length = 10
  | none => false

end TimestampParts

namespace Kind

/-! ### The look of plain scalars -/

def unsigned (t : Text) : Text := (Integer.readSign t).2

/-- A digit of a decimal number, or an underscore. -/
def isDecimalMark (p : CodePoint) : Bool := p.isAsciiDigit || p = .scalar '_'

def isMarkIn (base : Nat) (p : CodePoint) : Bool := (p.digitIn? base).isSome || p = .scalar '_'

/-- A decimal number whose first digit lies between two bounds. -/
def isDecimal (least : Nat) : Text → Bool
  | p :: rest => p.asciiDigit?.any (least ≤ ·) && rest.all isDecimalMark
  | [] => false

/-- A number below sixty of one or two digits. -/
def isSixtieth : Text → Bool
  | [p] => p.isAsciiDigit
  | [p, q] => p.asciiDigit?.any (· < 6) && q.isAsciiDigit
  | _ => false

/-- An integer: binary, octal, decimal, hexadecimal, or in base sixty with colons. -/
def isInt (t : Text) : Bool :=
  match unsigned t with
  | [.scalar '0'] => true
  | .scalar '0' :: .scalar 'b' :: rest => rest ≠ [] && rest.all (isMarkIn 2)
  | .scalar '0' :: .scalar 'x' :: rest => rest ≠ [] && rest.all (isMarkIn 16)
  | .scalar '0' :: rest => rest.all (isMarkIn 8)
  | rest =>
    match rest.splitOn (.scalar ':') with
    | whole :: parts => isDecimal 1 whole && parts.all isSixtieth
    | [] => false

/-- An exponent with a sign, or nothing. -/
def isExponent : Text → Bool
  | [] => true
  | p :: q :: rest =>
    (p = .scalar 'e' || p = .scalar 'E') && (q = .scalar '+' || q = .scalar '-')
      && rest ≠ [] && rest.all CodePoint.isAsciiDigit
  | _ => false

/-- The fraction and the exponent of a number. -/
def isFraction (t : Text) : Bool := isExponent (t.dropWhile isDecimalMark)

/-- A number with a point: decimal, in base sixty with colons, or the name of an infinity or of
`nan`. -/
def isFloat (t : Text) : Bool :=
  let names : List String := [".inf", ".Inf", ".INF"]
  let rest := unsigned t
  names.any rest.isString || [".nan", ".NaN", ".NAN"].any t.isString
    || (match t with
      | .scalar '.' :: p :: rest => p.isAsciiDigit && isFraction rest
      | _ => false)
    || (match rest.cut? (.scalar '.') with
      | some (whole, fraction) =>
        match whole.splitOn (.scalar ':') with
        | [whole] => isDecimal 0 whole && isFraction fraction
        | whole :: parts =>
          isDecimal 0 whole && parts.all isSixtieth && fraction.all isDecimalMark
        | [] => false
      | none => false)

def boolSpellings : List String :=
  ["yes", "Yes", "YES", "no", "No", "NO", "true", "True", "TRUE", "false", "False", "FALSE",
    "on", "On", "ON", "off", "Off", "OFF"]

def nullSpellings : List String := ["", "~", "null", "Null", "NULL"]

/-- A text without one line feed at its end; a line feed alone stays. -/
def withoutLineFeed (t : Text) : Text :=
  if 1 < t.length ∧ t.getLast? = some (.scalar '\n') then t.dropLast else t

def ofPlain (t : Text) : Kind :=
  let t := withoutLineFeed t
  if nullSpellings.any t.isString then .null
  else if boolSpellings.any t.isString then .bool
  else if isFloat t then .float
  else if isInt t then .int
  else if t.isString "<<" then .merge
  else if TimestampParts.shows t then .timestamp
  else if t.isString "=" then .value
  else if ["!", "&", "*"].any t.isString then .unknown
  else .str

end Kind
end LogQuery.Yaml
