import LogQuery.Number.Integer
import LogQuery.Number.Binary64
/-!
# Decimal numerals

Reading a double-precision number from a text. `readPlain?` knows the bare numeral: digits, at
most one point, and an exponent. `read` takes what a person may write: blanks around it, digits of
any script, single underscores between digits, and the names of the infinities and of `nan`.
-/
namespace LogQuery

/-- A text that is no number. -/
structure DecimalError where
  text : Text
  deriving DecidableEq

def DecimalError.message (e : DecimalError) : Text :=
  "could not convert string to float: " ++ e.text.quoted

namespace Decimal

/-- The ASCII digits at the front of a text, and the rest. -/
def digits : Text → List Nat × Text
  | [] => ([], [])
  | p :: rest =>
    match p.asciiDigit? with
    | some d => let (ds, tail) := digits rest; (d :: ds, tail)
    | none => ([], p :: rest)

/-- The fraction at the front of a text: the digits behind a point. -/
def fraction : Text → List Nat × Text
  | .scalar '.' :: rest => digits rest
  | t => ([], t)

/-- The exponent that is all of a text; no text is the exponent zero. -/
def exponent? : Text → Option Int
  | [] => some 0
  | p :: rest =>
    if p = .scalar 'e' ∨ p = .scalar 'E' then
      let (negative, unsigned) := Integer.readSign rest
      match digits unsigned with
      | ([], _) => none
      | (ds, []) =>
        let n : Int := ofDigits 10 ds
        some (if negative then -n else n)
      | _ => none
    else none

/-- Read a bare numeral: a sign, digits with a point among or beside them, an exponent. -/
def readPlain? (t : Text) : Option Binary64 :=
  let (negative, unsigned) := Integer.readSign t
  let (whole, rest) := digits unsigned
  let (part, rest) := fraction rest
  if whole = [] ∧ part = [] then none
  else (exponent? rest).map fun k =>
    let significant := (whole ++ part).dropWhile (· = 0)
    Binary64.ofDecimal negative (ofDigits 10 significant) significant.length (k - part.length)

def readName? (t : Text) : Option Binary64 :=
  let (negative, name) := Integer.readSign t
  let name := name.asciiLower
  if name.isString "inf" || name.isString "infinity" then some (.infinite negative)
  else if name.isString "nan" then some .nan
  else none

/-- Drop the underscores of a numeral, each of which has to stand between two digits. -/
def joinDigits? : (afterDigit : Bool) → Text → Option Text
  | _, [] => some []
  | after, .scalar '_' :: rest =>
    match after, rest with
    | true, p :: _ => if p.isAsciiDigit then joinDigits? false rest else none
    | _, _ => none
  | _, p :: rest => (joinDigits? p.isAsciiDigit rest).map (p :: ·)

def read (t : Text) : Except DecimalError Binary64 :=
  let numeral := t.plainNumeral
  match (joinDigits? false numeral).bind readPlain?, readName? numeral with
  | some x, _ => .ok x
  | none, some x => .ok x
  | none, none => .error ⟨t⟩

end Decimal
end LogQuery
