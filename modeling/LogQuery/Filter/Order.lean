import LogQuery.Filter.Basic
import LogQuery.Filter.Error
import LogQuery.Text.Class
/-!
# Reading orders

An order is a field with a sign in front of it (`-level`), a direction behind it (`level desc`,
`level:desc`), or both if they agree. The field is as short as it can be: the first place at which
the rest of the text is a direction, or nothing, ends it. A sign that no field can follow belongs to
the field.
-/
namespace LogQuery.Order

/-- A letter in either case, the long s being an s. -/
def isLetter (c : Char) (p : CodePoint) : Bool :=
  p.asciiLower = .scalar c || (c = 's' && p = .scalar '\u017f')

def isWord (word : String) (t : Text) : Bool :=
  t.length = word.length && (word.toList.zip t).all fun (c, p) => isLetter c p

def isDirection (t : Text) : Bool := isWord "asc" t || isWord "desc" t

/-- The direction that a text behind a field consists of: a colon or blanks, and a name. No text
is no direction. -/
def directionBehind? : Text → Option Text
  | [] => some []
  | p :: rest =>
    if p = .scalar ':' then if isDirection rest then some rest else none
    else if p.isBlank then
      let rest := rest.dropWhile CodePoint.isBlank
      if isDirection rest then some rest else none
    else none

/-- The field at the front of a text, and the direction behind it. -/
def fieldAndDirection? : Text → Option (Text × Text)
  | [] => none
  | p :: rest =>
    if p.isBlank then none
    else
      match directionBehind? rest with
      | some direction => some ([p], direction)
      | none => (fieldAndDirection? rest).map fun (field, direction) => (p :: field, direction)

def split? (t : Text) : Option (Text × Text × Text) :=
  let unsigned := (fieldAndDirection? t).map fun (field, direction) => ([], field, direction)
  match t with
  | p :: rest =>
    if p = .scalar '+' ∨ p = .scalar '-' then
      match fieldAndDirection? rest with
      | some (field, direction) => some ([p], field, direction)
      | none => unsigned
    else unsigned
  | [] => unsigned

def parse (expression : Text) (aliases : Aliases) : Except ParseError Order :=
  match split? expression.strip with
  | none => .error (.badOrder expression)
  | some (sign, field, direction) =>
    let signed := !sign.isString "-"
    let directed := direction.asciiLower.isString "asc"
    if direction = [] then .ok { field := aliases.apply field, ascending := signed }
    else if sign ≠ [] ∧ directed ≠ signed then
      .error (.contradictoryOrder expression sign direction)
    else .ok { field := aliases.apply field, ascending := directed }

end LogQuery.Order
