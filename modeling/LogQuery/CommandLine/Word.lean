import LogQuery.CommandLine.Flag
import LogQuery.Text.Class
/-!
# Words of the command line

What a word of the command line is by itself: a flag, a value, or something that looks like a flag
that does not exist. A name may be cut short as long as it means only one flag. A value may begin
with a dash only if it is a number or has a blank in it and no flag begins like it.
-/
namespace LogQuery.CommandLine

/-- The text that is attached to a flag. -/
structure Attached where
  text : Text
  /-- There is an equals sign between the flag and the text. -/
  equals : Bool
  deriving DecidableEq

/-- A word of the command line. -/
inductive Word where
  | value (t : Text)
  | flag (f : Flag) (byLetter : Bool) (attached : Option Attached)
  /-- A flag that does not exist. -/
  | unknown
  /-- Two dashes, behind which there are only values. -/
  | separator
  deriving DecidableEq

namespace Word

/-- Decimal digits, one or more, and nothing else. -/
def isDigits (t : Text) : Bool := t ≠ [] && t.all fun p => p.decimal?.isSome

/-- Digits with a point in front of or among them. -/
def isDecimal (t : Text) : Bool :=
  match t.cut? (.scalar '.') with
  | some (whole, part) => (whole = [] || isDigits whole) && isDigits part
  | none => false

/-- What stands behind the dash of a negative number; a line end may follow. -/
def isMagnitude (t : Text) : Bool :=
  let t := if t.getLast? = some (.scalar '\n') then t.dropLast else t
  isDigits t || isDecimal t

/-- A word that begins like a flag but is none of the given ones. -/
def ofStranger (t : Text) : Word := if t.contains (.scalar ' ') then .value t else .unknown

def cutAtEquals (t : Text) : Text × Option Attached :=
  match t.cut? (.scalar '=') with
  | some (name, text) => (name, some ⟨text, true⟩)
  | none => (t, none)

/-- A word of two dashes and more. There is none if it could be several flags. -/
def ofNamed? (flags : List Flag) (t name : Text) : Option Word :=
  match Flag.ofName? flags name with
  | some f => some (.flag f false none)
  | none =>
    let (name, attached) := cutAtEquals name
    match Flag.ofName? flags name with
    | some f => some (.flag f false attached)
    | none =>
      match Flag.withPrefix flags name with
      | [] => some (ofStranger t)
      | [f] => some (.flag f false attached)
      | _ => none

def attachedToLetter : Text → Option Attached
  | [] => none
  | .scalar '=' :: text => some ⟨text, true⟩
  | text => some ⟨text, false⟩

/-- A word of one dash and more. -/
def ofLettered (flags : List Flag) (t : Text) (letter : CodePoint) (rest : Text) : Word :=
  match Flag.ofLetter? flags letter with
  | some f => .flag f true (attachedToLetter rest)
  | none => if isMagnitude (letter :: rest) then .value t else ofStranger t

/-- What a word is. There is none if it could be several flags. -/
def ofText? (flags : List Flag) (t : Text) : Option Word :=
  match t with
  | [.scalar '-', .scalar '-'] => some .separator
  | .scalar '-' :: .scalar '-' :: name => ofNamed? flags t name
  | .scalar '-' :: letter :: rest => some (ofLettered flags t letter rest)
  | t => some (.value t)

/-- What the words of a command line are. Behind a separator there are only values. -/
def ofTexts? (flags : List Flag) : List Text → Option (List Word)
  | [] => some []
  | t :: rest =>
    match ofText? flags t with
    | none => none
    | some .separator => some (.separator :: rest.map .value)
    | some w => (ofTexts? flags rest).map (w :: ·)

end Word
end LogQuery.CommandLine
