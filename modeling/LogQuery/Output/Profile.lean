import LogQuery.Config.Error
import LogQuery.Text.Class
import LogQuery.Value.Literal
/-!
# Output profiles

A profile says which fields of a record are shown, and in which of its strings serialized documents
are looked for. The settings come from a configuration as they are, so that some are values of any
kind: a format that does not exist is refused only when records are rendered.
-/
namespace LogQuery

/-- A kind of serialized document that a string may hold. -/
inductive Target where
  | http
  | json
  | yaml
  deriving DecidableEq

namespace Target

def name : Target → Text
  | http => "http"
  | json => "json"
  | yaml => "yaml"

/-- All targets, by the order of their names. -/
def all : List Target := [http, json, yaml]

def ofName? (t : Text) : Option Target := all.find? fun target => target.name = t

/-- What turning decoding on without naming targets means. -/
def defaults : List Target := [http, json]

/-- The targets that occur in a list, each once, by the order of their names. -/
def normalize (targets : List Target) : List Target := all.filter targets.contains

/-- Sort texts and drop the repeated ones. -/
def sortNames (names : List Text) : List Text := (names.mergeSort Text.le).eraseDups

/-- The targets that some names stand for; blanks around a name and empty names do not count. -/
def ofNames (names : List Text) : Except TargetError (List Target) :=
  let names := (names.map Text.strip).filter (· ≠ [])
  match names.filter fun n => (ofName? n).isNone with
  | [] => .ok (normalize (names.filterMap ofName?))
  | unknown => .error (.unknown (sortNames unknown))

/-- The targets that a setting stands for: a switch, a text with commas, or a list of names. -/
def ofSetting : Value → Except TargetError (List Target)
  | .scalar .null => .ok []
  | .scalar (.bool false) => .ok []
  | .scalar (.bool true) => .ok defaults
  | .scalar (.string t) => ofNames (t.splitOn (.scalar ','))
  | .list items => ofNames (items.map Value.display)
  | .tuple items => ofNames (items.map Value.display)
  | .set items => ofNames (items.map Scalar.display)
  | v => .error (.badKind v.literal v.kindName)

end Target

/-- What is shown of a record. -/
structure Profile where
  format : Value := .string "json"
  /-- The fields shown, in this order. -/
  only : Option (List Value) := none
  /-- The fields left out, unless `only` is given. -/
  exclude : Option (List Value) := none
  decode : List Target := []
  isDefault : Bool := false

end LogQuery
