import LogQuery.Json.Tagged
import LogQuery.Output.Http
import LogQuery.Output.Profile
import LogQuery.Runtime
/-!
# Documents inside strings

A string field of a record may itself hold a serialized document, and the strings of that document
may again. `decodeString` tries the enabled targets on one string, in the order JSON, YAML, HTTP,
and `decodeAll` replaces every string in a value by what it decodes to, over and over.

Every level of lists and maps and every document inside a document takes a part of the stack. A value that
takes more than there is cannot be walked. A string that is met with little of the stack left is decoded
with that, so that it may be kept where it would be decoded with more.
-/
namespace LogQuery

/-- The map or list that a JSON text with some levels of nesting at most is. Other documents do not
count. -/
def jsonDocument? (depth : Nat) (t : Text) : Option Value :=
  match t.dropWhile CodePoint.isBlank with
  | [] => none
  | p :: _ =>
    if p = .scalar '\x7b' ∨ p = .scalar '[' then
      match Tagged.decode depth t with
      | .ok (.map members) => some (Tagged.map members).plain
      | .ok (.list items) => some (Tagged.list items).plain
      | _ => none
    else none

namespace Scalar

/-- A scalar as a key that JSON has a name for. -/
def asJsonKey (s : Scalar) : Scalar :=
  match s with
  | date _ | timestamp _ | bytes _ => string s.display
  | _ => s

end Scalar

namespace Value

mutual

/-- A value with keys that JSON has names for. -/
def withJsonKeys : Value → Value
  | list items => list (withJsonKeysItems items)
  | map entries => map (ofPairs (withJsonKeysEntries entries))
  | v => v

/-- Some values with keys that JSON has names for. -/
def withJsonKeysItems : List Value → List Value
  | [] => []
  | v :: rest => v.withJsonKeys :: withJsonKeysItems rest

/-- Some entries with keys that JSON has names for. -/
def withJsonKeysEntries : List (Scalar × Value) → List (Scalar × Value)
  | [] => []
  | (k, v) :: rest => (k.asJsonKey, v.withJsonKeys) :: withJsonKeysEntries rest

end

end Value

section

variable [Runtime]

/-- The map or list that a YAML text is. Other documents do not count. -/
def yamlDocument? (frames : Nat) (t : Text) : Except Fault (Option Value) :=
  match Runtime.yaml frames t with
  | .ok (.map entries) => .ok (some (Value.map entries).withJsonKeys)
  | .ok (.list items) => .ok (some (Value.list items).withJsonKeys)
  | .ok _ => .ok none
  | .error .malformed => .ok none
  | .error (.fault f) => .error f

/-- What a string decodes to with some frames left: the document of the first target that it belongs
to. A document in JSON that is nested too deeply for these frames does not count. -/
def decodeString (targets : List Target) (frames : Nat) (t : Text) : Except Fault (Option Value) := do
  let json := if targets.contains .json then jsonDocument? (Runtime.textDepth frames) t else none
  if json.isSome then .ok json
  else do
    let yaml ← if targets.contains .yaml then yamlDocument? frames t else .ok none
    let http := if targets.contains .http then (HttpRequest.ofText? t).map (·.toValue) else none
    .ok (yaml.or http)

namespace Value

mutual

/-- Replace every string in a value that is reached through maps and lists, with some frames left. -/
def mapStrings (f : (frames : Nat) → Text → Except Fault Value) : (frames : Nat) → Value →
    Except Fault Value
  | 0, _ => .error .tooDeep
  | n + 1, scalar (.string t) => f (n + 1) t
  | n + 1, list items => (mapStringsItems f (n + 1 - Runtime.levelFrames) items).map list
  | n + 1, map entries => (mapStringsEntries f (n + 1 - Runtime.levelFrames) entries).map map
  | _ + 1, v => .ok v

def mapStringsItems (f : (frames : Nat) → Text → Except Fault Value) (frames : Nat) :
    List Value → Except Fault (List Value)
  | [] => .ok []
  | v :: rest => do
    let v ← mapStrings f frames v
    let rest ← mapStringsItems f frames rest
    .ok (v :: rest)

/-- Replace the strings in the values of some entries. -/
def mapStringsEntries (f : (frames : Nat) → Text → Except Fault Value) (frames : Nat) :
    List (Scalar × Value) → Except Fault (List (Scalar × Value))
  | [] => .ok []
  | (k, v) :: rest => do
    let v ← mapStrings f frames v
    let rest ← mapStringsEntries f frames rest
    .ok ((k, v) :: rest)

end

end Value

/-- What a string becomes with some frames left: what it decodes to, with the strings inside decoded as
well. Going on inside takes a frame, so that there is no need to do it more often than there are frames. -/
def decodeNested (decode : (frames : Nat) → Text → Except Fault (Option Value)) :
    (nesting frames : Nat) → Text → Except Fault Value
  | 0, _, _ => .error .tooDeep
  | nesting + 1, frames, t =>
    if frames ≤ Runtime.callFrames then .error .tooDeep
    else do
      match ← decode frames t with
      | some v => v.mapStrings (decodeNested decode nesting) (frames - 1)
      | none => .ok (.string t)

/-- What a string becomes with some frames left. -/
def decodeText (decode : (frames : Nat) → Text → Except Fault (Option Value)) (frames : Nat) (t : Text) :
    Except Fault Value :=
  decodeNested decode frames frames t

/-- What a value becomes when every string in it is decoded until nothing decodes any more. -/
def decodeAll (targets : List Target) (v : Value) : Except Fault Value :=
  v.mapStrings (decodeText (decodeString targets)) Runtime.frames

end

end LogQuery
