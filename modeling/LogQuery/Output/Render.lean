import LogQuery.Failure
import LogQuery.Json.Writer
import LogQuery.Output.Decode
/-!
# Rendering records

A profile is applied to a record by selecting fields and then decoding the strings in them. The
records of a retrieval are written as JSON documents of several lines, one behind the other, each
with a line end.
-/
namespace LogQuery

/-- A record: its fields in order. -/
abbrev Record := List (Scalar × Value)

namespace Profile

/-- The scalar that a setting names a field by. -/
def fieldKey (v : Value) : Except Fault Scalar :=
  match v with
  | .scalar s => .ok s
  | v => .error (.wrongType ("unhashable type: " ++ v.kindName.quoted))

/-- Just the given fields, in their order; fields that a record lacks are null. -/
def selectOnly (fields : List Value) (record : Record) : Except Fault Record := do
  let keys ← fields.mapM fieldKey
  .ok (Value.ofPairs (keys.map fun k => (k, (Value.lookup? k record).getD .null)))

/-- All fields but the given ones. -/
def selectOther (fields : List Value) (record : Record) : Except Fault Record := do
  let keys ← fields.mapM fieldKey
  .ok (record.filter fun (k, _) => !keys.any k.sameKey)

/-- The fields of a record that a profile shows. -/
def select (p : Profile) (record : Record) : Except Fault Record :=
  match p.only, p.exclude with
  | some fields, _ => selectOnly fields record
  | none, some fields => selectOther fields record
  | none, none => .ok record

def apply [Runtime] (p : Profile) (record : Record) : Except Fault Record := do
  let shown ← p.select record
  if p.decode = [] then .ok shown
  else Value.mapStringsEntries (decodeText (decodeString p.decode)) Runtime.frames shown

def hasFormat (p : Profile) : Bool :=
  match p.format with
  | .string t => t.isString "json"
  | _ => false

end Profile

/-- A failure to show a record: nesting that is too deep is an error of its own. -/
def recordFailure : Fault → Failure
  | .tooDeep => .decode .tooDeep
  | f => .fault f

section

variable [Runtime]

/-- One record in JSON, with a line end. -/
def recordText (p : Profile) (record : Record) : Except Failure Text := do
  let shown ← (p.apply record).mapError recordFailure
  let levels := Runtime.writeDepth Runtime.frames
  let text ← (Json.encodeWithin (some levels) .indented (.map shown)).mapError recordFailure
  .ok (text ++ "\n")

def recordTexts (p : Profile) (records : List Record) : Except Failure Text :=
  (records.mapM (recordText p)).map List.flatten

/-- Records as a profile shows them, as bytes. -/
def render (p : Profile) (records : List Record) : Except Failure Bytes :=
  if p.hasFormat then do
    let text ← recordTexts p records
    match Utf8.encode? text with
    | some bytes => .ok bytes
    | none => .error (.fault .unencodable)
  else .error (.format p.format.display)

end

end LogQuery
