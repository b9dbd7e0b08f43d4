import LogQuery.Config.Authorization
import LogQuery.Config.Lookup
/-!
# Reading configurations

A configuration as it stands in its file is a table of environments, a table of outputs and a table
of aliases. `Config.ofValue` reads them, in this order, and refuses what could not work: more than
one default, or an environment without endpoints.
-/
namespace LogQuery

namespace Env

/-- The kind of service that an environment says it is. -/
def readSource (name : Scalar) (table : Value) : Except Failure Backend := do
  let source ← (table.entry "source").mapError .fault
  if source.isTruthy then
    match Backend.ofName? source.display, source with
    | some b, .string _ => .ok b
    | _, _ => .error (.naming source (.config (.unknownSource name.display source.display)))
  else .ok .indexSearch

/-- The endpoints that an environment names. -/
def readEndpoints (table : Value) : Except Fault (List Text) := do
  let endpoints ← table.entry "endpoints"
  let elements ← (endpoints.orElse (.list [])).elements
  elements.mapM Value.shown

/-- A failure to read a number of an environment. A number that is too large is a fault. -/
def numberFailure (name : Scalar) : Fault → Failure
  | .overflow message => .fault (.overflow message)
  | f => .config (.badNumber name.display f.message)

/-- The limit and the timeout of an environment. -/
def readNumbers (name : Scalar) (table : Value) : Except Failure (Int × Binary64) := do
  let limit ← (table.entryOr "limit" (.integer 0)).mapError .fault
  let limit ← limit.toInteger.mapError (numberFailure name)
  let timeout ← (table.entryOr "timeout" (.integer 10)).mapError .fault
  let timeout ← timeout.toDecimal.mapError (numberFailure name)
  .ok (limit, timeout)

/-- A text setting, empty unless the table has it. -/
def setting (table : Value) (key : String) : Except Failure Value :=
  (table.entryOr key (.string [])).mapError .fault

/-- A key of a service: the one in the table, or else the one in a variable. -/
def readKey (environ : Environ) (table : Value) (key name : String) : Except Failure Value :=
  ((table.entry key).mapError .fault).map (·.orElse (.string (environ.get name)))

/-- Whether a table says that it is the default one. -/
def readDefault (table : Value) : Except Failure Bool :=
  ((table.entryOr "default" (.bool false)).mapError .fault).map Value.isTruthy

def ofTable (environ : Environ) (name : Scalar) (table : Value) : Except Failure Env := do
  let backend ← readSource name table
  let endpoints ← (readEndpoints table).mapError .fault
  let authorization ← (table.entry "authorization").mapError .fault
  let (headers, endpoints) ←
    Authorization.resolve environ name.display (authorization.orElse (.map [])) endpoints
  let (limit, timeout) ← readNumbers name table
  let index ← setting table "index"
  let isDefault ← readDefault table
  let timezone ← setting table "timezone"
  let timeFormat ← setting table "time_format"
  let output ← setting table "output"
  let order ← setting table "order"
  let apiKey ← readKey environ table "dd_api_key" "DD_API_KEY"
  let appKey ← readKey environ table "dd_personal_key" "DD_APP_KEY"
  .ok { name, endpoints, source := .backend backend, index, isDefault, timezone, timeFormat, limit,
        output, order, headers, apiKey, appKey, timeout := .float timeout }

/-- Read an environment. Whatever is wrong with it is reported under its name. -/
def ofValue (environ : Environ) (name : Scalar) (table : Value) : Except Failure Env :=
  (ofTable environ name table).mapError (.naming (.scalar name))

end Env

namespace Profile

/-- The elements of a selection of fields, if there is one. -/
def readFields (v : Value) : Except Failure (Option (List Value)) :=
  match v with
  | .null => .ok none
  | v => (v.elements.mapError .fault).map some

/-- The targets of an output, from a setting all of which can be shown. -/
def readTargets (name : Scalar) (setting : Value) : Except Failure (List Target) :=
  if setting.isShowable then
    (Target.ofSetting setting).mapError fun e =>
      .naming (.scalar name) (.config (.outputTargets name.display e))
  else .error (.fault Json.longInteger)

def ofValue (name : Scalar) (table : Value) : Except Failure Profile := do
  let only ← (table.entry "only").mapError .fault
  let exclude ← (table.entry "exclude").mapError .fault
  let decode ← (table.entry "decode_recursively").mapError .fault
  let decode ← readTargets name decode
  let format ← (table.entry "format").mapError .fault
  let only ← readFields only
  let exclude ← readFields exclude
  let isDefault ← Env.readDefault table
  .ok { format := format.orElse (.string "json"), only, exclude, decode, isDefault }

end Profile

namespace Config

/-- The entries of a part of a configuration; an entry that does not count as something is an empty
table. -/
def tables (v : Value) (key : String) : Except Failure (List (Scalar × Value)) :=
  ((v.table key).mapError .fault).map fun entries =>
    entries.map fun (k, table) => (k, table.orElse (.map []))

/-- Read the tables of one part of a configuration, each under its name. -/
def readAll {α : Type} (read : Scalar → Value → Except Failure α)
    (tables : List (Scalar × Value)) : Except Failure (List (Scalar × α)) :=
  tables.mapM fun (name, table) => (read name table).map fun x => (name, x)

def readAliases (entries : List (Scalar × Value)) : Except Fault Aliases := do
  let aliases ← entries.mapM fun (k, v) => do
    let name ← (Value.scalar k).shown
    let key ← v.shown
    .ok (name, key)
  .ok (Text.ofPairs aliases)

def readTables (environ : Environ) (v : Value) : Except Failure Config := do
  let envs ← tables v "env"
  let envs ← readAll (Env.ofValue environ) envs
  let outputs ← tables v "output"
  let outputs ← readAll Profile.ofValue outputs
  let aliases ← (v.table "aliases").mapError .fault
  let aliases ← (readAliases aliases).mapError .fault
  .ok { envs, outputs, aliases }

def ofValue (environ : Environ) (v : Value) : Except Failure Config :=
  match v with
  | .map _ => do
    let config ← readTables environ v
    config.validate
    .ok config
  | v => .error (.config (.notMapping v.kindName))

/-- The name of the only environment of a configuration that comes from variables. -/
def fallbackName : Text := "default"

/-- The endpoints in a text: they stand between commas, and empty ones do not count. -/
def endpointsIn (t : Text) : List Text :=
  ((t.splitOn (.scalar ',')).map Text.strip).filter (· ≠ [])

/-- The configuration that the variables make, if they name endpoints. -/
def ofEnviron? (environ : Environ) : Option (Except Failure Config) :=
  match environ.get "LOGSEARCH_ENDPOINTS" with
  | [] => none
  | endpoints =>
    let table := Value.ofMembers
      [(Text.ofString "endpoints", Value.list ((endpointsIn endpoints).map .string)),
        ("source", .string (environ.get "LOGSEARCH_SOURCE")),
        ("index", .string (environ.get "LOGSEARCH_INDEX")),
        ("default", .bool true)]
    some (ofValue environ
      (Value.ofMembers [("env", Value.ofMembers [(fallbackName, table)])]))

end Config
end LogQuery
