import LogQuery.Config.Basic
import LogQuery.Config.Shown
/-!
# Parts of a configuration

Which environment and which output a name means, and which ones are meant when there is no name: the
ones that say that they are the default. `Config.validate` makes sure that there is no more than one
of each, so that the order of a configuration does not matter.
-/
namespace LogQuery

/-- A name that can stand in a list of names. -/
def Scalar.asListed (s : Scalar) : Except Failure Text :=
  match s with
  | .string t => .ok t
  | s => .error (.fault (.wrongType ("expected str instance, " ++ s.kindName ++ " found")))

/-- A value that a name can be looked up by: sequences and tables cannot be. -/
def Value.asName (v : Value) : Except Failure Scalar :=
  match v with
  | .scalar s => .ok s
  | v => .error (.fault (.wrongType ("unhashable type: " ++ v.kindName.quoted)))

namespace Config

/-- The environment of a name; without a name the default one, or the only one. -/
def env (c : Config) (name : Text) : Except ConfigError Env :=
  if name = [] then
    match c.envs.find? fun (_, e) => e.isDefault with
    | some (_, e) => .ok e
    | none =>
      match c.envs with
      | [(_, e)] => .ok e
      | _ => .error .noDefaultEnv
  else
    match Value.lookup? (.string name) c.envs with
    | some e => .ok e
    | none => .error (.envNotFound name)

def namedOutput (c : Config) (name : Scalar) : Except ConfigError Profile :=
  match Value.lookup? name c.outputs with
  | some p => .ok p
  | none => .error (.outputNotFound name.display)

/-- The output that is meant when there is no name. -/
def defaultOutput (c : Config) : Profile :=
  ((c.outputs.find? fun (_, p) => p.isDefault).map (·.2)).getD {}

/-- The output of a name; without a name the one of the environment, or the default one, or all
fields in JSON. -/
def output (c : Config) (env : Env) (name : Text) : Except Failure Profile :=
  let name : Value := if name = [] then env.output else .string name
  if name.isTruthy then do
    let name ← name.asName
    (c.namedOutput name).mapError fun e => .naming (.scalar name) (.config e)
  else .ok c.defaultOutput

def namesOf {α : Type} (property : α → Bool) (entries : List (Scalar × α)) : List Scalar :=
  (entries.filter fun (_, x) => property x).map (·.1)

/-- No more than one entry may be the default. -/
def oneDefault (names : List Scalar) (error : List Text → ConfigError) : Except Failure Unit :=
  match names with
  | [] | [_] => .ok ()
  | names => do
    let names ← names.mapM Scalar.asListed
    .error (.config (error names))

/-- Every environment needs an endpoint. -/
def haveEndpoints (envs : List (Scalar × Env)) : Except Failure Unit :=
  match envs.find? fun (_, e) => e.endpoints.isEmpty with
  | some (name, _) => .error (.naming (.scalar name) (.config (.noEndpoints name.display)))
  | none => .ok ()

/-- A configuration that works: no more than one default, and endpoints everywhere. -/
def validate (c : Config) : Except Failure Unit := do
  oneDefault (namesOf Env.isDefault c.envs) .manyDefaultEnvs
  oneDefault (namesOf Profile.isDefault c.outputs) .manyDefaultOutputs
  haveEndpoints c.envs

/-- A configuration without the environment of a name. -/
def removeEnv (c : Config) (name : Text) : Except Fault Config :=
  match Value.lookup? (.string name) c.envs with
  | some _ =>
    .ok { c with envs := c.envs.filter fun (k, _) => !k.sameKey (.string name) }
  | none => .error .missingKey

/-- A configuration with the environment of a name changed. -/
def changeEnv (c : Config) (name : Text) (change : Env → Env) : Except Fault Config :=
  match Value.lookup? (.string name) c.envs with
  | some _ =>
    .ok { c with
      envs := c.envs.map fun (k, e) => if k.sameKey (.string name) then (k, change e) else (k, e) }
  | none => .error .missingKey

end Config
end LogQuery
