import LogQuery.Config.Basic
import LogQuery.Config.ZoneName
import LogQuery.Failure
import LogQuery.Value.Access
/-!
# Settings of an environment

What a search in an environment uses: an endpoint, a time zone, a time format and a limit. A setting
that is given beside the configuration prevails over the one in it.
-/
namespace LogQuery

def Zone.ofSetting [ZoneDatabase] (v : Value) (object : Nat) : Except Failure Zone :=
  match v with
  | .string name => (Zone.ofName name object).mapError fun
    | .error e => .config (.badZone name e)
    | .fault f => .fault f
  | .scalar (.bytes _) => .error (.fault (.wrongType "keys must be text"))
  | _ => .error (.fault .missingOperation)

def TimeFormat.ofValue (v : Value) : TimeFormat :=
  match v with
  | .string t => TimeFormat.ofText t
  | v => .unusable v.kindName

namespace Env

/-- The endpoint at a place, counted around. -/
def endpoint (env : Env) (pick : Nat) : Except ConfigError Text :=
  match env.endpoints[pick % env.endpoints.length]? with
  | some endpoint => .ok endpoint
  | none => .error (.noEndpoints env.name.display)

/-- A setting given beside the configuration, or else the one in it. -/
def preferred (given : Text) (configured : Value) : Value :=
  if given = [] then configured else .string given

/-- The time zone of dates; universal time unless there is a setting. -/
def zone [ZoneDatabase] (env : Env) (given : Text) (object : Nat) : Except Failure Zone :=
  let v := preferred given env.timezone
  if v.isTruthy then Zone.ofSetting v object else .ok .utc

/-- The name of the time format of dates. The event search knows only one. -/
def timeFormatName (env : Env) (given : Text) : Value :=
  if env.source = .backend .eventSearch then .string "timestamp"
  else (preferred given env.timeFormat).orElse (.string "RFC3339")

def timeFormatFor (env : Env) (given : Text) : TimeFormat :=
  TimeFormat.ofValue (env.timeFormatName given)

/-- The number of records wanted; a number that is not positive is no setting. -/
def limitFor (env : Env) (given : Int) : Int :=
  if 0 < given then given else if 0 < env.limit then env.limit else defaultLimit

end Env
end LogQuery
