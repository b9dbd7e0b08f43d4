import LogQuery.Config.Basic
import LogQuery.Config.CloudId
import LogQuery.Config.Environ
import LogQuery.Config.Shown
import LogQuery.Value.Access
/-!
# Authorization

The headers by which a request shows that it may be made. An environment gives them one by one, each
as a text, as a value, or as the variable that holds it; or it gives a user with a password, or a
cloud id with a key, which also says where the service is.
-/
namespace LogQuery.Authorization

/-- The header that carries credentials. -/
def headerName : Scalar := .string "Authorization"

/-- The value of a variable that a header refers to. -/
def namedVariable (environ : Environ) (env header : Text) (name : Value) : Except Failure Text :=
  match name with
  | .string t =>
    if t.all Environ.isNamePoint then
      match environ.get? t with
      | some value => .ok value
      | none => .error (.config (.unsetVariable env header t))
    else .error (.fault .unencodable)
  | v => .error (.fault (.wrongType ("str expected, not " ++ v.kindName)))

def headerValue (environ : Environ) (env header : Text) (spec : Value) : Except Failure Text :=
  match spec, spec.member? "value", spec.member? "env" with
  | .string t, _, _ => .ok t
  | _, some v, _ => v.shown.mapError .fault
  | _, none, some name => namedVariable environ env header name
  | _, none, none => .error (.naming spec (.config (.badHeader env header spec.literal)))

def ownHeaders (environ : Environ) (env : Text) (table : Value) : Except Failure Headers := do
  let specs ← (table.table "header").mapError .fault
  specs.mapM fun (name, spec) =>
    ((headerValue environ env name.display spec).mapError (.naming (.scalar name))).map fun value =>
      (name, Value.string value)

/-- The credentials of a user with a password. -/
def basicToken (basic : Value) : Except Failure Text := do
  let user ← (basic.entryOr "user" (.string [])).mapError .fault
  let user ← user.shown.mapError .fault
  let password ← (basic.entryOr "password" (.string [])).mapError .fault
  let password ← password.shown.mapError .fault
  match Utf8.encode? (user ++ ":" ++ password) with
  | some bytes => .ok ("Basic " ++ Base64.encode bytes)
  | none => .error (.fault .unencodable)

def inEnv (env : Text) : Failure → Failure
  | .config (.cloudId e) => .config (.envCloudId env e)
  | e => e

/-- The address of a service in a cloud, and the credentials for it. -/
def cloudAccess (env : Text) (cloud : Value) : Except Failure (Text × Text) := do
  let id ← (cloud.entryOr "cloud_id" (.string [])).mapError .fault
  let address ← match id with
    | .string id => (CloudId.address id).mapError (inEnv env)
    | .scalar (.bytes _) =>
      .error (.fault (.wrongType "a bytes-like object is required, not 'str'"))
    | _ => .error (.fault .missingOperation)
  let key ← (cloud.entryOr "api_key" (.string [])).mapError .fault
  let key ← key.shown.mapError .fault
  .ok (address, "ApiKey " ++ key)

def withCredentials (credentials : Text) (headers : Headers) : Headers :=
  Value.insert headerName (.string credentials) headers

/-- Headers and endpoints, given the table of an environment and the endpoints that it names. -/
def resolve (environ : Environ) (env : Text) (table : Value) (endpoints : List Text) :
    Except Failure (Headers × List Text) := do
  let headers ← ownHeaders environ env table
  let basic ← (table.entry "basic").mapError .fault
  let headers ←
    if basic.isTruthy then (basicToken basic).map fun token => withCredentials token headers
    else .ok headers
  let cloud ← (table.entry "cloud").mapError .fault
  if cloud.isTruthy then
    (cloudAccess env cloud).map fun (address, credentials) =>
      (withCredentials credentials headers, [address])
  else .ok (headers, endpoints)

end LogQuery.Authorization
