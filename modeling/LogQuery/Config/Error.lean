import LogQuery.Json.Error
import LogQuery.Text.Quoted
/-!
# Errors in configurations

What is wrong with a configuration, with a request for one of its parts, or with a setting given
beside it. Names and values are carried in the form in which they are shown.
-/
namespace LogQuery

/-- Why a text is not the base-64 form of some bytes. -/
inductive Base64Error where
  | leadingPadding
  | foreignCharacter
  | excessData
  | discontinuousPadding
  /-- So many characters that the last one stands alone. -/
  | strayCharacter (characters : Nat)
  | incorrectPadding
  deriving DecidableEq

/-- The report of a text that is not in base 64. -/
def Base64Error.message : Base64Error → Text
  | leadingPadding => "Leading padding not allowed"
  | foreignCharacter => "Only base64 data is allowed"
  | excessData => "Excess data after padding"
  | discontinuousPadding => "Discontinuous padding not allowed"
  | strayCharacter n =>
    "Invalid base64-encoded string: number of data characters (" ++ Text.ofNat n
      ++ ") cannot be 1 more than a multiple of 4"
  | incorrectPadding => "Incorrect padding"

/-- Why a cloud id names no address. -/
inductive CloudIdError where
  | badFormat (cloudId : Text)
  | notBase64 (cloudId : Text) (cause : Base64Error)
  | notUtf8 (cloudId : Text) (cause : UndecodableBytes)
  | noUuid (value : Text)
  deriving DecidableEq

/-- The report of a cloud id that names no address. -/
def CloudIdError.message : CloudIdError → Text
  | badFormat id => "unexpected format: '" ++ id ++ "'"
  | notBase64 id cause => "failed to decode cloud_id='" ++ id ++ "': " ++ cause.message
  | notUtf8 id cause => "failed to decode cloud_id='" ++ id ++ "': " ++ cause.message
  | noUuid value => "invalid encoded value: [" ++ value.quoted ++ "]"

/-- Why a name is not that of a time zone. -/
inductive ZoneNameError where
  | unknown (name : Text)
  | absolute (name : Text)
  | notNormal (name : Text)
  | outside (name : Text)
  /-- What is recorded under the name is no description of a clock. -/
  | malformed (message : Text)
  deriving DecidableEq

/-- The report of a name that is no time zone. -/
def ZoneNameError.message : ZoneNameError → Text
  | unknown name => ("No time zone found with key " ++ name).quoted
  | absolute name => "ZoneInfo keys may not be absolute paths, got: " ++ name
  | notNormal name => "ZoneInfo keys must be normalized relative paths, got: " ++ name
  | outside name => "ZoneInfo keys must refer to subdirectories of TZPATH, got: " ++ name
  | malformed message => message

/-- Why a setting does not name decode targets. -/
inductive TargetError where
  /-- A value of a kind that cannot name targets. -/
  | badKind (literal kind : Text)
  | unknown (names : List Text)
  deriving DecidableEq

/-- The report of a setting that does not name decode targets. -/
def TargetError.message : TargetError → Text
  | badKind literal kind =>
    "can't handle " ++ literal ++ " (type=" ++ kind
      ++ ") as decode targets, allowed values are bool or list of strings"
  | unknown names =>
    "unknown decode targets [" ++ Text.join ", " (names.map Text.quoted)
      ++ "], allowed are ['json', 'http', 'yaml']"

/-- Why the system does not hand out what is at a path. -/
inductive Refusal where
  | directory
  | permission
  deriving DecidableEq

/-- The report of a refusal, with the number that the system has for it. -/
def Refusal.message : Refusal → Text
  | directory => "[Errno 21] Is a directory"
  | permission => "[Errno 13] Permission denied"

/-- Why a configuration file could not be read. -/
inductive FileProblem where
  | missing
  | refused (refusal : Refusal) (path : Text)
  | undecodable (cause : UndecodableBytes)
  | json (cause : Json.Error)
  /-- A YAML document with an error of syntax, which has no description. -/
  | yaml
  /-- A YAML document with a scalar that is not what it looks like. -/
  | yamlValue (message : Text)
  deriving DecidableEq

def FileProblem.message : FileProblem → Text
  | missing => "file does not exist"
  | refused refusal path => refusal.message ++ ": " ++ path.quoted
  | undecodable cause => cause.message
  | json cause => cause.message
  | yaml => []
  | yamlValue message => message

/-- What is wrong with a configuration or with a request for one of its parts. -/
inductive ConfigError where
  | missingIndex
  | unknownBackend (source : Text)
  | noEndpoints (env : Text)
  | badZone (name : Text) (cause : ZoneNameError)
  | envNotFound (name : Text)
  | noDefaultEnv
  | outputNotFound (name : Text)
  | manyDefaultEnvs (names : List Text)
  | manyDefaultOutputs (names : List Text)
  | unsetVariable (env header var : Text)
  | badHeader (env header literal : Text)
  | unknownSource (env source : Text)
  /-- A limit or a timeout that is no number, and why. -/
  | badNumber (env reason : Text)
  | cloudId (cause : CloudIdError)
  | envCloudId (env : Text) (cause : CloudIdError)
  | targets (cause : TargetError)
  | outputTargets (output : Text) (cause : TargetError)
  | notMapping (kind : Text)
  | badFile (file : Text) (problem : FileProblem)
  deriving DecidableEq

namespace ConfigError

/-- A name in single quotes behind what it is the name of. -/
def named (kind : String) (name : Text) : Text := Text.ofString kind ++ "='" ++ name ++ "'"

/-- The report of what is wrong. -/
def message : ConfigError → Text
  | missingIndex => "neither index was specified, nor default index for env was found"
  | unknownBackend source => "unknown " ++ named "source" source
  | noEndpoints env => named "env" env ++ " has zero endpoints"
  | badZone name cause =>
    "failed to get timezone from " ++ named "string" name ++ ": " ++ cause.message
  | envNotFound name => named "env" name ++ " not found"
  | noDefaultEnv => "env was not specified and no default env was found in config"
  | outputNotFound name => named "output" name ++ " not found"
  | manyDefaultEnvs names =>
    "only one default env is allowed, found multiple: " ++ Text.join ", " names
  | manyDefaultOutputs names =>
    "only one default output is allowed, found multiple: " ++ Text.join ", " names
  | unsetVariable env header var =>
    named "env" env ++ " " ++ named "header" header ++ " refers to unset variable '" ++ var
      ++ "'"
  | badHeader env header literal =>
    named "env" env ++ " " ++ named "header" header ++ " has unsupported value " ++ literal
  | unknownSource env source =>
    named "env" env ++ " has unknown " ++ named "source" source
      ++ ", allowed are ['elasticsearch', 'datadog']"
  | badNumber env reason => named "env" env ++ " has invalid limit or timeout: " ++ reason
  | cloudId cause => cause.message
  | envCloudId env cause => named "env" env ++ " has invalid cloud_id: " ++ cause.message
  | targets cause => cause.message
  | outputTargets output cause => named "output" output ++ ": " ++ cause.message
  | notMapping kind => "config must be a mapping, got " ++ kind
  | badFile file problem =>
    "failed to read config from " ++ named "file" file ++ ": " ++ problem.message

end ConfigError
end LogQuery
