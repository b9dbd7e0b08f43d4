import LogQuery.Config.Error
import LogQuery.Fault
import LogQuery.Filter.Parse
/-!
# Failures

Every way in which an operation of the program can end without a result: the errors that it
reports to its user, each with its cause, and the faults of basic operations that it lets pass.
-/
namespace LogQuery

/-- Why a response is not the document that a search service owes. -/
inductive DecodeError where
  | json (cause : Json.Error)
  /-- The document is of another kind than a map. -/
  | notObject (kind : String)
  /-- A part of the document is of another kind than a list. -/
  | notList (part kind : String)
  /-- A record is nested too deeply to be shown. -/
  | tooDeep
  deriving DecidableEq

/-- The report of a bad response. -/
def DecodeError.message : DecodeError → Text
  | json cause => "failed to parse JSON: " ++ cause.message
  | notObject kind =>
    "failed to parse response: expected object, got " ++ Text.ofString kind
  | notList part kind =>
    "failed to parse response: " ++ Text.ofString part ++ " is " ++ Text.ofString kind
      ++ ", expected list"
  | tooDeep => "failed to render record: nested too deeply"

/-- Why a filter cannot be put to a search service. -/
inductive UnsupportedError where
  /-- An operation that no service knows. -/
  | unknown (operation : Text)
  /-- A filter with an operation that no service knows. -/
  | unknownIn (filter operation : Text)
  /-- A filter with an operation that the event search lacks. -/
  | notInEvents (filter operation : Text)
  deriving DecidableEq

/-- The report of a filter that cannot be put to a search service. -/
def UnsupportedError.message : UnsupportedError → Text
  | unknown operation => "unknown operation='" ++ operation ++ "'"
  | unknownIn filter operation =>
    "failed to compose filter for '" ++ filter ++ "': unknown operation='" ++ operation ++ "'"
  | notInEvents filter operation =>
    "failed to compose filter for '" ++ filter ++ "': operation '" ++ operation
      ++ "' is not supported by datadog"

/-- Why an operation ended without a result. -/
inductive Failure where
  | parse (e : ParseError)
  | date (e : DateError)
  | unsupported (e : UnsupportedError)
  /-- No response came; the text says why. -/
  | transport (reason : Text)
  /-- A response that does not report success. -/
  | status (code : Int) (body : Text)
  | decode (e : DecodeError)
  | config (e : ConfigError)
  /-- An output format that does not exist. -/
  | format (name : Text)
  /-- The caller cancelled a retrieval after some pages. -/
  | cancelled (pages : Nat)
  /-- The operator interrupted the program. -/
  | interrupted
  | fault (f : Fault)
  deriving DecidableEq

namespace Failure

/-- An error of the program's own vocabulary. -/
def isReported : Failure → Bool
  | interrupted => false
  | fault _ => false
  | _ => true

def message : Failure → Text
  | parse e => e.message
  | date e => e.message
  | unsupported e => e.message
  | transport reason => "http request failed: " ++ reason
  | status code body =>
    let suffix : Text := if body = [] then [] else ", body='" ++ body ++ Text.single '\''
    "got unexpected http code=" ++ Text.ofInt code ++ suffix
  | decode e => e.message
  | config e => e.message
  | format name => "format='" ++ name ++ "' is not implemented"
  | cancelled pages => "retrieval cancelled after " ++ Text.ofNat pages ++ " page(s)"
  | interrupted => []
  | fault f => f.message

/-- A failure to read an expression. -/
def ofParse : ParseFailure → Failure
  | .error e => .parse e
  | .fault f => .fault f

def ofDate : DateFailure → Failure
  | .error e => .date e
  | .fault f => .fault f

end Failure
end LogQuery
