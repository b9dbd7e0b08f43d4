import LogQuery.Config.Basic
import LogQuery.Config.Shown
/-!
# Requests

An HTTP request to a search service, and the command line that would send it. Every word of the
command that holds anything but harmless characters is put in single quotes, which no shell looks
into; a single quote inside a word leaves the quotes and comes back between double quotes.
-/
namespace LogQuery

/-- A request: the body, if there is one, is sent as JSON. -/
structure Request where
  /-- `GET` or `POST`. -/
  method : Text
  url : Text
  headers : Headers
  body : Option Value
  /-- Seconds until the request is given up. -/
  timeout : Value := .integer 10

namespace Request

/-- A character that means nothing special to a shell. -/
def isHarmless (p : CodePoint) : Bool :=
  p.isAsciiLetter || p.isAsciiDigit || ("@%_-+=:,./" : Text).contains p

def quotePoint (p : CodePoint) : Text := if p = .scalar '\'' then "'\"'\"'" else [p]

def shellWord (t : Text) : Text :=
  if t ≠ [] ∧ t.all isHarmless then t
  else .scalar '\'' :: (t.flatMap quotePoint ++ [.scalar '\''])

def headerText (entry : Scalar × Value) : Except Fault Text := do
  let name ← (Value.scalar entry.1).shown
  let value ← entry.2.shown
  .ok (name ++ ": " ++ value)

/-- The words of the command that sends a request. -/
def words (r : Request) (headers : List Text) (body : Option Text) : List Text :=
  let header (header : Text) : List Text := [Text.ofString "-H", shellWord header]
  let data : List Text := match body with
    | some body => [Text.ofString "-d", shellWord body]
    | none => []
  [Text.ofString "curl", Text.ofString "-X", r.method] ++ headers.flatMap header ++ data
    ++ [shellWord r.url]

/-- The body of a request as JSON, if it has one. -/
def bodyText? (r : Request) : Except Fault (Option Text) :=
  match r.body with
  | some v => (Json.encode .compact v).map some
  | none => .ok none

/-- The command that sends a request, with a line end, as bytes. -/
def command (r : Request) : Except Fault Bytes := do
  let headers ← r.headers.mapM headerText
  let body ← r.bodyText?
  match Utf8.encode? (Text.join " " (r.words headers body) ++ "\n") with
  | some bytes => .ok bytes
  | none => .error .unencodable

end Request
end LogQuery
