import LogQuery.Value.Basic
/-!
# Raw HTTP requests

A text that is the text of an HTTP request: a line with method, address and version, lines with
headers, an empty line, and the body. Lines end with a line feed, or with a carriage return and a
line feed if the first one does. A body is put together again with line feeds.
-/
namespace LogQuery

/-- The parts of a raw HTTP request. A repeated header keeps its first place and its last value. -/
structure HttpRequest where
  method : Text
  url : Text
  version : Text
  headers : List (Text × Text)
  body : Option Text
  deriving DecidableEq

namespace HttpRequest

def methods : List String := ["POST", "GET", "HEAD", "PUT", "DELETE"]

/-- The lines of a text, which has to have more than one. -/
def lines? (t : Text) : Option (List Text) :=
  match t.splitOn (.scalar '\n') with
  | first :: second :: rest =>
    if first.getLast? = some (.scalar '\r') then
      some (t.splitOnPair (.scalar '\r') (.scalar '\n'))
    else some (first :: second :: rest)
  | _ => none

/-- Read the lines behind the first one: headers, and what follows the first empty line. -/
def headersAndBody? : (headers : List (Text × Text)) → List Text →
    Option (List (Text × Text) × Option Text)
  | headers, [] => some (headers, none)
  | headers, [] :: rest => some (headers, some (Text.join "\n" rest))
  | headers, line :: rest =>
    match line.cutPair? (.scalar ':') (.scalar ' ') with
    | some (name, value) => headersAndBody? (Text.insert name value headers) rest
    | none => none

def ofText? (t : Text) : Option HttpRequest := do
  match ← lines? t with
  | [] => none
  | first :: rest =>
    match first.splitOn (.scalar ' ') with
    | [method, url, version] =>
      if methods.any method.isString then do
        let (headers, body) ← headersAndBody? [] rest
        some { method, url, version, headers, body }
      else none
    | _ => none

def toValue (r : HttpRequest) : Value :=
  let headers := Value.ofMembers (r.headers.map fun (name, value) => (name, Value.string value))
  let body : List (Text × Value) := match r.body with
    | some body => [("body", .string body)]
    | none => []
  Value.ofMembers ([(Text.ofString "method", Value.string r.method), ("url", .string r.url),
    ("version", .string r.version), ("headers", headers)] ++ body)

end HttpRequest
end LogQuery
