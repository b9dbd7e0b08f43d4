import LogQuery.Search.Index
import LogQuery.Search.Notice
/-!
# The event search

A service that searches log events by a query text. A filter becomes one term of the text,
`key:value` with the special characters of the value escaped; a time filter becomes the window of
the search, in milliseconds. Terms of the field `msg` have no key, and in them special characters
become wildcards.

Pages follow one another by the links that the service puts into its responses.
-/
namespace LogQuery.EventSearch

/-- The most records that the service hands out in one response. -/
def maxPageSize : Nat := 5000

def searchPath : Text := "/api/v2/logs/events/search"

/-- The field of the message itself. -/
def messageKey : Text := "msg"

/-- A sequence that means something in a query text. -/
inductive Special where
  | single (p : CodePoint)
  /-- The same character twice. -/
  | double (p : CodePoint)
  deriving DecidableEq

def Special.text : Special → Text
  | single p => [p]
  | double p => [p, p]

/-- The special sequences in the order in which they are escaped. The backslash is the first, so
that no backslash of an escape is escaped again. -/
def specials : List Special :=
  ("\\+-=*" : Text).map .single ++ ("&|" : Text).map .double
    ++ ("><!?()\x7b\x7d[]^\"“”~:/ " : Text).map .single

/-- Put a text in the place of every occurrence of a character. -/
def replaceSingle (p : CodePoint) (replacement : Text) (t : Text) : Text :=
  t.flatMap fun q => if q = p then replacement else [q]

/-- Put a text in the place of every pair of a character with itself, found from left to right. -/
def replaceDouble (p : CodePoint) (replacement : Text) : Text → Text
  | [] => []
  | [q] => [q]
  | q :: r :: rest =>
    if q = p ∧ r = p then replacement ++ replaceDouble p replacement rest
    else q :: replaceDouble p replacement (r :: rest)

/-- Put a text in the place of every occurrence of a special sequence. -/
def Special.replace (s : Special) (replacement : Text) (t : Text) : Text :=
  match s with
  | single p => replaceSingle p replacement t
  | double p => replaceDouble p replacement t

/-- What stands for a special sequence in the value of a key. -/
def Special.escaped (key : Text) (s : Special) : Text :=
  if key = messageKey then "?" else .scalar '\\' :: s.text

/-- A value in which no special sequence is left to mean anything. -/
def escape (key value : Text) : Text :=
  specials.foldl (fun t s => s.replace (s.escaped key) t) value

/-- The instants that a search is limited to, in milliseconds since 1970. -/
structure Window where
  start : Int
  stop : Int
  deriving DecidableEq

/-- What the service is asked for. -/
structure EventQuery where
  window : Option Window := none
  terms : List Text := []
  deriving DecidableEq

/-- The front of a term. -/
def keyPart (key : Text) : Text := if key = messageKey then [] else key ++ ":"

/-- Whole seconds as milliseconds. -/
def milliseconds (value : Text) : Except Failure Int :=
  match Integer.read 10 value with
  | .ok n => .ok (n * 1000)
  | .error cause => .error (.parse (.badTimestamp value cause))

/-- Add a filter to what is asked for. A further time filter takes the place of the last one. -/
def EventQuery.add (q : EventQuery) (f : Filter) : Except Failure EventQuery :=
  let term (t : Text) : Except Failure EventQuery :=
    .ok { q with terms := q.terms ++ [t] }
  match f.operation, f.values with
  | .eq, v :: _ => term (keyPart f.key ++ "*" ++ escape f.key v ++ "*")
  | .teq, v :: _ => term (keyPart f.key ++ escape f.key v)
  | .neq, v :: _ => term ("-" ++ keyPart f.key ++ escape f.key v)
  | .between, a :: b :: _ => term (keyPart f.key ++ "[" ++ a ++ " TO " ++ b ++ "]")
  | .during, a :: rest => do
    let start ← milliseconds a
    match rest with
    | b :: _ => do
      let stop ← milliseconds b
      .ok { q with window := some ⟨start, stop⟩ }
    | [] => .error (.fault .missingElement)
  | .eq, [] | .teq, [] | .neq, [] | .during, [] | .between, _ => .error (.fault .missingElement)
  | operation, _ => .error (.unsupported (.notInEvents f.describe operation.name))

/-- Add filters to what is asked for. -/
def compileFrom : EventQuery → (filters : List Filter) → Except Failure EventQuery
  | q, [] => .ok q
  | q, f :: rest => do
    let q ← q.add f
    compileFrom q rest

def compile (filters : List Filter) : Except Failure EventQuery := compileFrom {} filters

def EventQuery.text (q : EventQuery) : Text := Text.join " " q.terms

/-- What is asked for, in the language of the service. -/
def EventQuery.toValue (q : EventQuery) : Value :=
  let window : List (String × Value) := match q.window with
    | some w => [("from", .integer w.start), ("to", .integer w.stop)]
    | none => []
  IndexSearch.object (window ++ [("query", .string q.text)])

/-- The service sorts by time only; the names of the field that holds it. -/
def isTimeField (field : Text) : Bool := field = timestampField || field.isString "timestamp"

/-- What an operator should know about the search that a query asks for. -/
def notices (q : Query) : List Notice :=
  if isTimeField q.effectiveOrder.field then [] else [.orderIgnored q.effectiveOrder.field]

def defaultPageSize (q : Query) : Int := min q.effectiveLimit maxPageSize

/-- The body of the request for the first page, of a given size or of the default one. -/
def payload (q : Query) (pageSize : Option Int) : Except Failure Value := do
  let events ← compile q.filters
  .ok (IndexSearch.object
    [("filter", events.toValue),
      ("page", IndexSearch.object [("limit", .integer (pageSize.getD (defaultPageSize q)))]),
      ("sort", .string (if q.effectiveOrder.ascending then "timestamp" else "-timestamp"))])

/-- The headers of every request. -/
def headers (env : Env) : Headers :=
  IndexSearch.withHeaders env
    [IndexSearch.header "content-type" (.string "application/json"),
      IndexSearch.header "DD-API-KEY" env.apiKey,
      IndexSearch.header "DD-APPLICATION-KEY" env.appKey]

/-- The request for a page: a search for the first one, and the link that the last response gave
for a later one. -/
def request (env : Env) (endpoint : Text) (q : Query) (cursor : Option Value) (pageSize : Int) :
    Except Failure Request :=
  match IndexSearch.usable cursor with
  | some (.string url) =>
    .ok { method := "GET", url, headers := headers env, body := none, timeout := env.timeout }
  | some v => .error (.fault (.wrongType ("expected string or bytes-like object, got "
      ++ v.kindName.quoted)))
  | none => do
    let body ← payload q (some pageSize)
    .ok { method := "POST", url := endpoint.trimEnd (· = .scalar '/') ++ searchPath,
          headers := headers env, body := some body, timeout := env.timeout }

def records (response : Tagged) : Except Failure (List (List (Text × Tagged))) :=
  match response with
  | .map _ =>
    match response.member? "data" with
    | none => .ok []
    | some .null => .ok []
    | some (.list events) =>
      .ok (events.map fun event =>
        IndexSearch.members ((event.member? "attributes").bind (·.member? "attributes")))
    | some other => .error (.decode (.notList "data" other.kindName))
  | other => .error (.decode (.notObject other.kindName))

def cursor (response : Tagged) : Except Failure (Option Value) :=
  match (response.member? "links").bind (·.member? "next") with
  | some (.string (p :: url)) => .ok (some (.string (p :: url)))
  | _ => .ok none

end LogQuery.EventSearch
