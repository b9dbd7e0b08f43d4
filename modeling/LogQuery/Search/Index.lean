import LogQuery.Failure
import LogQuery.Json.Tagged
import LogQuery.Search.Request
/-!
# The index search

A service that searches an index by structured queries. A query compiles to a `BoolQuery`: clauses
that have to hold, clauses that must not hold, and alternatives of which a number has to hold. A
filter with several admissible values becomes one alternative of its own kind, itself a choice among
phrases, and as many alternatives have to hold as there are such filters: all of them.

Pages follow one another by the sort values of the last hit.
-/
namespace LogQuery.IndexSearch

/-- The most records that the service hands out in one response. -/
def maxPageSize : Nat := 10000

/-- A bound of a range. -/
inductive Bound where
  | gt
  | gte
  | lt
  | lte
  deriving DecidableEq

def Bound.name : Bound → Text
  | gt => "gt"
  | gte => "gte"
  | lt => "lt"
  | lte => "lte"

/-- A question about one field of a document. -/
inductive Clause where
  | matchPhrase (key value : Text)
  | term (key value : Text)
  | range (key : Text) (bounds : List (Bound × Text))
  | exist (key : Text)
  /-- One of some phrases has to match. -/
  | anyPhrase (key : Text) (values : List Text)
  deriving DecidableEq

/-- Clauses with their roles. -/
structure BoolQuery where
  filter : List Clause := []
  should : List Clause := []
  mustNot : List Clause := []
  minimumShouldMatch : Nat := 0
  deriving DecidableEq

/-- The body of a search request. -/
structure Search where
  size : Int
  /-- The sort values behind which the page begins. -/
  searchAfter : Option Value
  order : Order
  query : BoolQuery

def object (members : List (String × Value)) : Value :=
  Value.ofMembers (members.map fun (k, v) => (Text.ofString k, v))

def single (key : Text) (value : Value) : Value := Value.ofMembers [(key, value)]

/-- The question whether a field holds a phrase. -/
def phrase (key value : Text) : Value := object [("match_phrase", single key (.string value))]

/-- A clause in the language of the service. -/
def Clause.toValue : Clause → Value
  | matchPhrase key value => phrase key value
  | term key value => object [("term", single key (object [("value", .string value)]))]
  | range key bounds =>
    object [("range", single key (Value.ofMembers (bounds.map fun (b, v) => (b.name, .string v))))]
  | exist key => object [("exists", object [("field", .string key)])]
  | anyPhrase key values =>
    object [("bool", object
      [("should", .list (values.map (phrase key))), ("minimum_should_match", .integer 1)])]

/-- Clauses with their roles in the language of the service. -/
def BoolQuery.toValue (q : BoolQuery) : Value :=
  object [("bool", object
    [("filter", .list (q.filter.map Clause.toValue)),
      ("should", .list (q.should.map Clause.toValue)),
      ("must_not", .list (q.mustNot.map Clause.toValue)),
      ("minimum_should_match", .integer q.minimumShouldMatch)])]

def directionName (ascending : Bool) : Text := if ascending then "asc" else "desc"

/-- The body of a search request in the language of the service. -/
def Search.toValue (s : Search) : Value :=
  let after : List (String × Value) := match s.searchAfter with
    | some v => [("search_after", v)]
    | none => []
  let sort := single s.order.field
    (object [("order", .string (directionName s.order.ascending))])
  object ([("size", Value.integer s.size)] ++ after
    ++ [("sort", .list [sort]), ("query", s.query.toValue)])

/-- The clause of a filter, without regard to its role: a filter with a negative operation has the
clause of the positive one. -/
def clause (f : Filter) : Except Failure Clause :=
  match f.operation, f.values with
  | .eq, v :: _ => .ok (.matchPhrase f.key v)
  | .neq, v :: _ => .ok (.matchPhrase f.key v)
  | .teq, v :: _ => .ok (.term f.key v)
  | .gt, v :: _ => .ok (.range f.key [(.gt, v)])
  | .gte, v :: _ => .ok (.range f.key [(.gte, v)])
  | .lt, v :: _ => .ok (.range f.key [(.lt, v)])
  | .lte, v :: _ => .ok (.range f.key [(.lte, v)])
  | .between, a :: b :: _ => .ok (.range f.key [(.gte, a), (.lte, b)])
  | .during, a :: b :: _ => .ok (.range f.key [(.gte, a), (.lte, b)])
  | .oneOf, values => .ok (.anyPhrase f.key values)
  | .exist, _ => .ok (.exist f.key)
  | .absent, _ => .ok (.exist f.key)
  | .other name, _ => .error (.unsupported (.unknown name))
  | _, _ => .error (.fault .missingElement)

/-- Add the clause of a filter to the clauses of its role. -/
def BoolQuery.add (q : BoolQuery) (operation : Operation) (c : Clause) : BoolQuery :=
  match operation with
  | .oneOf =>
    { q with should := q.should ++ [c], minimumShouldMatch := q.minimumShouldMatch + 1 }
  | .neq => { q with mustNot := q.mustNot ++ [c] }
  | .absent => { q with mustNot := q.mustNot ++ [c] }
  | _ => { q with filter := q.filter ++ [c] }

/-- A failure to compile a filter names the filter. -/
def inFilter (f : Filter) : Failure → Failure
  | .unsupported (.unknown operation) => .unsupported (.unknownIn f.describe operation)
  | e => e

/-- The query that asks for all filters to hold. -/
def compile : (filters : List Filter) → BoolQuery → Except Failure BoolQuery
  | [], q => .ok q
  | f :: rest, q => do
    let c ← (clause f).mapError (inFilter f)
    compile rest (q.add f.operation c)

/-- A cursor that continues behind something. -/
def usable (cursor : Option Value) : Option Value := cursor.filter Value.isTruthy

/-- The body of the request for a page. -/
def search (q : Query) (cursor : Option Value) (pageSize : Int) : Except Failure Search := do
  let query ← compile q.filters {}
  .ok { size := pageSize, searchAfter := usable cursor, order := q.effectiveOrder, query }

def defaultPageSize (q : Query) : Int := min q.effectiveLimit maxPageSize

/-- The body of the request for a page, of a given size or of the default one. -/
def payload (q : Query) (cursor : Option Value) (pageSize : Option Int) : Except Failure Value :=
  (search q cursor (pageSize.getD (defaultPageSize q))).map Search.toValue

/-- The index to search: the one of the query, or else the one of the environment. -/
def indexOf (env : Env) (q : Query) : Value := if q.index ≠ [] then .string q.index else env.index

/-- A query without an index cannot be asked. -/
def validate (env : Env) (q : Query) : Except Failure Unit :=
  if (indexOf env q).isTruthy then .ok () else .error (.config .missingIndex)

def searchUrl (endpoint : Text) (index : Value) : Text :=
  endpoint.trimEnd (· = .scalar '/') ++ "/" ++ index.display ++ "/_search?pretty"

def header (name : String) (value : Value) : Scalar × Value := (.string name, value)

/-- The headers of an environment on top of others. -/
def withHeaders (env : Env) (headers : Headers) : Headers := Value.ofPairs (headers ++ env.headers)

def request (env : Env) (endpoint : Text) (q : Query) (cursor : Option Value) (pageSize : Int) :
    Except Failure Request := do
  let body ← payload q cursor (some pageSize)
  .ok { method := "POST", url := searchUrl endpoint (indexOf env q),
        headers := withHeaders env [header "content-type" (.string "application/json")],
        body := some body, timeout := env.timeout }

def hits (response : Tagged) : Except Failure (List Tagged) :=
  match (response.member? "hits").bind (·.member? "hits") with
  | none => .ok []
  | some .null => .ok []
  | some (.list hits) => .ok hits
  | some other => .error (.decode (.notList "hits.hits" other.kindName))

/-- The members of a map; other documents have none. -/
def members : Option Tagged → List (Text × Tagged)
  | some (.map members) => members
  | _ => []

def records (response : Tagged) : Except Failure (List (List (Text × Tagged))) :=
  match response with
  | .map _ => (hits response).map fun hs => hs.map fun hit => members (hit.member? "_source")
  | other => .error (.decode (.notObject other.kindName))

/-- The sort values of the last hit, behind which the next page begins. -/
def cursor (response : Tagged) : Except Failure (Option Value) :=
  (hits response).map fun hs =>
    match hs.getLast?.bind (·.member? "sort") with
    | some (.list (v :: vs)) => some (Tagged.list (v :: vs)).plain
    | _ => none

end LogQuery.IndexSearch
