import LogQuery.Search.Event
/-!
# Search services

What the retrieval of records needs of a search service, of either kind: how to ask for a page,
how to read the records of a response, and what to ask for next.
-/
namespace LogQuery

/-- A record: its fields in the order of the response. -/
abbrev TaggedRecord := List (Text × Tagged)

namespace Backend

/-- The most records that a service hands out in one response. -/
def maxPageSize : Backend → Nat
  | indexSearch => IndexSearch.maxPageSize
  | eventSearch => EventSearch.maxPageSize

/-- The service of a source, if it is one that is known. -/
def ofSource (s : Source) : Except Failure Backend :=
  match s with
  | .backend b => .ok b
  | .other name => .error (.config (.unknownBackend name))

def validate (b : Backend) (env : Env) (q : Query) : Except Failure Unit :=
  match b with
  | indexSearch => IndexSearch.validate env q
  | eventSearch => .ok ()

/-- The request for a page, given the cursor that the last response left. -/
def request (b : Backend) (env : Env) (endpoint : Text) (q : Query) (cursor : Option Value)
    (pageSize : Int) : Except Failure Request :=
  match b with
  | indexSearch => IndexSearch.request env endpoint q cursor pageSize
  | eventSearch => EventSearch.request env endpoint q cursor pageSize

/-- What an operator should know about the request for a page. -/
def notices (b : Backend) (q : Query) (cursor : Option Value) : List Notice :=
  match b with
  | indexSearch => []
  | eventSearch => if (IndexSearch.usable cursor).isSome then [] else EventSearch.notices q

def records (b : Backend) (response : Tagged) : Except Failure (List TaggedRecord) :=
  match b with
  | indexSearch => IndexSearch.records response
  | eventSearch => EventSearch.records response

/-- What to ask for behind a response; nothing if it is the last one. -/
def cursor (b : Backend) (response : Tagged) : Except Failure (Option Value) :=
  match b with
  | indexSearch => IndexSearch.cursor response
  | eventSearch => EventSearch.cursor response

end Backend
end LogQuery
