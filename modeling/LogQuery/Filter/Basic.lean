import LogQuery.Calendar.Expression
/-!
# Filters

A filter asks something of one field of a record. Which question is its operation; the values are
what the field is compared with. `Filter.describe` is the form in which a filter appears in
messages.
-/
namespace LogQuery

/-- What a filter asks of a field. -/
inductive Operation where
  /-- Holds the phrase. -/
  | eq
  /-- Equals the term. -/
  | teq
  /-- Does not hold the phrase. -/
  | neq
  | gt
  | gte
  | lt
  | lte
  /-- Holds one of some phrases. -/
  | oneOf
  /-- Lies between two values. -/
  | between
  /-- Lies between two instants. -/
  | during
  /-- Is there. -/
  | exist
  /-- Is not there. -/
  | absent
  /-- Something that no search service knows. -/
  | other (name : Text)
  deriving DecidableEq

namespace Operation

def known : List Operation :=
  [eq, teq, neq, gt, gte, lt, lte, oneOf, between, during, exist, absent]

def name : Operation → Text
  | eq => "eq"
  | teq => "teq"
  | neq => "neq"
  | gt => "gt"
  | gte => "gte"
  | lt => "lt"
  | lte => "lte"
  | oneOf => "in"
  | between => "bt"
  | during => "btt"
  | exist => "ex"
  | absent => "nex"
  | other name => name

def ofName (t : Text) : Operation := (known.find? fun o => o.name = t).getD (.other t)

/-- The spelling of an operation in a described filter. -/
def symbol : Operation → Text
  | eq => "="
  | teq => "=="
  | neq => "!="
  | gt => ">"
  | gte => ">="
  | lt => "<"
  | lte => "<="
  | oneOf => "in"
  | between => "bt"
  | during => "intime"
  | exist => "ex"
  | absent => "nex"
  | other name => name

end Operation

/-- A question about one field of a record. -/
structure Filter where
  key : Text
  operation : Operation
  values : List Text
  deriving DecidableEq

/-- The form of a filter in messages: key, operation, and the values in single quotes. -/
def Filter.describe (f : Filter) : Text :=
  Text.join " " ([f.key, f.operation.symbol] ++ f.values.map fun v => Text.single '\'' ++ v ++ "'")

/-- The order of records. -/
structure Order where
  field : Text
  ascending : Bool
  deriving DecidableEq

/-- The field that holds the instant of a record. -/
def timestampField : Text := "@timestamp"

def Order.newestFirst : Order := { field := timestampField, ascending := false }

/-- How many records a query asks for unless it says so. -/
def defaultLimit : Nat := 10

/-- What to search for: all filters have to hold. -/
structure Query where
  filters : List Filter := []
  order : Option Order := none
  /-- The number of records wanted from all pages together. -/
  limit : Int := defaultLimit
  index : Text := []

namespace Query

/-- The order of the records, the newest first by default. -/
def effectiveOrder (q : Query) : Order := q.order.getD Order.newestFirst

/-- The number of records wanted; a limit that is not positive is the default one. -/
def effectiveLimit (q : Query) : Nat := if 0 < q.limit then q.limit.toNat else defaultLimit

end Query

/-- Other names of fields. -/
abbrev Aliases := List (Text × Text)

/-- The field that a name stands for, looked up once. -/
def Aliases.apply (aliases : Aliases) (key : Text) : Text := (Text.lookup? key aliases).getD key

end LogQuery
