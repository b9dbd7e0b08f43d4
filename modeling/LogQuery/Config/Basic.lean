import LogQuery.Output.Profile
import LogQuery.Filter.Basic
import LogQuery.Number.Binary64
/-!
# Configurations

The named environments that can be searched, the named output profiles, and the aliases of fields.
What a configuration says is stored as it says it; only what the program itself computes with
(the kind of service, the endpoints, the limit, the timeout, the headers) has a type of its own.
-/
namespace LogQuery

/-- The kind of a search service. -/
inductive Backend where
  /-- Searches an index by structured queries. -/
  | indexSearch
  /-- Searches log events by a query text. -/
  | eventSearch
  deriving DecidableEq

namespace Backend

/-- The name of a kind of service in a configuration. -/
def name : Backend → Text
  | indexSearch => "elasticsearch"
  | eventSearch => "datadog"

/-- The kind of service of a name. -/
def ofName? (t : Text) : Option Backend := [indexSearch, eventSearch].find? fun b => b.name = t

end Backend

/-- What an environment says about its service. -/
inductive Source where
  | backend (b : Backend)
  | other (name : Text)
  deriving DecidableEq

def Source.ofName (t : Text) : Source :=
  match Backend.ofName? t with
  | some b => .backend b
  | none => .other t

def Source.name : Source → Text
  | backend b => b.name
  | other name => name

/-- The headers of a request, or the part of them that an environment sets. -/
abbrev Headers := List (Scalar × Value)

/-- A search service and how to ask it. -/
structure Env where
  name : Scalar
  endpoints : List Text := []
  source : Source := .backend .indexSearch
  index : Value := .string []
  isDefault : Bool := false
  timezone : Value := .string []
  timeFormat : Value := .string []
  limit : Int := 0
  output : Value := .string []
  order : Value := .string []
  headers : Headers := []
  apiKey : Value := .string []
  appKey : Value := .string []
  /-- Seconds until a request is given up. -/
  timeout : Value := .integer 10

/-- Everything a configuration file says. -/
structure Config where
  envs : List (Scalar × Env) := []
  outputs : List (Scalar × Profile) := []
  aliases : Aliases := []

end LogQuery
