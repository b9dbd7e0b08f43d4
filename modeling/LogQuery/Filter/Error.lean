import LogQuery.Calendar.Expression
/-!
# Errors in expressions

Why a filter, a time range, an order or the bound of a time range could not be read.
-/
namespace LogQuery

/-- Why a text is no expression of the kind that was expected. -/
inductive ParseError where
  | tooFewTokens (expression : Text)
  | missingValue (expression : Text)
  | missingValues (expression : Text)
  | tooManyValues (expression : Text)
  /-- Something else than `=` or `^` behind an exclamation mark. -/
  | badNegation (expression value : Text)
  | unknownOperation (expression operation : Text)
  | tooManyDelimiters (expression : Text)
  | badOrder (expression : Text)
  /-- The sign of an order says one thing and its direction another. -/
  | contradictoryOrder (expression sign direction : Text)
  | badTimestamp (value : Text) (cause : IntegerError)
  /-- A bound of a time range is no date. -/
  | badDate (expression value : Text) (cause : DateError)
  deriving DecidableEq

namespace ParseError

/-- The spellings of the operations that a filter may use. -/
def allowedOperations : Text :=
  "=, ==, !=, >, >=, <, <=, in, bt, between, intime, ex, exists, ^, nex, notexists, !^"

/-- The report of a filter that cannot be read. -/
def inFilter (expression reason : Text) : Text :=
  "failed to parse filter='" ++ expression ++ "': " ++ reason

/-- The report of an expression that cannot be read. -/
def message : ParseError → Text
  | tooFewTokens e => inFilter e "insufficient tokens to compose filter, at least 2 required"
  | missingValue e => inFilter e "missing value"
  | missingValues e => inFilter e "missing values"
  | tooManyValues e => inFilter e "too many values"
  | badNegation e value => inFilter e ("expected '=' or '^' after '!', got '" ++ value ++ "'")
  | unknownOperation e operation =>
    inFilter e ("unknown operation='" ++ operation ++ "', allowed operations are ["
      ++ allowedOperations ++ "]")
  | tooManyDelimiters e => "too many delimiters in time range='" ++ e ++ "'"
  | badOrder e => "failed to parse order='" ++ e ++ "'"
  | contradictoryOrder e sign direction =>
    "failed to parse order='" ++ e ++ "': sign '" ++ sign ++ "' contradicts '" ++ direction ++ "'"
  | badTimestamp value cause =>
    "failed to parse unix timestamp='" ++ value ++ "': " ++ cause.message
  | badDate e value cause =>
    inFilter e ("failed to parse str='" ++ value ++ "' as date: " ++ cause.message)

end ParseError
end LogQuery
