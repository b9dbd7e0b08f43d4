import LogQuery.Filter.Basic
import LogQuery.Filter.Error
import LogQuery.Filter.Token
/-!
# Reading filters

A filter expression is a key, an operation and values, as in `app = checkout`, `code in 500 502` or
`@timestamp intime -1h now`. The operation decides how many values there have to be. Operations
made of marks come as one or two tokens, words may have either case, and a quoted token is never an
operation.

`Filter.parse` reads one expression and `Filter.parseTimeRange` the short form `from/to` of a time
filter. The bounds of a time filter are resolved at once, so that the filter means the same whenever
it is used.
-/
namespace LogQuery

/-- What the dates of time filters are read and written with. -/
structure TimeSettings where
  zone : Zone := .utc
  format : TimeFormat := .rfc3339
  now : Moment

/-- Why an expression could not be read. -/
inductive ParseFailure where
  | error (e : ParseError)
  | fault (f : Fault)
  deriving DecidableEq

namespace Filter

section

variable [ZoneDatabase]

/-- A moment moved into a zone; at the ends of the calendar there may be none. -/
def moved (m : Moment) (zone : Zone) : Except ParseFailure Moment :=
  match m.inZone? zone with
  | some m => .ok m
  | none => .error (.fault (.overflow "date value out of range"))

/-- Resolve one bound of a time range and write it. -/
def timeBound (expression : Text) (settings : TimeSettings) (now : Moment) (bound : Text) :
    Except ParseFailure Text := do
  let moment ← (resolve bound now).mapError fun
    | .error e => .error (.badDate expression bound e)
    | .fault f => .fault f
  let moment ← moved moment settings.zone
  (formatMoment moment settings.format).mapError .fault

/-- Resolve both bounds of a time range, the first one first. -/
def timeBounds (expression first last : Text) (settings : TimeSettings) :
    Except ParseFailure (List Text) := do
  let now ← moved settings.now settings.zone
  let first ← timeBound expression settings now first
  let last ← timeBound expression settings now last
  .ok [first, last]

end

/-- What the tokens behind the key ask for. The bounds of a time range are still to be resolved. -/
inductive Question where
  | plain (operation : Operation) (values : List Text)
  | timeRange (first last : Text)
  deriving DecidableEq

/-- The operation written by a mark alone, and with an equals sign behind it. -/
def comparison? (operation : Text) : Option (Operation × Operation) :=
  if operation.isString "=" then some (.eq, .teq)
  else if operation.isString ">" then some (.gt, .gte)
  else if operation.isString "<" then some (.lt, .lte)
  else none

def oneValue (expression : Text) (operation : Operation) :
    List Text → Except ParseError Question
  | [] => .error (.missingValue expression)
  | [v] => .ok (.plain operation [Token.unquote v])
  | _ => .error (.tooManyValues expression)

def twoValues (expression : Text) (question : Text → Text → Question) :
    List Text → Except ParseError Question
  | [first, last] => .ok (question (Token.unquote first) (Token.unquote last))
  | _ :: _ :: _ :: _ => .error (.tooManyValues expression)
  | _ => .error (.missingValue expression)

def noValue (expression : Text) (operation : Operation) : List Text → Except ParseError Question
  | [] => .ok (.plain operation [])
  | _ => .error (.tooManyValues expression)

def someValues (expression : Text) (operation : Operation) : List Text → Except ParseError Question
  | [] => .error (.missingValues expression)
  | values => .ok (.plain operation (values.map Token.unquote))

/-- What an operation token and the tokens behind it ask for. -/
def question (expression operation : Text) (rest : List Text) : Except ParseError Question :=
  match comparison? operation with
  | some (alone, withEquals) =>
    match rest with
    | [.scalar '='] :: rest => oneValue expression withEquals rest
    | rest => oneValue expression alone rest
  | none =>
    if operation.isString "!" then
      match rest with
      | [.scalar '^'] :: rest => noValue expression .absent rest
      | [.scalar '='] :: rest => oneValue expression .neq rest
      | rest => .error (.badNegation expression (rest.headD []))
    else
      let word := operation.asciiLower
      if word.isString "in" then someValues expression .oneOf rest
      else if ["bt", "between"].any word.isString then
        twoValues expression (fun first last => .plain .between [first, last]) rest
      else if ["intime", "time"].any word.isString then twoValues expression .timeRange rest
      else if ["ex", "exists", "^"].any word.isString then noValue expression .exist rest
      else if ["nex", "notexists"].any word.isString then noValue expression .absent rest
      else .error (.unknownOperation expression operation)

section

variable [ZoneDatabase]

def answer (expression : Text) (settings : TimeSettings) (key : Text) :
    Question → Except ParseFailure Filter
  | .plain operation values => .ok { key, operation, values }
  | .timeRange first last => do
    let values ← timeBounds expression first last settings
    .ok { key, operation := .during, values }

def parse (expression : Text) (settings : TimeSettings) (aliases : Aliases) :
    Except ParseFailure Filter :=
  match Token.tokenize expression with
  | key :: operation :: rest => do
    let q ← (question expression operation rest).mapError .error
    answer expression settings (aliases.apply (Token.unquote key)) q
  | _ => .error (.error (.tooFewTokens expression))

/-- Read several filter expressions; the first one that cannot be read is reported. -/
def parseAll (expressions : List Text) (settings : TimeSettings) (aliases : Aliases) :
    Except ParseFailure (List Filter) :=
  expressions.mapM fun e => parse e settings aliases

/-- Read a time range `from/to` as a filter on a key; `from` alone ranges to the present. -/
def parseTimeRange (expression : Text) (settings : TimeSettings) (key : Text)
    (aliases : Aliases) : Except ParseFailure Filter :=
  match expression.splitOn (.scalar '/') with
  | [first] => answer expression settings (aliases.apply key) (.timeRange first.strip "now")
  | [first, last] =>
    answer expression settings (aliases.apply key) (.timeRange first.strip last.strip)
  | _ => .error (.error (.tooManyDelimiters expression))

end

end Filter
end LogQuery
