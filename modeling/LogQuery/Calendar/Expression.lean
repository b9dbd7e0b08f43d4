import LogQuery.Calendar.Layout
import LogQuery.Calendar.Pattern
import LogQuery.Fault
/-!
# Date expressions

What an operator types for an instant: `now`, a step back such as `-15m`, or a date in one of the
layouts. `resolve` finds the moment that is meant, given a reference moment, and `formatMoment`
writes it the way a search service wants it.
-/
namespace LogQuery

/-- Why a step back leaves what a computer or the calendar can hold. -/
inductive StepOverflow where
  | machineInteger
  | span (days : Nat)
  | calendar
  deriving DecidableEq

def StepOverflow.message : StepOverflow → Text
  | machineInteger => "Python int too large to convert to C int"
  | span days => "days=" ++ Text.ofNat days ++ "; must have magnitude <= 999999999"
  | calendar => "date value out of range"

/-- Why a text is no date expression. -/
inductive DateError where
  | outOfRange (token : Text) (cause : StepOverflow)
  | noLayout (token : Text)
  deriving DecidableEq

/-- The report of a text that is no date expression. -/
def DateError.message : DateError → Text
  | outOfRange token cause =>
    "relative date '" ++ token ++ "' is out of range: " ++ cause.message
  | noLayout token => "no matching layout was found to parse '" ++ token ++ "'"

/-- A unit of a step back. -/
inductive StepUnit where
  | day
  | hour
  | minute
  | second
  deriving DecidableEq

namespace StepUnit

def letter : StepUnit → Char
  | day => 'd'
  | hour => 'h'
  | minute => 'm'
  | second => 's'

def seconds : StepUnit → Nat
  | day => 86400
  | hour => 3600
  | minute => 60
  | second => 1

def ofLetter? (p : CodePoint) : Option StepUnit :=
  [day, hour, minute, second].find? fun u => p = .scalar u.letter

end StepUnit

/-- A step back in time, its amount in ASCII digits. -/
structure Step where
  digits : List Nat
  unit : StepUnit

/-- A text read as a step back: a minus, digits and the letter of a unit. A line end may follow. -/
def Step.ofText? : Text → Option Step
  | .scalar '-' :: rest =>
    match Decimal.digits rest with
    | ([], _) => none
    | (digits, [p]) => (StepUnit.ofLetter? p).map (⟨digits, ·⟩)
    | (digits, [p, .scalar '\n']) => (StepUnit.ofLetter? p).map (⟨digits, ·⟩)
    | _ => none
  | _ => none

/-- Why a date expression has no moment. -/
inductive DateFailure where
  | error (e : DateError)
  | fault (f : Fault)
  deriving DecidableEq

def Step.before (s : Step) (token : Text) (now : Moment) : Except DateFailure Moment :=
  if Integer.maxDigits < s.digits.length then
    .error (.fault (.badValue (IntegerError.tooLong s.digits.length).message))
  else
    let seconds := ofDigits 10 s.digits * s.unit.seconds
    let days := seconds / 86400
    if Nat.pow 2 31 ≤ days then .error (.error (.outOfRange token .machineInteger))
    else if 999999999 < days then .error (.error (.outOfRange token (.span days)))
    else
      match now.minus? seconds with
      | some m => .ok m
      | none => .error (.error (.outOfRange token .calendar))

def resolve (token : Text) (now : Moment) : Except DateFailure Moment :=
  if token.isString "now" then .ok now
  else
    match Step.ofText? token with
    | some step => step.before token now
    | none =>
      match Layout.table.findSome? fun l => l.read? now token with
      | some m => .ok m
      | none => .error (.error (.noLayout token))

/-- How a search service wants its instants. -/
inductive TimeFormat where
  /-- Whole seconds since 1970. -/
  | timestamp
  | rfc3339
  | pattern (p : Text)
  /-- Something that is no format at all, of some kind of value. -/
  | unusable (kind : Text)
  deriving DecidableEq

/-- The time format of a name; any other text is a pattern. -/
def TimeFormat.ofText (t : Text) : TimeFormat :=
  if ["timestamp", "ts", "unix timestamp"].any t.isString then .timestamp
  else if ["RFC3339", "rfc3339"].any t.isString then .rfc3339
  else .pattern t

section

variable [ZoneDatabase]

namespace Moment

/-- Seconds since 1970, from the nearest double-precision number of them, cut to a whole number. -/
def timestamp (m : Moment) : Int :=
  (Binary64.ofRatio (m.sinceEpoch < 0) m.sinceEpoch.natAbs 1000000).truncate?.getD 0

/-- Date, time to the second and offset, `Z` standing for an offset of zero. -/
def rfc3339 (m : Moment) : Text :=
  m.date.toText ++ "T" ++ m.time.toText
    ++ (if m.offset = 0 then Text.single 'Z' else Zone.offsetText ":" m.offset)

end Moment

/-- Write a moment in a format. A pattern with a lone surrogate cannot be used. -/
def formatMoment (m : Moment) : TimeFormat → Except Fault Text
  | .timestamp => .ok (Text.ofInt m.timestamp)
  | .rfc3339 => .ok m.rfc3339
  | .pattern p =>
    match p.toString? with
    | some _ => .ok (Pattern.write p m)
    | none => .error .unencodable
  | .unusable kind => .error (.wrongType ("strftime() argument 1 must be str, not " ++ kind))

end

end LogQuery
