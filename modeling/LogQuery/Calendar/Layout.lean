import LogQuery.Calendar.Moment
import LogQuery.Text.Class
import LogQuery.Number.Integer
/-!
# Date layouts

The forms in which a date or a time of day may be written. A layout is a row of parts; `table`
lists all layouts, in the order in which they are tried.

A part is read leniently: numbers may have one or two digits, blanks may be many, and letters may
have either case. Where a part can be read in several ways the first way that lets the rest of
the row be read is taken (`readParts?`), and then no text may be left over. Parts that a layout
lacks are supplied from a reference moment: they are written in front of the text and read with
it, so that the 29th of February is judged by the year of the reference.
-/
namespace LogQuery

/-- A number in a date layout. -/
inductive DateField where
  | year
  | month
  | day
  | hour
  | minute
  | second
  deriving DecidableEq

/-- A part of a date layout. -/
inductive LayoutPart where
  | field (f : DateField)
  /-- The month by its first three letters. -/
  | shortMonth
  /-- The month by its name. -/
  | longMonth
  /-- A mark, in either case. -/
  | mark (c : Char)
  | blanks
  deriving DecidableEq

/-- A form in which a moment may be written. -/
structure Layout where
  parts : List LayoutPart
  /-- The date is missing. -/
  timeOnly : Bool := false
  /-- The year is missing. -/
  yearless : Bool := false
  /-- The number of digits of a fraction of a second at the end. -/
  fraction : Nat := 0
  /-- A `Z` at the end, for universal time. -/
  zulu : Bool := false
  deriving DecidableEq

/-- The numbers read so far. Numbers that are missing have the values of the start of the year. -/
structure DateNumbers where
  year : Nat := 1900
  month : Nat := 1
  day : Nat := 1
  hour : Nat := 0
  minute : Nat := 0
  second : Nat := 0
  deriving DecidableEq, Inhabited

def DateNumbers.set (n : DateNumbers) : DateField → Nat → DateNumbers
  | .year, v => { n with year := v }
  | .month, v => { n with month := v }
  | .day, v => { n with day := v }
  | .hour, v => { n with hour := v }
  | .minute, v => { n with minute := v }
  | .second, v => { n with second := v }

namespace Layout

def anyDigit? : Text → Option (Nat × Text)
  | p :: rest => p.decimal?.map (·, rest)
  | [] => none

/-- An ASCII digit between two bounds. -/
def digitFrom? (low high : Nat) : Text → Option (Nat × Text)
  | p :: rest => (p.asciiDigit?.filter fun d => low ≤ d && d ≤ high).map (·, rest)
  | [] => none

/-- Two digits: an ASCII one between two bounds and one read by `second`. -/
def twoDigits? (low high : Nat) (second : Text → Option (Nat × Text)) (t : Text) :
    Option (Nat × Text) := do
  let (a, t) ← digitFrom? low high t
  let (b, t) ← second t
  some (a * 10 + b, t)

def fourDigits? (t : Text) : Option (Nat × Text) := do
  let (a, t) ← anyDigit? t
  let (b, t) ← anyDigit? t
  let (c, t) ← anyDigit? t
  let (d, t) ← anyDigit? t
  some (a * 1000 + b * 100 + c * 10 + d, t)

def spacedDigit? : Text → Option (Nat × Text)
  | .scalar ' ' :: rest => digitFrom? 1 9 rest
  | _ => none

/-- All ways to read a number of a layout at the front of a text, the preferred one first. -/
def readField (f : DateField) (t : Text) : List (Nat × Text) :=
  match f with
  | .year => [fourDigits? t].filterMap id
  | .month =>
    [twoDigits? 1 1 (digitFrom? 0 2) t, twoDigits? 0 0 (digitFrom? 1 9) t,
      digitFrom? 1 9 t].filterMap
      id
  | .day =>
    [twoDigits? 3 3 (digitFrom? 0 1) t, twoDigits? 1 2 anyDigit? t,
      twoDigits? 0 0 (digitFrom? 1 9) t, digitFrom? 1 9 t, spacedDigit? t].filterMap id
  | .hour =>
    [twoDigits? 2 2 (digitFrom? 0 3) t, twoDigits? 0 1 anyDigit? t, anyDigit? t].filterMap id
  | .minute => [twoDigits? 0 5 anyDigit? t, anyDigit? t].filterMap id
  | .second =>
    [twoDigits? 6 6 (digitFrom? 0 1) t, twoDigits? 0 5 anyDigit? t, anyDigit? t].filterMap id

/-- The month whose name, cut by `form`, stands at the front of a text in any case. -/
def readMonth (form : String → Text) (t : Text) : List (Nat × Text) :=
  Date.monthNames.zipIdx.filterMap fun (name, i) =>
    (Text.dropPrefix? (form name).asciiLower t.asciiLower).map fun _ =>
      (i + 1, t.drop (form name).length)

/-- All ways to take blanks off the front of a text, at least one, as many as possible first. -/
def skipBlanks : Text → List Text
  | [] => []
  | p :: rest => if p.isBlank then skipBlanks rest ++ [rest] else []

/-- A part read at the front of a text, in all ways: what it does to the numbers, and the rest. -/
def readPart (part : LayoutPart) (t : Text) : List ((DateNumbers → DateNumbers) × Text) :=
  match part with
  | .field f => (readField f t).map fun (v, rest) => (fun n => n.set f v, rest)
  | .shortMonth => (readMonth Date.shortName t).map fun (v, rest) => (fun n => n.set .month v, rest)
  | .longMonth => (readMonth Text.ofString t).map fun (v, rest) => (fun n => n.set .month v, rest)
  | .mark c =>
    match t with
    | p :: rest => if p.asciiLower = .scalar c.toLower then [(id, rest)] else []
    | [] => []
  | .blanks => (skipBlanks t).map (id, ·)

/-- Read a row of parts at the front of a text, the first way that succeeds. -/
def readParts? : List LayoutPart → Text → DateNumbers → Option (DateNumbers × Text)
  | [], t, n => some (n, t)
  | part :: parts, t, n =>
    (readPart part t).findSome? fun (set, rest) => readParts? parts rest (set n)

/-- The numbers of a text that is a row of parts from end to end. -/
def readAll? (parts : List LayoutPart) (t : Text) : Option DateNumbers :=
  match readParts? parts t {} with
  | some (n, []) => some n
  | _ => none

/-- The microseconds of a fraction of a second. Digits behind the sixth are dropped. -/
def fractionMicros? (digits : Text) : Option Nat :=
  ((digits.take 6).mapM CodePoint.decimal?).map fun ds =>
    ofDigits 10 (ds ++ List.replicate (6 - ds.length) 0)

/-- Take the fraction of a layout off the end of a text. -/
def takeFraction? (digits : Nat) (t : Text) : Option (Text × Nat) :=
  if digits = 0 then some (t, 0)
  else
    match t.cutLast? (.scalar '.') with
    | some (before, after) =>
      if after.length = digits && after.all CodePoint.isDigit then
        (fractionMicros? after).map (before, ·)
      else none
    | none => none

/-- Take the `Z` of a layout off the end of a text. -/
def takeZulu? (zulu : Bool) (t : Text) : Option Text :=
  if zulu then if t.getLast? = some (.scalar 'Z') then some t.dropLast else none else some t

/-- The parts that a reference moment supplies, and their text. -/
def supplied (l : Layout) (now : Date) : List LayoutPart × Text :=
  if l.timeOnly then
    ([.field .day, .blanks, .field .month, .blanks, .field .year, .blanks],
      Text.ofNatPadded 2 now.day ++ " " ++ Text.ofNatPadded 2 now.month ++ " "
        ++ Text.ofNatPadded 4 now.year ++ " ")
  else if l.yearless then ([.field .year, .blanks], Text.ofNatPadded 4 now.year ++ " ")
  else ([], [])

/-- Read a text in a layout, with a reference moment for what the layout lacks. -/
def read? (l : Layout) (now : Moment) (t : Text) : Option Moment := do
  let t ← takeZulu? l.zulu t
  let (t, micro) ← takeFraction? l.fraction t
  let (parts, front) := l.supplied now.date
  let n ← readAll? (parts ++ l.parts) (front ++ t)
  let date ← Date.of? n.year n.month n.day
  let time ← TimeOfDay.of? n.hour n.minute n.second micro
  some { date, time, zone := if l.zulu then .utc else now.zone, later := false }

def hourMinute : List LayoutPart := [.field .hour, .mark ':', .field .minute]

def hourMinuteSecond : List LayoutPart := hourMinute ++ [.mark ':', .field .second]

def yearMonthDay : List LayoutPart :=
  [.field .year, .mark '-', .field .month, .mark '-', .field .day]

def monthDay (month : LayoutPart) : List LayoutPart := [month, .blanks, .field .day]

/-- Date and time with a `T` between them. -/
def dateT : List LayoutPart := yearMonthDay ++ [.mark 'T'] ++ hourMinuteSecond

/-- Date and time with a blank between them. -/
def dateBlank : List LayoutPart := yearMonthDay ++ [.blanks] ++ hourMinuteSecond

def monthDayTime (month : LayoutPart) : List LayoutPart :=
  monthDay month ++ [.blanks] ++ hourMinuteSecond

/-- A layout with one to ten digits of a fraction, each without and with a `Z`. -/
def withFractions (l : Layout) : List Layout :=
  (List.range 10).flatMap fun i =>
    [{ l with fraction := i + 1 }, { l with fraction := i + 1, zulu := true }]

/-- All layouts, in the order in which they are tried. -/
def table : List Layout :=
  [ { parts := hourMinute, timeOnly := true },
    { parts := hourMinuteSecond, timeOnly := true },
    { parts := hourMinuteSecond, timeOnly := true, fraction := 2 },
    { parts := yearMonthDay ++ [.mark 'T'] ++ hourMinute },
    { parts := dateT },
    { parts := dateT, zulu := true },
    { parts := yearMonthDay ++ [.blanks] ++ hourMinute },
    { parts := dateBlank },
    { parts := monthDay .shortMonth, yearless := true },
    { parts := monthDay .shortMonth ++ [.blanks] ++ hourMinute, yearless := true },
    { parts := monthDayTime .shortMonth, yearless := true },
    { parts := monthDay .longMonth, yearless := true },
    { parts := monthDay .longMonth ++ [.blanks] ++ hourMinute, yearless := true },
    { parts := monthDayTime .longMonth, yearless := true },
    { parts := monthDayTime .longMonth, yearless := true, fraction := 2 },
    { parts := yearMonthDay } ]
    ++ withFractions { parts := dateT }
    ++ withFractions { parts := dateBlank }
    ++ withFractions { parts := monthDayTime .longMonth, yearless := true }
    ++ withFractions { parts := monthDayTime .shortMonth, yearless := true }

end Layout
end LogQuery
