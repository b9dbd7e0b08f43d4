import LogQuery.Calendar.Moment
import LogQuery.Number.Decimal
/-!
# International date and time notation

`2021-07-14T10:00:00+02:00`: the printed form of a moment to the second or to the microsecond, and
a reader of the complete form with an offset.
-/
namespace LogQuery

def Date.toText (d : Date) : Text :=
  Text.ofNatPadded 4 d.year ++ "-" ++ Text.ofNatPadded 2 d.month ++ "-" ++ Text.ofNatPadded 2 d.day

def TimeOfDay.toText (t : TimeOfDay) : Text :=
  Text.ofNatPadded 2 t.hour ++ ":" ++ Text.ofNatPadded 2 t.minute ++ ":"
    ++ Text.ofNatPadded 2 t.second

def TimeOfDay.toMicroText (t : TimeOfDay) : Text := t.toText ++ "." ++ Text.ofNatPadded 6 t.micro

namespace Moment

variable [ZoneDatabase]

def toText (m : Moment) : Text :=
  m.date.toText ++ "T" ++ m.time.toText ++ Zone.offsetText ":" m.offset

def toMicroText (m : Moment) : Text :=
  m.date.toText ++ "T" ++ m.time.toMicroText ++ Zone.offsetText ":" m.offset

end Moment

namespace Iso

/-- A number of exactly `width` digits at the front of a text. -/
def number? (width : Nat) (t : Text) : Option (Nat × Text) :=
  let digits := (t.take width).filterMap CodePoint.asciiDigit?
  if digits.length = width then some (ofDigits 10 digits, t.drop width) else none

/-- The rest of a text behind one of some code points. -/
def skip? (marks : Text) : Text → Option Text
  | p :: rest => if marks.contains p then some rest else none
  | [] => none

/-- The digits behind a point as microseconds; no point is no fraction. -/
def micros (t : Text) : Nat × Text :=
  match t with
  | .scalar '.' :: rest =>
    let (digits, rest) := Decimal.digits rest
    (ofDigits 10 ((digits ++ List.replicate 6 0).take 6), rest)
  | _ => (0, t)

/-- Hours and minutes, and seconds behind a colon, of an offset. -/
def clock? (t : Text) : Option (Nat × Text) := do
  let (h, t) ← number? 2 t
  let t := (skip? ":" t).getD t
  let (m, t) ← number? 2 t
  match (skip? ":" t).bind (number? 2) with
  | some (s, t) => some (h * 3600 + m * 60 + s, t)
  | none => some (h * 3600 + m * 60, t)

/-- An offset from universal time at the end of a text. -/
def offset? : Text → Option Int
  | [.scalar 'Z'] => some 0
  | .scalar '+' :: t => match clock? t with
    | some (n, []) => some n
    | _ => none
  | .scalar '-' :: t => match clock? t with
    | some (n, []) => some (-(n : Int))
    | _ => none
  | _ => none

/-- Read a moment with an offset; seconds may be left out. A zone at a fixed offset is made for it, which
`object` tells from others. -/
def moment? (t : Text) (object : Nat) : Option Moment := do
  let (year, t) ← number? 4 t
  let t ← skip? "-" t
  let (month, t) ← number? 2 t
  let t ← skip? "-" t
  let (day, t) ← number? 2 t
  let t ← skip? "T " t
  let (hour, t) ← number? 2 t
  let t ← skip? ":" t
  let (minute, t) ← number? 2 t
  let (second, t) := match (skip? ":" t).bind (number? 2) with
    | some (second, t) => (second, t)
    | none => (0, t)
  let (micro, t) := micros t
  let offset ← offset? t
  let date ← Date.of? year month day
  let time ← TimeOfDay.of? hour minute second micro
  some { date, time, zone := Zone.ofOffset offset object, later := false }

end Iso
end LogQuery
