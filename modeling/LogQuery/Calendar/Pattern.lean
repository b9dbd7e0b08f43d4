import LogQuery.Calendar.Iso
/-!
# Date patterns

Writing a moment by a pattern of percent directives, such as `%Y-%m-%d %H:%M`, with English names.
A directive may carry flags (`_`, `-`, `0` choose the padding, `^` and `#` the case), a least width
and one of the modifiers `E` and `O`. A directive that means nothing is written as it stands.
-/
namespace LogQuery.Pattern

/-- How a directive asks to be written. -/
structure Style where
  /-- One of `_`, `-` and `0`. -/
  pad : Option Char := none
  upper : Bool := false
  swapCase : Bool := false
  width : Nat := 0
  /-- One of `E` and `O`. -/
  modifier : Option Char := none
  deriving Inhabited

/-- A directive: its style, its letter, and its own spelling. -/
structure Directive where
  style : Style
  letter : CodePoint
  spelling : Text

/-- A piece of a pattern. -/
inductive Piece where
  | plain (p : CodePoint)
  | directive (d : Directive)
  /-- A directive that the end of the pattern cuts off. -/
  | cut (style : Style) (spelling : Text)

/-- What a reader of patterns is in the middle of. -/
inductive Stage where
  | outside
  | flags (style : Style) (spelling : Text)
  | width (style : Style) (spelling : Text)
  | letter (style : Style) (spelling : Text)

/-- The style after one more flag, if the code point is one. -/
def Style.flag? (s : Style) : CodePoint → Option Style
  | .scalar '_' => some { s with pad := some '_' }
  | .scalar '-' => some { s with pad := some '-' }
  | .scalar '0' => some { s with pad := some '0' }
  | .scalar '^' => some { s with upper := true }
  | .scalar '#' => some { s with swapCase := true }
  | _ => none

/-- The style after a modifier, if the code point is one. -/
def Style.modifier? (s : Style) : CodePoint → Option Style
  | .scalar 'E' => some { s with modifier := some 'E' }
  | .scalar 'O' => some { s with modifier := some 'O' }
  | _ => none

/-- Read a pattern; what was read of a directive so far is kept as its spelling. -/
def readFrom : Stage → Text → List Piece
  | .outside, [] => []
  | .flags style spelling, [] => [.cut style spelling]
  | .width style spelling, [] => [.cut style spelling]
  | .letter style spelling, [] => [.cut style spelling]
  | .outside, p :: rest =>
    if p = .scalar '%' then readFrom (.flags {} [p]) rest else .plain p :: readFrom .outside rest
  | .flags style spelling, p :: rest =>
    let spelling := spelling ++ [p]
    match style.flag? p, p.asciiDigit?, style.modifier? p with
    | some style, _, _ => readFrom (.flags style spelling) rest
    | _, some d, _ => readFrom (.width { style with width := d } spelling) rest
    | _, _, some style => readFrom (.letter style spelling) rest
    | _, _, _ => .directive ⟨style, p, spelling⟩ :: readFrom .outside rest
  | .width style spelling, p :: rest =>
    let spelling := spelling ++ [p]
    match p.asciiDigit?, style.modifier? p with
    | some d, _ => readFrom (.width { style with width := style.width * 10 + d } spelling) rest
    | _, some style => readFrom (.letter style spelling) rest
    | _, _ => .directive ⟨style, p, spelling⟩ :: readFrom .outside rest
  | .letter style spelling, p :: rest =>
    .directive ⟨style, p, spelling ++ [p]⟩ :: readFrom .outside rest

def read (t : Text) : List Piece := readFrom .outside t

/-- Fill a text up on the left to the width of its style. -/
def padded (s : Style) (t : Text) : Text :=
  Text.padLeft (if s.pad = some '0' then '0' else ' ') s.width t

/-- A number of at least `digits` digits, filled up with zeros unless the style says otherwise. -/
def number (s : Style) (digits n : Nat) : Text :=
  match s.pad with
  | some '-' => padded s (Text.ofNat n)
  | some '_' => Text.padLeft ' ' (max digits s.width) (Text.ofNat n)
  | _ => Text.padLeft '0' (max digits s.width) (Text.ofNat n)

/-- A number that is filled up with blanks unless the style says otherwise. -/
def blankNumber (s : Style) (digits n : Nat) : Text :=
  number (if s.pad.isNone then { s with pad := some '_' } else s) digits n

/-- A name, in capitals on demand. -/
def name (s : Style) (t : Text) : Text :=
  padded s (if s.upper || s.swapCase then t.asciiUpper else t)

def hour12 (hour : Nat) : Nat := (hour + 11) % 12 + 1

def fromSunday (d : Date) : Nat := (d.weekday + 1) % 7

/-- The week of the year when weeks begin on the day counted as 0 of the week. -/
def weekOfYear (d : Date) (dayOfWeek : Nat) : Nat := (d.dayOfYear - 1 + 7 - dayOfWeek) / 7

/-- The weeks of an international year, numbered from 1: the week of a date belongs to the year
of its Thursday. -/
def isoWeek (d : Date) : Nat × Nat :=
  let thursday : Int := d.ordinal + 3 - d.weekday
  if thursday ≤ 0 then (0, 52)
  else
    let day := (thursday - 1).toNat
    let (year, dayOfYear) := Date.yearOfDay day
    (year + 1, dayOfYear / 7 + 1)

/-- Before or after noon. -/
def halfDay (s : Style) (lower : Bool) (hour : Nat) : Text :=
  let t : Text := if hour < 12 then "AM" else "PM"
  padded s (if lower || s.swapCase then t.asciiLower else t)

def monthName (d : Date) : String := Date.monthNames.getD (d.month - 1) ""

def weekdayName (d : Date) : String := Date.weekdayNames.getD d.weekday ""

def monthDayYear (d : Date) : Text :=
  Text.ofNatPadded 2 d.month ++ "/" ++ Text.ofNatPadded 2 d.day ++ "/"
    ++ Text.ofNatPadded 2 (d.year % 100)

/-- The letters that a modifier makes meaningless. -/
def refuses (modifier : Char) : String :=
  if modifier = 'E' then "aAbBdDeFgGhHIjklmMSUVwW" else "aAcDFxXY"

/-- Whether a directive is without meaning because of its modifier. -/
def isRefused (d : Directive) : Bool :=
  match d.style.modifier with
  | some m => (Text.ofString (refuses m)).contains d.letter
  | none => false

/-- A directive without meaning. -/
def asItStands (s : Style) (spelling : Text) : Text :=
  padded s (if s.upper then spelling.asciiUpper else spelling)

/-- A directive whose modifier took its meaning; the name of a month still heeds `#`. -/
def refused (d : Directive) : Text :=
  let month := ("bBh" : Text).contains d.letter
  asItStands
    (if month then { d.style with upper := d.style.upper || d.style.swapCase } else d.style)
    d.spelling

section

variable [ZoneDatabase]

/-- The offset of a moment without separators. -/
def offset (m : Moment) : Text := Zone.offsetText "" m.offset

/-- Whether a moment is one in summer, where its zone is a region and so this is known. -/
def isSummer? (m : Moment) : Option Bool := m.zone.isSummerAt? m.later m.wallSeconds

/-- Seconds since 1970 at a moment if it is read on the clock of the machine. -/
def machineSeconds (m : Moment) : Int :=
  ZoneDatabase.machine.secondsAt (isSummer? m) (m.wallSeconds - Moment.epoch / 1000000)

/-- The text of a directive for a moment; there is none for a directive without meaning. A directive for
the zone that carries flags or a width is about the clock of the machine, and only where it is known
whether it is summer. -/
def directive? (m : Moment) (d : Directive) : Option Text :=
  let s := d.style
  let date := m.date
  let time := m.time
  match d.letter with
  | .scalar '%' => some (padded s "%")
  | .scalar 'n' => some (padded s "\n")
  | .scalar 't' => some (padded s "\t")
  | .scalar 'a' => some (name s (Date.shortName (weekdayName date)))
  | .scalar 'A' => some (name s (weekdayName date))
  | .scalar 'b' | .scalar 'h' => some (name s (Date.shortName (monthName date)))
  | .scalar 'B' => some (name s (monthName date))
  | .scalar 'c' =>
    let t := Date.shortName (weekdayName date) ++ " " ++ Date.shortName (monthName date) ++ " "
      ++ Text.padLeft ' ' 2 (Text.ofNat date.day) ++ " " ++ time.toText ++ " "
      ++ Text.ofNat date.year
    some (padded s (if s.upper then t.asciiUpper else t))
  | .scalar 'C' => some (number s 1 (date.year / 100))
  | .scalar 'D' | .scalar 'x' => some (padded s (monthDayYear date))
  | .scalar 'd' => some (number s 2 date.day)
  | .scalar 'e' => some (blankNumber s 2 date.day)
  | .scalar 'F' =>
    some (padded s (Text.ofNat date.year ++ "-" ++ Text.ofNatPadded 2 date.month ++ "-"
      ++ Text.ofNatPadded 2 date.day))
  | .scalar 'G' => some (number s 1 (isoWeek date).1)
  | .scalar 'g' => some (number s 2 ((isoWeek date).1 % 100))
  | .scalar 'H' => some (number s 2 time.hour)
  | .scalar 'I' => some (number s 2 (hour12 time.hour))
  | .scalar 'j' => some (number s 3 date.dayOfYear)
  | .scalar 'k' => some (blankNumber s 2 time.hour)
  | .scalar 'l' => some (blankNumber s 2 (hour12 time.hour))
  | .scalar 'M' => some (number s 2 time.minute)
  | .scalar 'm' => some (number s 2 date.month)
  | .scalar 'P' => some (halfDay s true time.hour)
  | .scalar 'p' => some (halfDay s false time.hour)
  | .scalar 'R' =>
    some (padded s (Text.ofNatPadded 2 time.hour ++ ":" ++ Text.ofNatPadded 2 time.minute))
  | .scalar 'r' =>
    some (padded s (Text.ofNatPadded 2 (hour12 time.hour) ++ ":" ++ Text.ofNatPadded 2 time.minute
      ++ ":" ++ Text.ofNatPadded 2 time.second ++ " " ++ halfDay {} false time.hour))
  | .scalar 'S' => some (number s 2 time.second)
  | .scalar 's' => some (padded s (Text.ofInt (machineSeconds m)))
  | .scalar 'T' | .scalar 'X' => some (padded s time.toText)
  | .scalar 'U' => some (number s 2 (weekOfYear date (fromSunday date)))
  | .scalar 'u' => some (number s 1 (date.weekday + 1))
  | .scalar 'V' => some (number s 2 (isoWeek date).2)
  | .scalar 'W' => some (number s 2 (weekOfYear date date.weekday))
  | .scalar 'w' => some (number s 1 (fromSunday date))
  | .scalar 'Y' => some (number s 1 date.year)
  | .scalar 'y' => some (number s 2 (date.year % 100))
  | .scalar 'Z' =>
    let t := (isSummer? m).elim [] ZoneDatabase.machine.seasonName
    some (if s.pad = some '-' then t else padded s t)
  | .scalar 'z' => some (if (isSummer? m).isSome then padded s "+" ++ number s 4 0 else [])
  | _ => none

def piece (m : Moment) : Piece → Text
  | .plain p => [p]
  | .cut style spelling => asItStands style spelling
  | .directive d =>
    if isRefused d then refused d
    else (directive? m d).getD (asItStands d.style d.spelling)

/-- Fill in what belongs to a moment and not to its date and time: the offset, the name of the
zone, and the microseconds. These three directives take no flags. -/
def fill (m : Moment) : Text → Text
  | .scalar '%' :: .scalar 'z' :: rest => offset m ++ fill m rest
  | .scalar '%' :: .scalar 'Z' :: rest =>
    m.zone.abbreviation m.later m.wallSeconds ++ fill m rest
  | .scalar '%' :: .scalar 'f' :: rest => Text.ofNatPadded 6 m.time.micro ++ fill m rest
  | .scalar '%' :: p :: rest => .scalar '%' :: p :: fill m rest
  | p :: rest => p :: fill m rest
  | [] => []

/-- Write a moment by a pattern; a pattern ends at its first null character. -/
def write (pattern : Text) (m : Moment) : Text :=
  (read (fill m (pattern.takeWhile (· ≠ .scalar '\x00')))).flatMap (piece m)

end

end LogQuery.Pattern
