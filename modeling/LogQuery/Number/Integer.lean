import LogQuery.Text.Quoted
/-!
# Integer numerals

Reading an integer from a text that a person wrote: blanks around it, a sign, digits of any
script, and single underscores between digits. In base two, eight or sixteen the usual `0b`,
`0o` or `0x` may stand in front.

A decimal numeral may have at most `maxDigits` digits, so that one hostile numeral cannot stall
the program; writing an integer observes the same limit.
-/
namespace LogQuery

/-- The number named by a list of digits, most significant first. -/
def ofDigits (base : Nat) (digits : List Nat) : Nat :=
  digits.foldl (fun n d => n * base + d) 0

namespace CodePoint

/-- White space around a numeral; the four separator controls do not count. -/
def isNumeralBlank (p : CodePoint) : Bool :=
  p.isBlank && !(0x1c ≤ p.code && p.code ≤ 0x1f)

/-- A decimal digit of any script as the ASCII digit of the same value. -/
def plainDigit (p : CodePoint) : CodePoint :=
  match p.decimal? with
  | some d => .scalar (Char.ofNat ('0'.toNat + d))
  | none => p

/-- The value of a digit in a base up to sixteen. -/
def digitIn? (base : Nat) (p : CodePoint) : Option Nat := p.hexDigit?.filter (· < base)

end CodePoint

/-- A numeral without the blanks around it, its digits in ASCII. -/
def Text.plainNumeral (t : Text) : Text :=
  (t.trim CodePoint.isNumeralBlank).map CodePoint.plainDigit

/-- Why a text is not an integer. -/
inductive IntegerError where
  | malformed (base : Nat) (text : Text)
  | tooLong (digits : Nat)
  deriving DecidableEq

namespace Integer

/-- The most digits a decimal numeral may have. -/
def maxDigits : Nat := 4300

/-- A sign in front of a numeral: whether it is a minus, and the rest. -/
def readSign : Text → Bool × Text
  | .scalar '-' :: rest => (true, rest)
  | .scalar '+' :: rest => (false, rest)
  | t => (false, t)

/-- The longest run of digits, each of which may have one underscore in front; and the rest. -/
def digitRun (base : Nat) : Text → List Nat × Text
  | [] => ([], [])
  | [p] =>
    match p.digitIn? base with
    | some d => ([d], [])
    | none => ([], [p])
  | p :: q :: rest =>
    match p.digitIn? base with
    | some d => let (ds, tail) := digitRun base (q :: rest); (d :: ds, tail)
    | none =>
      if p = .scalar '_' then
        match q.digitIn? base with
        | some d => let (ds, tail) := digitRun base rest; (d :: ds, tail)
        | none => ([], p :: q :: rest)
      else ([], p :: q :: rest)

/-- The letter that announces a base, in both cases. -/
def announces (base : Nat) (p : CodePoint) : Bool :=
  match base with
  | 2 => p = .scalar 'b' ∨ p = .scalar 'B'
  | 8 => p = .scalar 'o' ∨ p = .scalar 'O'
  | 16 => p = .scalar 'x' ∨ p = .scalar 'X'
  | _ => false

/-- The digits at the front of an unsigned numeral; a leading underscore needs `0b` and its
like in front of it. -/
def readDigits (base : Nat) : Text → List Nat × Text
  | .scalar '0' :: p :: rest =>
    if announces base p then digitRun base rest else digitRun base (.scalar '0' :: p :: rest)
  | .scalar '_' :: rest => ([], .scalar '_' :: rest)
  | t => digitRun base t

/-- Read a text as an integer in the given base, at most sixteen. -/
def read (base : Nat) (t : Text) : Except IntegerError Int :=
  let (negative, unsigned) := readSign t.plainNumeral
  let (digits, rest) := readDigits base unsigned
  if digits = [] ∨ rest.head? = some (.scalar '_') then .error (.malformed base t)
  else if base = 10 ∧ maxDigits < digits.length then .error (.tooLong digits.length)
  else if rest ≠ [] then .error (.malformed base t)
  else
    let n : Int := ofDigits base digits
    .ok (if negative then -n else n)

/-- An integer that can be written in decimal. -/
def isWritable (n : Int) : Bool := n.natAbs < Nat.pow 10 maxDigits

end Integer

namespace IntegerError

/-- The report of a text that is no integer; a long text is cut. -/
def message : IntegerError → Text
  | malformed base t =>
    "invalid literal for int() with base " ++ Text.ofNat base ++ ": " ++ t.quoted.take 200
  | tooLong digits =>
    "Exceeds the limit (" ++ Text.ofNat Integer.maxDigits
      ++ " digits) for integer string conversion: value has " ++ Text.ofNat digits
      ++ " digits; use sys.set_int_max_str_digits() to increase the limit"

end IntegerError
end LogQuery
