/-!
# Double-precision numbers

The numbers of the 64-bit binary format, as exact data: a finite one is a sign, a mantissa and
a power of two. Every operation computes the exact result in whole numbers and rounds it once,
to nearest, a tie to the even mantissa (`ofRatio`).

A finite number is kept in its one canonical form: the mantissa lies below `2^53`, and it
reaches `2^52` unless the exponent is the least one.
-/
namespace LogQuery

/-- A double-precision number: not a number, an infinity, or `±mantissa · 2^exponent`. -/
inductive Binary64 where
  | nan
  | infinite (negative : Bool)
  | finite (negative : Bool) (mantissa : Nat) (exponent : Int)
  deriving DecidableEq, Inhabited

namespace Binary64

/-- The least exponent of two. -/
def minExponent : Int := -1074

/-- The greatest exponent of two. -/
def maxExponent : Int := 971

/-- Zero of a given sign. -/
def zero (negative : Bool) : Binary64 := finite negative 0 minExponent

/-- A fraction `num / den` measured in units of `2^e`, again as a fraction. -/
def inUnits (num den : Nat) (e : Int) : Nat × Nat :=
  if e < 0 then (num * Nat.pow 2 e.natAbs, den) else (num, den * Nat.pow 2 e.natAbs)

/-- The quotient rounded to nearest, a tie to the even neighbour. -/
def roundDiv (num den : Nat) : Nat :=
  let q := num / den
  let r := num % den
  if 2 * r < den then q
  else if den < 2 * r then q + 1
  else if q % 2 = 0 then q else q + 1

/-- The exponent whose unit gives a positive fraction a mantissa of 53 bits, or the least
exponent where the fraction is too small for that. -/
def unitExponent (num den : Nat) : Int :=
  let e : Int := (num.log2 : Int) - den.log2 - 52
  let (n, d) := inUnits num den e
  max minExponent (if n / d < Nat.pow 2 52 then e - 1 else e)

def ofRatio (negative : Bool) (num den : Nat) : Binary64 :=
  if num = 0 then zero negative
  else
    let e := unitExponent num den
    let (n, d) := inUnits num den e
    let m := roundDiv n d
    let (m, e) := if m = Nat.pow 2 53 then (Nat.pow 2 52, e + 1) else (m, e)
    if maxExponent < e then infinite negative else finite negative m e

/-- The number nearest to `±mantissa · 2^exponent`. -/
def ofDyadic (negative : Bool) (mantissa : Nat) (exponent : Int) : Binary64 :=
  if exponent < 0 then ofRatio negative mantissa (Nat.pow 2 exponent.natAbs)
  else ofRatio negative (mantissa * Nat.pow 2 exponent.natAbs) 1

/-- The number nearest to `±n · 10^exponent`, where `n` has `width` digits. Far outside the range
of the format no power is computed. -/
def ofDecimal (negative : Bool) (n width : Nat) (exponent : Int) : Binary64 :=
  if n = 0 then zero negative
  else if 400 < width + exponent then infinite negative
  else if width + exponent < -400 then zero negative
  else if exponent < 0 then ofRatio negative n (Nat.pow 10 exponent.natAbs)
  else ofRatio negative (n * Nat.pow 10 exponent.natAbs) 1

/-- The number nearest to an integer; there is none beyond the range of the format. -/
def ofInt? (n : Int) : Option Binary64 :=
  if Nat.pow 2 1025 ≤ n.natAbs then none
  else
    match ofRatio (n < 0) n.natAbs 1 with
    | finite s m e => some (finite s m e)
    | _ => none

/-- The same number with the opposite sign. -/
def neg : Binary64 → Binary64
  | nan => nan
  | infinite s => infinite !s
  | finite s m e => finite (!s) m e

/-- Product, rounded to nearest. -/
def mul : Binary64 → Binary64 → Binary64
  | finite s m e, finite s' m' e' => ofDyadic (s != s') (m * m') (e + e')
  | nan, _ => nan
  | _, nan => nan
  | infinite s, infinite s' => infinite (s != s')
  | infinite s, finite s' m _ => if m = 0 then nan else infinite (s != s')
  | finite s m _, infinite s' => if m = 0 then nan else infinite (s != s')

/-- A signed mantissa measured in units of a smaller power of two. -/
def scaled (negative : Bool) (m : Nat) (e unit : Int) : Int :=
  let n : Int := m * Nat.pow 2 (e - unit).toNat
  if negative then -n else n

/-- Sum, rounded to nearest; a sum of opposite numbers is positive zero. -/
def add : Binary64 → Binary64 → Binary64
  | finite s m e, finite s' m' e' =>
    let unit := min e e'
    let sum := scaled s m e unit + scaled s' m' e' unit
    if sum = 0 then zero (s && s') else ofDyadic (sum < 0) sum.natAbs unit
  | nan, _ => nan
  | _, nan => nan
  | infinite s, infinite s' => if s = s' then infinite s else nan
  | infinite s, _ => infinite s
  | _, infinite s => infinite s

/-- The whole part, cut toward zero; infinities and `nan` have none. -/
def truncate? : Binary64 → Option Int
  | finite s m e =>
    let n : Int := if e < 0 then m / Nat.pow 2 e.natAbs else m * Nat.pow 2 e.natAbs
    some (if s then -n else n)
  | _ => none

/-- The integer that a number is equal to. -/
def toInt? : Binary64 → Option Int
  | finite s m e =>
    if e < 0 then
      if m % Nat.pow 2 e.natAbs = 0 then truncate? (finite s m e) else none
    else truncate? (finite s m e)
  | _ => none

end Binary64
end LogQuery
