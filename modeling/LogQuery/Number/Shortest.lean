import LogQuery.Number.Binary64
import LogQuery.Text.Basic
/-!
# Shortest decimal forms

A finite number is written with the fewest digits that read back as the same number, and of
those the nearest ones. The reals that read back as `m · 2^e` form an interval around it whose
ends belong to it exactly if `m` is even; `shortestDigits` tries grids of one to seventeen
digits and takes the first that has a point in the interval.

`Binary64.toText` lays the digits out: a point among them for magnitudes from `10^-4` to below
`10^16`, always with a digit after it, and an exponent of at least two digits elsewhere.
-/
namespace LogQuery.Binary64

/-- The interval of a number and the number itself, in quarters of its unit. -/
structure Neighbourhood where
  low : Nat
  centre : Nat
  high : Nat
  /-- The ends belong to the interval. -/
  closed : Bool

/-- The reals that are read as `m · 2^e`. The gap below a power of two is half as wide. -/
def neighbourhood (m : Nat) (e : Int) : Neighbourhood where
  low := 4 * m - (if m = Nat.pow 2 52 ∧ minExponent < e then 1 else 2)
  centre := 4 * m
  high := 4 * m + 2
  closed := m % 2 = 0

/-- A grid of decimals seen from a neighbourhood: `quarters · up` and `points · down` are
measured on one scale. -/
structure Scale where
  up : Nat
  down : Nat

/-- The scale of quarters of `2^e` and multiples of `10^g`. -/
def scale (e g : Int) : Scale where
  up := Nat.pow 2 (e - 2).toNat * Nat.pow 10 (-g).toNat
  down := Nat.pow 10 g.toNat * Nat.pow 2 (2 - e).toNat

/-- Whether a point of the grid lies in the neighbourhood. -/
def holds (nb : Neighbourhood) (s : Scale) (point : Nat) : Bool :=
  let x := point * s.down
  let low := nb.low * s.up
  let high := nb.high * s.up
  if nb.closed then low ≤ x && x ≤ high else low < x && x < high

/-- The point of a grid that lies in the neighbourhood, of two the nearer, of two equally near
the even one. -/
def pointIn? (nb : Neighbourhood) (s : Scale) : Option Nat :=
  let x := nb.centre * s.up
  let below := x / s.down
  let above := below + 1
  let toBelow := x - below * s.down
  let toAbove := above * s.down - x
  match holds nb s below, holds nb s above with
  | true, true =>
    if toBelow < toAbove then some below
    else if toAbove < toBelow then some above
    else some (if below % 2 = 0 then below else above)
  | true, false => some below
  | false, true => some above
  | false, false => none

/-- The greatest `k` with `10^k ≤ m · 2^e`, for a positive `m`. -/
def decimalExponent (m : Nat) (e : Int) : Int :=
  let estimate : Int := (((m.log2 : Int) + e) * 30103).fdiv 100000
  let reaches (k : Int) : Bool :=
    Nat.pow 10 k.toNat * Nat.pow 2 (-e).toNat ≤ m * Nat.pow 2 e.toNat * Nat.pow 10 (-k).toNat
  if reaches (estimate + 1) then estimate + 1
  else if reaches estimate then estimate
  else estimate - 1

def searchGrids (nb : Neighbourhood) (e : Int) : (tries : Nat) → (grid : Int) → Nat × Int
  | 0, g => (0, g)
  | tries + 1, g =>
    match pointIn? nb (scale e g) with
    | some point => (point, g)
    | none => searchGrids nb e tries (g - 1)

/-- Digits and power of ten of the shortest decimal that reads back as `m · 2^e`, for a
positive `m`. -/
def shortestDecimal (m : Nat) (e : Int) : Nat × Int :=
  searchGrids (neighbourhood m e) e 18 (decimalExponent m e)

/-- The digits of a positive number without the zeros at its end, and the place of the point
counted from the first digit. -/
def shortestDigits (m : Nat) (e : Int) : List Char × Int :=
  let (n, g) := shortestDecimal m e
  let digits := Nat.toDigits 10 n
  ((digits.reverse.dropWhile (· = '0')).reverse, g + digits.length)

/-- An exponent of ten: its sign and at least two digits. -/
def exponentText (k : Int) : List Char :=
  let digits := Nat.toDigits 10 k.natAbs
  (if k < 0 then '-' else '+') :: (if digits.length < 2 then '0' :: digits else digits)

/-- Digits with a point at a place counted from the first one, as a numeral. -/
def layDigits (digits : List Char) (point : Int) : List Char :=
  if -4 < point ∧ point ≤ 16 then
    if point ≤ 0 then '0' :: '.' :: (List.replicate point.natAbs '0' ++ digits)
    else
      let whole := digits.take point.toNat ++ List.replicate (point.toNat - digits.length) '0'
      let fraction := digits.drop point.toNat
      whole ++ '.' :: (if fraction = [] then ['0'] else fraction)
  else
    match digits with
    | [] => []
    | d :: ds => d :: ((if ds = [] then [] else '.' :: ds) ++ 'e' :: exponentText (point - 1))

/-- The numeral of a positive number. -/
def magnitudeText (m : Nat) (e : Int) : List Char :=
  if m = 0 then ['0', '.', '0']
  else
    let (digits, point) := shortestDigits m e
    layDigits digits point

/-- The numeral of a number, for which it reads back. -/
def toText : Binary64 → Text
  | nan => "nan"
  | infinite negative => if negative then "-inf" else "inf"
  | finite negative m e =>
    let digits := magnitudeText m e
    Text.ofChars (if negative then '-' :: digits else digits)

end LogQuery.Binary64
