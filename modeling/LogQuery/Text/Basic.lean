/-!
# Texts

A text is a list of code points. Every Unicode scalar value is a code point, and so is a lone
surrogate: JSON escapes can name one, a program can carry it along, and only writing the text
out as UTF-8 fails on it. `Text.toString?` is that boundary seen from `String`.

The operations here are the ones that know nothing of character classes: cutting at separators,
trimming by a predicate, replacing, joining, and writing numbers in decimal.
-/
namespace LogQuery

/-- One unit of a text: a Unicode scalar value, or a surrogate that has no partner. -/
inductive CodePoint where
  | scalar (c : Char)
  | surrogate (offset : Fin 0x800)
  deriving DecidableEq, Inhabited

namespace CodePoint

/-- The number of a code point; surrogates are numbered from `0xD800`. -/
def code : CodePoint → Nat
  | scalar c => c.toNat
  | surrogate o => 0xD800 + o.val

/-- The code point with a given number, for every number below `0x110000`. -/
def ofNat? (n : Nat) : Option CodePoint :=
  if h : 0xD800 ≤ n ∧ n < 0xE000 then some (surrogate ⟨n - 0xD800, by omega⟩)
  else if n < 0x110000 then some (scalar (Char.ofNat n))
  else none

/-- The code point with a given number, and U+FFFD where there is none. -/
def ofNat (n : Nat) : CodePoint := (ofNat? n).getD (scalar '\ufffd')

/-- Lower-case form of the ASCII letters; every other code point is its own. -/
def asciiLower : CodePoint → CodePoint
  | scalar c => scalar c.toLower
  | s => s

/-- Upper-case form of the ASCII letters; every other code point is its own. -/
def asciiUpper : CodePoint → CodePoint
  | scalar c => scalar c.toUpper
  | s => s

def asciiDigit? : CodePoint → Option Nat
  | scalar c => if '0' ≤ c ∧ c ≤ '9' then some (c.toNat - '0'.toNat) else none
  | surrogate _ => none

def isAsciiDigit (p : CodePoint) : Bool := p.asciiDigit?.isSome

/-- The value of a hexadecimal digit in either case. -/
def hexDigit? : CodePoint → Option Nat
  | scalar c =>
    if '0' ≤ c ∧ c ≤ '9' then some (c.toNat - '0'.toNat)
    else if 'a' ≤ c ∧ c ≤ 'f' then some (c.toNat - 'a'.toNat + 10)
    else if 'A' ≤ c ∧ c ≤ 'F' then some (c.toNat - 'A'.toNat + 10)
    else none
  | surrogate _ => none

def isAsciiLetter : CodePoint → Bool
  | scalar c => ('a' ≤ c ∧ c ≤ 'z') ∨ ('A' ≤ c ∧ c ≤ 'Z')
  | surrogate _ => false

end CodePoint

abbrev Text := List CodePoint

namespace Text

def ofChars (cs : List Char) : Text := cs.map .scalar

def ofString (s : String) : Text := ofChars s.toList

instance : Coe String Text := ⟨ofString⟩
instance : Coe String (List CodePoint) := ⟨ofString⟩

def single (c : Char) : Text := [.scalar c]

/-- The string of a text; there is none when a lone surrogate occurs. -/
def toString? (t : Text) : Option String :=
  (t.mapM fun (p : CodePoint) => match p with
    | CodePoint.scalar c => some c
    | CodePoint.surrogate _ => none).map String.ofList

/-- A text equals a string, code point by code point. -/
def isString (t : Text) (s : String) : Bool := t == ofString s

/-- Lower-case form of the ASCII letters of a text. -/
def asciiLower (t : Text) : Text := t.map CodePoint.asciiLower

/-- Upper-case form of the ASCII letters of a text. -/
def asciiUpper (t : Text) : Text := t.map CodePoint.asciiUpper

/-- Drop the longest suffix whose code points all satisfy `p`. -/
def trimEnd (p : CodePoint → Bool) (t : Text) : Text := (t.reverse.dropWhile p).reverse

/-- Drop the longest prefix and the longest suffix whose code points all satisfy `p`. -/
def trim (p : CodePoint → Bool) (t : Text) : Text := trimEnd p (t.dropWhile p)

/-- The pieces between the occurrences of one code point; there is always at least one. -/
def splitOn (sep : CodePoint) : Text → List Text
  | [] => [[]]
  | p :: rest =>
    match splitOn sep rest with
    | [] => [[p]]
    | piece :: pieces => if p = sep then [] :: piece :: pieces else (p :: piece) :: pieces

/-- The pieces between the occurrences of a pair of code points, found left to right. -/
def splitOnPair (a b : CodePoint) : Text → List Text
  | [] => [[]]
  | [p] => [[p]]
  | p :: q :: rest =>
    if p = a ∧ q = b then [] :: splitOnPair a b rest
    else
      match splitOnPair a b (q :: rest) with
      | [] => [[p]]
      | piece :: pieces => (p :: piece) :: pieces

/-- The text before and after the first occurrence of a pair of code points. -/
def cutPair? (a b : CodePoint) : Text → Option (Text × Text)
  | p :: q :: rest =>
    if p = a ∧ q = b then some ([], rest)
    else (cutPair? a b (q :: rest)).map fun (before, after) => (p :: before, after)
  | _ => none

/-- The text before and after the first occurrence of a code point. -/
def cut? (sep : CodePoint) : Text → Option (Text × Text)
  | [] => none
  | p :: rest =>
    if p = sep then some ([], rest)
    else (cut? sep rest).map fun (before, after) => (p :: before, after)

/-- The text before and after the last occurrence of a code point. -/
def cutLast? (sep : CodePoint) : Text → Option (Text × Text)
  | [] => none
  | p :: rest =>
    match cutLast? sep rest with
    | some (before, after) => some (p :: before, after)
    | none => if p = sep then some ([], rest) else none

/-- The rest of a text behind a prefix it starts with. -/
def dropPrefix? : Text → Text → Option Text
  | [], t => some t
  | _ :: _, [] => none
  | a :: as, b :: bs => if a = b then dropPrefix? as bs else none

/-- Concatenate texts with a separator between neighbours. -/
def join (sep : Text) (pieces : List Text) : Text := sep.intercalate pieces

/-- The decimal digits of a natural number, without leading zeros. -/
def ofNat (n : Nat) : Text := ofChars (Nat.toDigits 10 n)

/-- The decimal digits of an integer, a minus sign in front of the negative ones. -/
def ofInt (n : Int) : Text :=
  if n < 0 then .scalar '-' :: ofNat n.natAbs else ofNat n.natAbs

/-- The decimal digits of a natural number, filled up on the left to a given width. -/
def padLeft (fill : Char) (width : Nat) (t : Text) : Text :=
  List.replicate (width - t.length) (.scalar fill) ++ t

/-- The decimal digits of a natural number with zeros in front up to a given width. -/
def ofNatPadded (width n : Nat) : Text := padLeft '0' width (ofNat n)

/-- The lower-case hexadecimal digits of a number with zeros in front up to a given width. -/
def ofNatHex (width n : Nat) : Text := padLeft '0' width (ofChars (Nat.toDigits 16 n))

/-- Order of texts by the numbers of their code points. -/
def le : Text → Text → Bool
  | [], _ => true
  | _ :: _, [] => false
  | a :: as, b :: bs => a.code < b.code || (a.code == b.code && le as bs)

/-- Place of an entry in a list of keyed entries kept in order of first insertion. -/
def lookup? {α : Type} (key : Text) : List (Text × α) → Option α
  | [] => none
  | (k, v) :: rest => if k = key then some v else lookup? key rest

/-- Insert into a list of keyed entries: a key that is there keeps its place and gets the new
value, any other goes to the end. -/
def insert {α : Type} (key : Text) (value : α) : List (Text × α) → List (Text × α)
  | [] => [(key, value)]
  | (k, v) :: rest => if k = key then (k, value) :: rest else (k, v) :: insert key value rest

/-- The entries of a list of pairs, read left to right: first place, last value. -/
def ofPairs {α : Type} (pairs : List (Text × α)) : List (Text × α) :=
  pairs.foldl (fun entries (k, v) => insert k v entries) []

end Text
end LogQuery
