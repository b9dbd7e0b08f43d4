import LogQuery.Config.Error
/-!
# Base 64

Byte strings as text: three bytes become four characters of six bits each, and equals signs fill
up the last group. `encode` writes the standard form. `decode` reads strictly, as far as characters
are concerned; `decodeLenient` ignores every character that is none of the sixty-four.
-/
namespace LogQuery.Base64

/-- The sixty-four characters, by their value. -/
def alphabet : List Char :=
  "ABCDEFGHIJKLMNOPQRSTUVWXYZabcdefghijklmnopqrstuvwxyz0123456789+/".toList

/-- The character of six bits. -/
def digit (n : Nat) : CodePoint := .scalar (alphabet.getD n '=')

/-- The six bits of a character. -/
def digit? (p : CodePoint) : Option Nat := (alphabet.map CodePoint.scalar).idxOf? p

/-- The sign that fills up the last group. -/
def pad : CodePoint := .scalar '='

def encode : Bytes → Text
  | [] => []
  | [a] => [digit (a.toNat / 4), digit (a.toNat % 4 * 16), pad, pad]
  | [a, b] =>
    [digit (a.toNat / 4), digit (a.toNat % 4 * 16 + b.toNat / 16), digit (b.toNat % 16 * 4), pad]
  | a :: b :: c :: rest =>
    digit (a.toNat / 4) :: digit (a.toNat % 4 * 16 + b.toNat / 16)
      :: digit (b.toNat % 16 * 4 + c.toNat / 64) :: digit (c.toNat % 64) :: encode rest

/-- What a reader has of the group it is in: how many characters, the bits that are not yet part
of a byte, and how many equals signs in a row. -/
structure Group where
  characters : Nat := 0
  bits : Nat := 0
  pads : Nat := 0

/-- The group after one more character, and the byte that is complete with it. -/
def Group.add (g : Group) (value : Nat) : Option UInt8 × Group :=
  match g.characters with
  | 0 => (none, { characters := 1, bits := value })
  | 1 => (some (UInt8.ofNat (g.bits * 4 + value / 16)), { characters := 2, bits := value % 16 })
  | 2 => (some (UInt8.ofNat (g.bits * 16 + value / 4)), { characters := 3, bits := value % 4 })
  | _ => (some (UInt8.ofNat (g.bits * 64 + value)), {})

/-- Read on with a group begun and `count` bytes complete. -/
def decodeFrom (strict : Bool) : (count : Nat) → (padded : Bool) → Group → Text →
    Except Base64Error Bytes
  | count, _, g, [] =>
    match g.characters with
    | 0 => .ok []
    | 1 => .error (.strayCharacter (count / 3 * 4 + 1))
    | _ => .error .incorrectPadding
  | count, padded, g, p :: rest =>
    if p = pad then
      if 2 ≤ g.characters then
        if 4 ≤ g.characters + g.pads + 1 then
          if strict && !rest.isEmpty then .error .excessData else .ok []
        else decodeFrom strict count true { g with pads := g.pads + 1 } rest
      else decodeFrom strict count true g rest
    else
      match digit? p with
      | none => if strict then .error .foreignCharacter else decodeFrom strict count padded g rest
      | some value =>
        if strict && padded then .error .discontinuousPadding
        else
          match g.add value with
          | (some byte, g) => (decodeFrom strict (count + 1) padded g rest).map (byte :: ·)
          | (none, g) => decodeFrom strict count padded g rest

/-- The byte string of a text in which nothing else occurs. -/
def decode (t : Text) : Except Base64Error Bytes :=
  if t.head? = some pad then .error .leadingPadding else decodeFrom true 0 false {} t

/-- The byte string of a text in which other characters do not count. -/
def decodeLenient (t : Text) : Except Base64Error Bytes := decodeFrom false 0 false {} t

end LogQuery.Base64
