import LogQuery.Text.Basic
/-!
# UTF-8

Writing a text as bytes, which fails only on a lone surrogate, and reading bytes back. A reader
reports where it stopped and why, counting the bytes of the longest prefix that still could
have begun a code point as the faulty ones.

`decode` comes in three strengths: `strict` refuses surrogates, `withSurrogates` reads the three
bytes of a lone surrogate as that surrogate, and `replacing` puts U+FFFD for each faulty run.
-/
namespace LogQuery

abbrev Bytes := List UInt8

/-- Why a byte string is no text in some encoding, and which bytes show it. -/
structure UndecodableBytes where
  /-- Name of the encoding. -/
  encoding : String
  /-- The first faulty byte and its place. -/
  first : UInt8
  start : Nat
  /-- How many bytes are faulty. -/
  count : Nat
  reason : String
  deriving DecidableEq

namespace UndecodableBytes

/-- The report of undecodable bytes, places counted from zero. -/
def message (e : UndecodableBytes) : Text :=
  let head := "'" ++ Text.ofString e.encoding ++ "' codec can't decode "
  let place := if e.count = 1
    then "byte 0x" ++ Text.ofNatHex 2 e.first.toNat ++ " in position " ++ Text.ofNat e.start
    else "bytes in position " ++ Text.ofNat e.start ++ "-" ++ Text.ofNat (e.start + e.count - 1)
  head ++ place ++ ": " ++ Text.ofString e.reason

end UndecodableBytes

namespace Utf8

/-- The bytes of a code point number below `0x110000`. -/
def encodeNumber (n : Nat) : Bytes :=
  if n < 0x80 then [UInt8.ofNat n]
  else if n < 0x800 then [UInt8.ofNat (0xc0 + n / 0x40), UInt8.ofNat (0x80 + n % 0x40)]
  else if n < 0x10000 then
    [UInt8.ofNat (0xe0 + n / 0x1000), UInt8.ofNat (0x80 + n / 0x40 % 0x40),
      UInt8.ofNat (0x80 + n % 0x40)]
  else
    [UInt8.ofNat (0xf0 + n / 0x40000), UInt8.ofNat (0x80 + n / 0x1000 % 0x40),
      UInt8.ofNat (0x80 + n / 0x40 % 0x40), UInt8.ofNat (0x80 + n % 0x40)]

/-- The bytes of a text; there are none when a lone surrogate occurs. -/
def encode? : Text → Option Bytes
  | [] => some []
  | .scalar c :: rest => (encode? rest).map (encodeNumber c.toNat ++ ·)
  | .surrogate _ :: _ => none

def isContinuation (b : UInt8) : Bool := b &&& 0xc0 == 0x80

/-- What the front of a byte string is: a code point of some bytes, or some faulty bytes. -/
inductive Front where
  | point (number length : Nat)
  | faulty (length : Nat) (reason : String)

/-- A byte that cannot begin a code point. -/
def Front.invalidStart : Front := .faulty 1 "invalid start byte"

/-- A continuation byte that is missing or wrong after `length` good bytes. -/
def Front.invalidContinuation (length : Nat) : Front := .faulty length "invalid continuation byte"

/-- The bytes end inside a code point. -/
def Front.truncated (length : Nat) : Front := .faulty length "unexpected end of data"

/-- The payload of a continuation byte. -/
def payload (b : UInt8) : Nat := b.toNat % 0x40

/-- Whether the second byte of three is in range; surrogates are let through on demand. -/
def secondOfThree (surrogates : Bool) (b0 b1 : UInt8) : Bool :=
  isContinuation b1 && (if b0 == 0xe0 then 0xa0 ≤ b1
    else if b0 == 0xed then surrogates || b1 < 0xa0 else true)

/-- Whether the second byte of four is in range. -/
def secondOfFour (b0 b1 : UInt8) : Bool :=
  isContinuation b1 && (if b0 == 0xf0 then 0x90 ≤ b1 else if b0 == 0xf4 then b1 < 0x90 else true)

/-- The front of a byte string that begins with `b0`. -/
def front (surrogates : Bool) (b0 : UInt8) (rest : Bytes) : Front :=
  if b0 < 0x80 then .point b0.toNat 1
  else if b0 < 0xc2 then .invalidStart
  else if b0 < 0xe0 then
    match rest with
    | [] => .truncated 1
    | b1 :: _ =>
      if isContinuation b1 then .point ((b0.toNat - 0xc0) * 0x40 + payload b1) 2
      else .invalidContinuation 1
  else if b0 < 0xf0 then
    match rest with
    | [] => .truncated 1
    | [b1] => if secondOfThree false b0 b1 then .truncated 2 else .invalidContinuation 1
    | b1 :: b2 :: _ =>
      if !secondOfThree surrogates b0 b1 then .invalidContinuation 1
      else if !isContinuation b2 then
        .invalidContinuation (if secondOfThree false b0 b1 then 2 else 1)
      else .point ((b0.toNat - 0xe0) * 0x1000 + payload b1 * 0x40 + payload b2) 3
  else if b0 < 0xf5 then
    match rest with
    | [] => .truncated 1
    | [b1] => if secondOfFour b0 b1 then .truncated 2 else .invalidContinuation 1
    | [b1, b2] =>
      if !secondOfFour b0 b1 then .invalidContinuation 1
      else if isContinuation b2 then .truncated 3 else .invalidContinuation 2
    | b1 :: b2 :: b3 :: _ =>
      if !secondOfFour b0 b1 then .invalidContinuation 1
      else if !isContinuation b2 then .invalidContinuation 2
      else if !isContinuation b3 then .invalidContinuation 3
      else .point ((b0.toNat - 0xf0) * 0x40000 + payload b1 * 0x1000 + payload b2 * 0x40
        + payload b3) 4
  else .invalidStart

/-- Read a byte string, `skip` bytes of whose front are already accounted for. -/
def decodeFrom (surrogates : Bool) : (place skip : Nat) → Bytes → Except UndecodableBytes Text
  | _, _, [] => .ok []
  | place, skip + 1, _ :: rest => decodeFrom surrogates (place + 1) skip rest
  | place, 0, b :: rest =>
    match front surrogates b rest with
    | .point number length => do
      let tail ← decodeFrom surrogates (place + 1) (length - 1) rest
      .ok (CodePoint.ofNat number :: tail)
    | .faulty count reason =>
      .error { encoding := "utf-8", first := b, start := place, count, reason }

/-- Read UTF-8, refusing surrogates. -/
def strict (bytes : Bytes) : Except UndecodableBytes Text := decodeFrom false 0 0 bytes

/-- Read UTF-8 in which lone surrogates may be spelled out. -/
def withSurrogates (bytes : Bytes) : Except UndecodableBytes Text := decodeFrom true 0 0 bytes

/-- Read UTF-8 with `skip` bytes accounted for, putting U+FFFD for every faulty run. -/
def replacingFrom : (skip : Nat) → Bytes → Text
  | _, [] => []
  | skip + 1, _ :: rest => replacingFrom skip rest
  | 0, b :: rest =>
    match front false b rest with
    | .point number length => CodePoint.ofNat number :: replacingFrom (length - 1) rest
    | .faulty count _ => .scalar '\ufffd' :: replacingFrom (count - 1) rest

/-- Read any byte string, putting U+FFFD for every faulty run. -/
def replacing (bytes : Bytes) : Text := replacingFrom 0 bytes

end Utf8
end LogQuery
