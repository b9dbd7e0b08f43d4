import LogQuery.Text.Utf8
/-!
# UTF-16 and UTF-32

Reading the encodings by units of two and four bytes, in either byte order. A surrogate without a
partner is read as that surrogate.
-/
namespace LogQuery

/-- The order of the bytes of a unit. -/
inductive ByteOrder where
  | bigEndian
  | littleEndian
  deriving DecidableEq

def ByteOrder.encodingName (o : ByteOrder) (encoding : String) : String :=
  encoding ++ match o with
    | .bigEndian => "-be"
    | .littleEndian => "-le"

def ByteOrder.number (o : ByteOrder) (bytes : List UInt8) : Nat :=
  let ordered := match o with
    | .bigEndian => bytes
    | .littleEndian => bytes.reverse
  ordered.foldl (fun n b => n * 256 + b.toNat) 0

namespace Utf16

/-- A unit that begins a pair. -/
def isHigh (n : Nat) : Bool := 0xd800 ≤ n && n < 0xdc00

/-- A unit that ends a pair. -/
def isLow (n : Nat) : Bool := 0xdc00 ≤ n && n < 0xe000

def join (high low : Nat) : CodePoint :=
  CodePoint.ofNat (0x10000 + (high - 0xd800) * 0x400 + (low - 0xdc00))

def ofUnits : List Nat → Text
  | [] => []
  | [n] => [CodePoint.ofNat n]
  | m :: n :: rest =>
    if isHigh m && isLow n then join m n :: ofUnits rest
    else CodePoint.ofNat m :: ofUnits (n :: rest)

/-- The units of a byte string that begins at a place. -/
def units (o : ByteOrder) : (place : Nat) → Bytes → Except UndecodableBytes (List Nat)
  | _, [] => .ok []
  | place, [b] =>
    .error { encoding := o.encodingName "utf-16", first := b, start := place, count := 1,
             reason := "truncated data" }
  | place, a :: b :: rest => do
    let tail ← units o (place + 2) rest
    .ok (o.number [a, b] :: tail)

def read (o : ByteOrder) (place : Nat) (bytes : Bytes) : Except UndecodableBytes Text :=
  (units o place bytes).map ofUnits

end Utf16

namespace Utf32

def read (o : ByteOrder) : (place : Nat) → Bytes → Except UndecodableBytes Text
  | _, [] => .ok []
  | place, a :: b :: c :: d :: rest =>
    match CodePoint.ofNat? (o.number [a, b, c, d]) with
    | some p => do
      let tail ← read o (place + 4) rest
      .ok (p :: tail)
    | none =>
      .error { encoding := o.encodingName "utf-32", first := a, start := place, count := 4,
               reason := "code point not in range(0x110000)" }
  | place, b :: rest =>
    .error { encoding := o.encodingName "utf-32", first := b, start := place,
             count := rest.length + 1, reason := "truncated data" }

end Utf32
end LogQuery
