import LogQuery.Json.Reader
import LogQuery.Text.Utf16
/-!
# JSON in bytes

A JSON document that arrives as bytes may be in any Unicode encoding. A byte order mark settles
which one; without it the zero bytes among the first four do, because a document begins with two
ASCII characters.
-/
namespace LogQuery.Json

/-- The encoding of a document, and how many bytes its mark takes. -/
inductive Encoding where
  | utf8 (mark : Nat)
  | utf16 (order : ByteOrder) (mark : Nat)
  | utf32 (order : ByteOrder) (mark : Nat)
  deriving DecidableEq

/-- The encoding that a byte order mark announces. -/
def markedEncoding? : Bytes → Option Encoding
  | 0x00 :: 0x00 :: 0xfe :: 0xff :: _ => some (.utf32 .bigEndian 4)
  | 0xff :: 0xfe :: 0x00 :: 0x00 :: _ => some (.utf32 .littleEndian 4)
  | 0xfe :: 0xff :: _ => some (.utf16 .bigEndian 2)
  | 0xff :: 0xfe :: _ => some (.utf16 .littleEndian 2)
  | 0xef :: 0xbb :: 0xbf :: _ => some (.utf8 3)
  | _ => none

/-- The encoding that the zeros among the first bytes betray. -/
def encodingByZeros : Bytes → Encoding
  | a :: b :: c :: d :: _ =>
    if a = 0 then if b = 0 then .utf32 .bigEndian 0 else .utf16 .bigEndian 0
    else if b = 0 then
      if c = 0 ∧ d = 0 then .utf32 .littleEndian 0 else .utf16 .littleEndian 0
    else .utf8 0
  | [a, b] =>
    if a = 0 then .utf16 .bigEndian 0 else if b = 0 then .utf16 .littleEndian 0 else .utf8 0
  | _ => .utf8 0

def decodeBytes (bytes : Bytes) : Except UndecodableBytes Text :=
  match (markedEncoding? bytes).getD (encodingByZeros bytes) with
  | .utf8 mark => Utf8.withSurrogates (bytes.drop mark)
  | .utf16 order mark => Utf16.read order mark (bytes.drop mark)
  | .utf32 order mark => Utf32.read order mark (bytes.drop mark)

def Tree.readBytes (constants : Bool) (depth : Nat) (bytes : Bytes) : Except Error Tree := do
  let t ← (decodeBytes bytes).mapError .undecodable
  (readDocument constants depth t).mapError (Stop.toError t)

end LogQuery.Json
