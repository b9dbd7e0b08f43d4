import LogQuery.Text.Class
/-!
# Quoted forms

The way a message shows a text it cannot vouch for: between quotes, with a backslash escape for
everything that would not show. Single quotes are used unless the text holds one and no double
quote, so most texts need no escaped quote.
-/
namespace LogQuery.Text

/-- The escape of a code point that has no visible form, by the number of its digits. -/
def escapeByNumber (n : Nat) : Text :=
  if n < 0x100 then "\\x" ++ ofNatHex 2 n
  else if n < 0x10000 then "\\u" ++ ofNatHex 4 n
  else "\\U" ++ ofNatHex 8 n

/-- One code point inside quotes of the given kind. -/
def quotedPoint (quote : Char) (p : CodePoint) : Text :=
  match p with
  | .scalar '\\' => "\\\\"
  | .scalar '\n' => "\\n"
  | .scalar '\r' => "\\r"
  | .scalar '\t' => "\\t"
  | _ =>
    if p = .scalar quote then [.scalar '\\', p]
    else if p.isPrintable then [p]
    else escapeByNumber p.code

def quoteFor (t : Text) : Char :=
  if t.contains (.scalar '\'') && !t.contains (.scalar '"') then '"' else '\''

def quoted (t : Text) : Text :=
  let q := quoteFor t
  .scalar q :: (t.flatMap (quotedPoint q) ++ [.scalar q])

/-- The quoted form of a byte string; bytes outside visible ASCII are escaped. -/
def quotedBytes (bytes : List UInt8) : Text :=
  let t : Text := bytes.map fun b => CodePoint.ofNat b.toNat
  let q := quoteFor t
  let byte (p : CodePoint) : Text :=
    if p.code < 0x80 then quotedPoint q p else escapeByNumber p.code
  .scalar 'b' :: .scalar q :: (t.flatMap byte ++ [.scalar q])

end LogQuery.Text
