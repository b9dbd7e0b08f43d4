import LogQuery.Number.Integer
import LogQuery.Text.Utf8
/-!
# Unreadable JSON

Why a text is no JSON document, and where that shows: lines and columns are counted from one,
places in the text from zero.
-/
namespace LogQuery.Json

/-- What a reader of JSON missed or met. -/
inductive Problem where
  | expectedValue
  | expectedName
  | expectedColon
  | expectedComma
  | unterminatedString
  | controlCharacter
  | badEscape
  | badUnicodeEscape
  | extraData
  | byteOrderMark
  deriving DecidableEq

def Problem.message : Problem → String
  | expectedValue => "Expecting value"
  | expectedName => "Expecting property name enclosed in double quotes"
  | expectedColon => "Expecting ':' delimiter"
  | expectedComma => "Expecting ',' delimiter"
  | unterminatedString => "Unterminated string starting at"
  | controlCharacter => "Invalid control character at"
  | badEscape => "Invalid \\escape"
  | badUnicodeEscape => "Invalid \\uXXXX escape"
  | extraData => "Extra data"
  | byteOrderMark => "Unexpected UTF-8 BOM (decode using utf-8-sig)"

/-- Why a text or a byte string is no JSON document. -/
inductive Error where
  /-- A problem and the text in front of it. -/
  | malformed (problem : Problem) (before : Text)
  /-- An integer literal with more digits than a numeral may have. -/
  | longInteger (digits : Nat)
  /-- The name of a number in a document that has to keep to the standard. -/
  | constant (name : String)
  | undecodable (bytes : UndecodableBytes)
  | tooDeep
  deriving DecidableEq

/-- The line, the column and the place that a text in front of them leads to. -/
def position (before : Text) : Text :=
  let line := before.count (.scalar '\n') + 1
  let column := (before.reverse.takeWhile (· ≠ .scalar '\n')).length + 1
  "line " ++ Text.ofNat line ++ " column " ++ Text.ofNat column
    ++ " (char " ++ Text.ofNat before.length ++ ")"

/-- The report of an unreadable document. -/
def Error.message : Error → Text
  | malformed problem before => problem.message ++ ": " ++ position before
  | longInteger digits => (IntegerError.tooLong digits).message
  | constant name => "'" ++ Text.ofString name ++ "' is not valid JSON"
  | undecodable bytes => bytes.message
  | tooDeep => "document is nested too deeply"

end LogQuery.Json
