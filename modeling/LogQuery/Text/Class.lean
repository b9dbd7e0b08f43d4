import LogQuery.Text.Basic
import LogQuery.Text.Table
/-!
# Classes of code points

Membership in the Unicode classes the program distinguishes: letters and digits (which make up
identifiers), decimal digits (which make up numbers), blanks (which are trimmed) and printable
code points (which a quoted form keeps). ASCII is decided here, the rest by the tables.
-/
namespace LogQuery
namespace CodePoint

/-- A number lies in one of a list of ranges, both ends included. -/
def inRanges (ranges : List (Nat × Nat)) (n : Nat) : Bool :=
  ranges.any fun (first, last) => first ≤ n && n ≤ last

def isLetter (p : CodePoint) : Bool :=
  if p.code < 0x80 then p.isAsciiLetter else inRanges Text.Table.letters p.code

/-- A digit of any script, superscripts and circled digits included. -/
def isDigit (p : CodePoint) : Bool :=
  if p.code < 0x80 then p.isAsciiDigit else inRanges Text.Table.digits p.code

/-- The value of a decimal digit of any script. -/
def decimal? (p : CodePoint) : Option Nat :=
  if p.code < 0x80 then p.asciiDigit?
  else (Text.Table.decimalZeros.find? fun z => z ≤ p.code && p.code < z + 10).map (p.code - ·)

/-- White space: what is trimmed from the ends of a text. -/
def isBlank (p : CodePoint) : Bool :=
  if p.code < 0x80 then (0x09 ≤ p.code && p.code ≤ 0x0d) || (0x1c ≤ p.code && p.code ≤ 0x20)
  else Text.Table.blanks.contains p.code

/-- Shown as itself in a quoted form. -/
def isPrintable (p : CodePoint) : Bool :=
  if p.code < 0x80 then 0x20 ≤ p.code && p.code < 0x7f
  else !inRanges Text.Table.unprintable p.code

end CodePoint

namespace Text

/-- Drop the blanks at both ends. -/
def strip (t : Text) : Text := trim CodePoint.isBlank t

end Text
end LogQuery
