import LogQuery.Runtime
/-!
# Places in a YAML text

A cursor is the text that is left together with the place it begins at, since indentation and the
extent of keys depend on columns and lines. The end of the text is an absent code point, which
most tests treat like a line end.
-/
namespace LogQuery.Yaml

/-- A place in a text. -/
structure Cursor where
  rest : Text
  index : Nat := 0
  line : Nat := 0
  column : Nat := 0

/-- A line break: one of the line ends, next line, line separator, paragraph separator. -/
def isBreak (p : CodePoint) : Bool :=
  p = .scalar '\n' || p = .scalar '\r' || p = .scalar '\u0085' || p = .scalar '\u2028'
    || p = .scalar '\u2029'

/-- A blank between the tokens of a line. -/
def isBlankOrTab (p : CodePoint) : Bool := p = .scalar ' ' || p = .scalar '\t'

def endsLine (p : Option CodePoint) : Bool := p.all isBreak

/-- The end of a line or a space. -/
def endsWord (p : Option CodePoint) : Bool := p.all fun p => p = .scalar ' ' || isBreak p

/-- The end of a line, a space or a tab. -/
def endsToken (p : Option CodePoint) : Bool := p.all fun p => isBlankOrTab p || isBreak p

/-- A character of the names of anchors and directives. -/
def isNameCharacter (p : CodePoint) : Bool :=
  p.isAsciiLetter || p.isAsciiDigit || p = .scalar '-' || p = .scalar '_'

namespace Cursor

def peek (c : Cursor) : Option CodePoint := c.rest.head?

/-- The code point some places behind a cursor. -/
def peekAt (c : Cursor) (n : Nat) : Option CodePoint := c.rest[n]?

def isAt (c : Cursor) (x : Char) : Bool := c.peek = some (.scalar x)

/-- One place further. A carriage return in front of a line feed does not end the line. -/
def step (c : Cursor) : Cursor :=
  match c.rest with
  | [] => c
  | p :: rest =>
    if isBreak p && !(p = .scalar '\r' && rest.head? = some (.scalar '\n')) then
      { rest, index := c.index + 1, line := c.line + 1, column := 0 }
    else
      { rest, index := c.index + 1, line := c.line,
        column := if p = .scalar '\ufeff' then c.column else c.column + 1 }

/-- Some places further. -/
def advance : Nat → Cursor → Cursor
  | 0, c => c
  | n + 1, c => advance n c.step

/-- The longest text at a cursor all of whose code points satisfy a test, and the place behind. -/
def span (p : CodePoint → Bool) (c : Cursor) : Text × Cursor :=
  let taken := c.rest.takeWhile p
  (taken, c.advance taken.length)

/-- The place behind the code points that satisfy a test. -/
def skip (p : CodePoint → Bool) (c : Cursor) : Cursor := (c.span p).2

/-- The place behind the spaces. -/
def skipSpaces (c : Cursor) : Cursor := c.skip (· = .scalar ' ')

/-- The place at the end of a comment, if one begins at the cursor. -/
def skipComment (c : Cursor) : Cursor := if c.isAt '#' then c.skip fun p => !isBreak p else c

/-- The line break at a cursor, as it counts in a scalar, and the place behind it. There is none
where no line ends. -/
def lineBreak (c : Cursor) : Text × Cursor :=
  match c.rest with
  | .scalar '\r' :: .scalar '\n' :: _ => ("\n", c.advance 2)
  | p :: _ =>
    if p = .scalar '\u2028' || p = .scalar '\u2029' then ([p], c.step)
    else if isBreak p then ("\n", c.step)
    else ([], c)
  | [] => ([], c)

/-- Whether three equal characters stand alone at a cursor. -/
def isTriple (c : Cursor) (x : Char) : Bool :=
  c.rest.take 3 = List.replicate 3 (.scalar x) && endsToken (c.peekAt 3)

/-- Whether a document begins or ends at a cursor that is at the front of a line. -/
def isDocumentMark (c : Cursor) : Bool := c.isTriple '-' || c.isTriple '.'

end Cursor
end LogQuery.Yaml
