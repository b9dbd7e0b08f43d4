import LogQuery.Number.Integer
import LogQuery.Yaml.Cursor
/-!
# YAML scalars

The three ways in which YAML spells a text: plain, quoted, and as an indented block. Line breaks
inside a scalar are folded: a single one becomes a space, further ones stay.

Each function takes the cursor at the scalar and returns its text and the place behind it. Loops
are bounded by the length of the text that is left.
-/
namespace LogQuery.Yaml

/-- Folded line breaks: the first one, and those that follow. -/
def fold (first : Text) (others : List Text) : Text :=
  if first ≠ ("\n" : Text) then first ++ others.flatten
  else if others = [] then " "
  else others.flatten

/-! ### Quoted scalars -/

def simpleEscape? : CodePoint → Option Char
  | .scalar '0' => some '\x00'
  | .scalar 'a' => some '\x07'
  | .scalar 'b' => some '\x08'
  | .scalar 't' => some '\t'
  | .scalar '\t' => some '\t'
  | .scalar 'n' => some '\n'
  | .scalar 'v' => some '\x0b'
  | .scalar 'f' => some '\x0c'
  | .scalar 'r' => some '\r'
  | .scalar 'e' => some '\x1b'
  | .scalar ' ' => some ' '
  | .scalar '"' => some '"'
  | .scalar '\\' => some '\\'
  | .scalar '/' => some '/'
  | .scalar 'N' => some '\u0085'
  | .scalar '_' => some '\u00a0'
  | .scalar 'L' => some '\u2028'
  | .scalar 'P' => some '\u2029'
  | _ => none

/-- The number of digits of an escape by number. -/
def escapeDigits? : CodePoint → Option Nat
  | .scalar 'x' => some 2
  | .scalar 'u' => some 4
  | .scalar 'U' => some 8
  | _ => none

def numberedEscape (n : Nat) : Except Stop CodePoint :=
  match CodePoint.ofNat? n with
  | some p => .ok p
  | none =>
    if n < Nat.pow 2 31 then .error (.fault (.badValue "chr() arg not in range(0x110000)"))
    else .error (.fault (.overflow "Python int too large to convert to C int"))

/-- The digits of an escape at a cursor, and the place behind them. -/
def readEscapeDigits (digits : Nat) (c : Cursor) : Except Stop (CodePoint × Cursor) :=
  let values := (c.rest.take digits).filterMap CodePoint.hexDigit?
  if values.length = digits then do
    let p ← numberedEscape (ofDigits 16 values)
    .ok (p, c.advance digits)
  else .error .malformed

/-- The line breaks at the front of the next lines of a quoted scalar, each line's blanks dropped.
A mark of a document must not stand there. -/
def quotedBreaks : (fuel : Nat) → Cursor → Except Stop (List Text × Cursor)
  | 0, c => .ok ([], c)
  | fuel + 1, c =>
    if c.isDocumentMark then .error .malformed
    else
      let c := c.skip isBlankOrTab
      match c.lineBreak with
      | ([], _) => .ok ([], c)
      | (b, c) => do
        let (bs, c) ← quotedBreaks fuel c
        .ok (b :: bs, c)

/-- The blanks or line breaks at a cursor inside a quoted scalar, folded. -/
def quotedSpaces (c : Cursor) : Except Stop (Text × Cursor) :=
  let (blanks, c) := c.span isBlankOrTab
  match c.peek with
  | none => .error .malformed
  | some p =>
    if isBreak p then do
      let (first, c) := c.lineBreak
      let (others, c) ← quotedBreaks (c.rest.length + 1) c
      .ok (fold first others, c)
    else .ok (blanks, c)

/-- The rest of a quoted scalar behind its opening quote. -/
def quoted (double : Bool) : (fuel : Nat) → Cursor → Except Stop (Text × Cursor)
  | 0, _ => .error .malformed
  | fuel + 1, c =>
    match c.rest with
    | [] => .error .malformed
    | .scalar '\'' :: rest =>
      if double then do
        let (t, c) ← quoted double fuel c.step
        .ok (.scalar '\'' :: t, c)
      else if rest.head? = some (.scalar '\'') then do
        let (t, c) ← quoted double fuel (c.advance 2)
        .ok (.scalar '\'' :: t, c)
      else .ok ([], c.step)
    | .scalar '"' :: _ =>
      if double then .ok ([], c.step)
      else do
        let (t, c) ← quoted double fuel c.step
        .ok (.scalar '"' :: t, c)
    | .scalar '\\' :: rest =>
      if double then
        match rest with
        | [] => .error .malformed
        | e :: _ =>
          match simpleEscape? e, escapeDigits? e with
          | some x, _ => do
            let (t, c) ← quoted double fuel (c.advance 2)
            .ok (.scalar x :: t, c)
          | none, some digits => do
            let (p, c) ← readEscapeDigits digits (c.advance 2)
            let (t, c) ← quoted double fuel c
            .ok (p :: t, c)
          | none, none =>
            if isBreak e then do
              let (_, c) := c.step.lineBreak
              let (bs, c) ← quotedBreaks (c.rest.length + 1) c
              let (t, c) ← quoted double fuel c
              .ok (bs.flatten ++ t, c)
            else .error .malformed
      else do
        let (t, c) ← quoted double fuel c.step
        .ok (.scalar '\\' :: t, c)
    | p :: _ =>
      if isBlankOrTab p || isBreak p then do
        let (s, c) ← quotedSpaces c
        let (t, c) ← quoted double fuel c
        .ok (s ++ t, c)
      else do
        let (t, c) ← quoted double fuel c.step
        .ok (p :: t, c)

def quotedScalar (double : Bool) (c : Cursor) : Except Stop (Text × Cursor) :=
  quoted double (c.rest.length + 1) c.step

/-! ### Plain scalars -/

/-- The length of a piece of a plain scalar without white space. In a flow collection its marks end
a piece, and a colon in front of one of them too. -/
def plainLength (flow : Bool) : Text → Nat
  | [] => 0
  | p :: rest =>
    let colonEnds := endsToken rest.head?
      || (flow && rest.head?.any fun q => (",[]\x7b\x7d" : Text).contains q)
    if isBlankOrTab p || isBreak p || (p = .scalar ':' && colonEnds)
        || (flow && (",?[]\x7b\x7d" : Text).contains p) then 0
    else plainLength flow rest + 1

/-- What separates two pieces of a plain scalar. -/
structure Separation where
  text : Text
  /-- A line break was crossed. -/
  crossed : Bool
  place : Cursor

/-- The line breaks at the front of the next lines of a plain scalar; none at all if the mark of a
document is met. -/
def plainBreaks : (fuel : Nat) → Cursor → Option (List Text) × Cursor
  | 0, c => (some [], c)
  | fuel + 1, c =>
    let c := c.skipSpaces
    match c.lineBreak with
    | ([], _) => (some [], c)
    | (b, c) =>
      if c.isDocumentMark then (none, c)
      else
        let (bs, c) := plainBreaks fuel c
        (bs.map (b :: ·), c)

/-- The white space behind a piece of a plain scalar. -/
def separation (c : Cursor) : Separation :=
  let (blanks, c) := c.span (· = .scalar ' ')
  match c.lineBreak with
  | ([], _) => { text := blanks, crossed := false, place := c }
  | (first, c) =>
    if c.isDocumentMark then { text := [], crossed := true, place := c }
    else
      match plainBreaks (c.rest.length + 1) c with
      | (some others, c) => { text := fold first others, crossed := true, place := c }
      | (none, c) => { text := [], crossed := true, place := c }

/-- A plain scalar: its text, whether a line was crossed behind its last piece, and the place. -/
structure PlainScalar where
  text : Text
  crossed : Bool
  place : Cursor

/-- The pieces of a plain scalar. In block context a piece on a line of its own has to be indented
at least to `indent`. -/
def plainPieces (flow : Bool) (indent : Int) : (fuel : Nat) → (between : Text) →
    (crossed : Bool) → Cursor → PlainScalar
  | 0, _, crossed, c => { text := [], crossed, place := c }
  | fuel + 1, between, crossed, c =>
    let length := if c.isAt '#' then 0 else plainLength flow c.rest
    if length = 0 then { text := [], crossed, place := c }
    else
      let piece := c.rest.take length
      let s := separation (c.advance length)
      let more :=
        if s.text = [] || s.place.isAt '#' || (!flow && (s.place.column : Int) < indent) then
          { text := [], crossed := s.crossed, place := s.place }
        else plainPieces flow indent fuel s.text s.crossed s.place
      { more with text := between ++ piece ++ more.text }

def plainScalar (flow : Bool) (indent : Int) (c : Cursor) : PlainScalar :=
  plainPieces flow indent (c.rest.length + 1) [] false c

/-! ### Block scalars -/

/-- What becomes of the line breaks at the end of a block. -/
inductive Chomping where
  | strip
  | clip
  | keep
  deriving DecidableEq

/-- The chomping that a character asks for. -/
def chomping? : Option CodePoint → Option Chomping
  | some (.scalar '+') => some .keep
  | some (.scalar '-') => some .strip
  | _ => none

/-- The indentation that a digit asks for; zero is none. -/
def increment? (p : Option CodePoint) : Option Nat := p.bind CodePoint.asciiDigit?

/-- The two optional indicators behind the mark of a block, in either order. -/
def blockIndicators (c : Cursor) : Except Stop (Chomping × Option Nat × Cursor) := do
  let (chomping, increment, c) : Chomping × Option Nat × Cursor :=
    match chomping? c.peek with
    | some chomping =>
      match increment? c.step.peek with
      | some n => (chomping, some n, c.advance 2)
      | none => (chomping, none, c.step)
    | none =>
      match increment? c.peek with
      | some n =>
        match chomping? c.step.peek with
        | some chomping => (chomping, some n, c.advance 2)
        | none => (.clip, some n, c.step)
      | none => (.clip, none, c)
  if increment = some 0 || !endsWord c.peek then .error .malformed
  else .ok (chomping, increment, c)

/-- The rest of the line of an indicator: blanks and a comment. -/
def ignoredLine (c : Cursor) : Except Stop Cursor :=
  let c := c.skipSpaces.skipComment
  if endsLine c.peek then .ok c.lineBreak.2 else .error .malformed

/-- The empty lines in front of a block, and the greatest column that was reached in them or at the
first line that is not empty. -/
def leadingLines : (fuel : Nat) → (widest : Nat) → Cursor → List Text × Nat × Cursor
  | 0, widest, c => ([], widest, c)
  | fuel + 1, widest, c =>
    if c.isAt ' ' then leadingLines fuel (max widest c.step.column) c.step
    else
      match c.lineBreak with
      | ([], _) => ([], widest, c)
      | (b, c) =>
        let (bs, widest, c) := leadingLines fuel widest c
        (b :: bs, widest, c)

/-- The place behind the spaces of a line up to a column. -/
def skipIndent (indent : Nat) (c : Cursor) : Cursor :=
  c.advance (min (indent - c.column) (c.rest.takeWhile (· = .scalar ' ')).length)

/-- The empty lines inside a block, spaces up to its indentation dropped. -/
def blockBreaks (indent : Nat) : (fuel : Nat) → Cursor → List Text × Cursor
  | 0, c => ([], c)
  | fuel + 1, c =>
    let c := skipIndent indent c
    match c.lineBreak with
    | ([], _) => ([], c)
    | (b, c) =>
      let (bs, c) := blockBreaks indent fuel c
      (b :: bs, c)

/-- Whether a line of a block begins at a cursor. -/
def isBlockLine (indent : Nat) (c : Cursor) : Bool := c.column = indent && c.peek.isSome

/-- The end of a block: the break of its last line and the empty lines behind it. -/
def chomp (chomping : Chomping) (lineBreak : Text) (breaks : List Text) : Text :=
  match chomping with
  | .strip => []
  | .clip => lineBreak
  | .keep => lineBreak ++ breaks.flatten

/-- The lines of a block. `lineBreak` ends the line before, and `breaks` are empty lines between. -/
def blockLines (folded : Bool) (chomping : Chomping) (indent : Nat) : (fuel : Nat) →
    (lineBreak : Text) → (breaks : List Text) → Cursor → Text × Cursor
  | 0, lineBreak, breaks, c => (chomp chomping lineBreak breaks, c)
  | fuel + 1, lineBreak, breaks, c =>
    if !isBlockLine indent c then (chomp chomping lineBreak breaks, c)
    else
      let indented := c.peek.any isBlankOrTab
      let (line, c) := c.span fun p => !isBreak p
      let (next, c) := c.lineBreak
      let (nextBreaks, c) := blockBreaks indent (c.rest.length + 1) c
      if isBlockLine indent c then
        let joined : Text :=
          if folded && next = ("\n" : Text) && !indented && !c.peek.any isBlankOrTab then
            if nextBreaks = [] then " " else []
          else next
        let (rest, c) := blockLines folded chomping indent fuel [] nextBreaks c
        (breaks.flatten ++ line ++ joined ++ rest, c)
      else (breaks.flatten ++ line ++ chomp chomping next nextBreaks, c)

/-- The text of the block scalar at a cursor, inside a block collection of some indentation. -/
def blockScalar (folded : Bool) (parent : Int) (c : Cursor) : Except Stop (Text × Cursor) := do
  let (chomping, increment, c) ← blockIndicators c.step
  let c ← ignoredLine c
  let least := (max (parent + 1) 1).toNat
  let fuel := c.rest.length + 1
  let (breaks, indent, c) : List Text × Nat × Cursor :=
    match increment with
    | none =>
      let (breaks, widest, c) := leadingLines fuel 0 c
      (breaks, max least widest, c)
    | some n =>
      let indent := least + n - 1
      let (breaks, c) := blockBreaks indent fuel c
      (breaks, indent, c)
  .ok (blockLines folded chomping indent fuel [] breaks c)

end LogQuery.Yaml
