import LogQuery.Text.Utf8
import LogQuery.Yaml.Scalar
/-!
# YAML tokens

A YAML text as a row of tokens. Indentation becomes tokens of its own that open and close block
collections.

Whether a scalar or a collection is the key of a mapping shows only at the colon behind it. So a
slot is left in front of everything that may be a key, and `Slot.settle` fills the slots once all
colons are known (`Scan.run`).
-/
namespace LogQuery.Yaml

/-- A token of a YAML text. -/
inductive Token where
  | streamEnd
  /-- The version that the text says it has. -/
  | versionDirective (major : Nat)
  | tagDirective (handle expansion : Text)
  | otherDirective
  | documentStart
  | documentEnd
  | blockSequenceStart
  | blockMappingStart
  | blockEnd
  | flowSequenceStart
  | flowSequenceEnd
  | flowMappingStart
  | flowMappingEnd
  | blockEntry
  | flowEntry
  | key
  | value
  | alias (name : Text)
  | anchor (name : Text)
  /-- A tag without a handle is given in full. -/
  | tag (handle : Option Text) (suffix : Text)
  | scalar (text : Text) (plain : Bool)
  /-- The text cannot be read any further. -/
  | broken (s : Stop)
  deriving DecidableEq

/-- A token, or the place in front of a possible key. -/
inductive Slot where
  | token (t : Token)
  | beforeKey (number : Nat)

/-- A possible key whose colon has not come yet. -/
structure PossibleKey where
  number : Nat
  /-- Nothing else can stand at its place. -/
  required : Bool
  index : Nat
  line : Nat
  column : Nat

/-- What the reader of tokens keeps track of. -/
structure Scan where
  place : Cursor
  /-- The column of the innermost block collection, and of those around it. -/
  indent : Int := -1
  outer : List Int := []
  flowLevel : Nat := 0
  /-- A key may begin here. -/
  keyAllowed : Bool := true
  /-- The last possible key of each flow level. -/
  possible : List (Nat × PossibleKey) := []
  /-- The number of slots so far. -/
  slots : Nat := 0
  /-- The numbers of the slots that are keys, and whether a block mapping begins there. -/
  keys : List (Nat × Bool) := []
  /-- What was read, the last first. -/
  read : List Slot := []

namespace Slot

def settle (keys : List (Nat × Bool)) : Slot → List Token
  | token t => [t]
  | beforeKey n =>
    match keys.lookup n with
    | some true => [.blockMappingStart, .key]
    | some false => [.key]
    | none => []

end Slot

namespace Scan

def push (s : Scan) (t : Token) : Scan := { s with read := .token t :: s.read }

/-- Whether the reader is inside a flow collection. -/
def inFlow (s : Scan) : Bool := s.flowLevel ≠ 0

/-- Close the block collections that are indented further than a column. -/
def unwindFrom : (outer : List Int) → (indent : Int) → (column : Int) → Scan → Scan
  | [], indent, column, s =>
    if column < indent then { s.push .blockEnd with indent := -1, outer := [] }
    else { s with indent, outer := [] }
  | next :: outer, indent, column, s =>
    if column < indent then unwindFrom outer next column (s.push .blockEnd)
    else { s with indent, outer := next :: outer }

/-- Close the block collections that are indented further than a column. -/
def unwind (s : Scan) (column : Int) : Scan :=
  if s.inFlow then s else unwindFrom s.outer s.indent column s

/-- Whether a possible key is too far back to be one. -/
def isStale (c : Cursor) (k : PossibleKey) : Bool := k.line ≠ c.line || k.index + 1024 < c.index

/-- Give up the possible keys that lie too far back. -/
def dropStale (s : Scan) : Except Stop Scan :=
  if s.possible.any fun (_, k) => isStale s.place k && k.required then .error .malformed
  else .ok { s with possible := s.possible.filter fun (_, k) => !isStale s.place k }

/-- Give up the possible key of the current flow level. -/
def dropKey (s : Scan) : Except Stop Scan :=
  match s.possible.lookup s.flowLevel with
  | some k =>
    if k.required then .error .malformed
    else .ok { s with possible := s.possible.filter fun (level, _) => level ≠ s.flowLevel }
  | none => .ok s

/-- Leave a slot if a key may begin here. -/
def saveKey (s : Scan) : Except Stop Scan :=
  if s.keyAllowed then do
    let required := !s.inFlow && s.indent = s.place.column
    let s ← s.dropKey
    let key : PossibleKey :=
      { number := s.slots, required, index := s.place.index, line := s.place.line,
        column := s.place.column }
    .ok { s with possible := (s.flowLevel, key) :: s.possible, slots := s.slots + 1,
                 read := .beforeKey s.slots :: s.read }
  else .ok s

/-- Begin a block collection at a column unless one is there. -/
def indentTo (s : Scan) (column : Nat) : Bool × Scan :=
  if s.indent < column then
    (true, { s with indent := column, outer := s.indent :: s.outer })
  else (false, s)

/-- Begin a block collection at the current column, with a token that says so. -/
def openBlock (s : Scan) (t : Token) : Scan :=
  match s.indentTo s.place.column with
  | (true, s) => s.push t
  | (false, s) => s

/-- Move behind some characters that make up a token. -/
def take (s : Scan) (length : Nat) (t : Token) : Scan :=
  { s.push t with place := s.place.advance length }

/-! ### Directives and tags -/

def directiveNumber (c : Cursor) : Except Stop (Nat × Cursor) :=
  match c.span CodePoint.isAsciiDigit with
  | ([], _) => .error .malformed
  | (digits, c) =>
    if Integer.maxDigits < digits.length then
      .error (.fault (.badValue (IntegerError.tooLong digits.length).message))
    else .ok (ofDigits 10 (digits.filterMap CodePoint.asciiDigit?), c)

def isAddressCharacter (p : CodePoint) : Bool :=
  p.isAsciiLetter || p.isAsciiDigit || ("-;/?:@&=+$,_.!~*'()[]" : Text).contains p

/-- The bytes of escapes with percent signs at a cursor. -/
def percentBytes : (fuel : Nat) → Cursor → Except Stop (Bytes × Cursor)
  | 0, c => .ok ([], c)
  | fuel + 1, c =>
    match c.rest with
    | .scalar '%' :: a :: b :: _ =>
      match a.hexDigit?, b.hexDigit? with
      | some a, some b => do
        let (bytes, c) ← percentBytes fuel (c.advance 3)
        .ok (UInt8.ofNat (a * 16 + b) :: bytes, c)
      | _, _ => .error .malformed
    | .scalar '%' :: _ => .error .malformed
    | _ => .ok ([], c)

/-- An address at a cursor, which may be empty. -/
def addressPieces : (fuel : Nat) → Cursor → Except Stop (Text × Cursor)
  | 0, c => .ok ([], c)
  | fuel + 1, c =>
    if c.isAt '%' then do
      let (bytes, c) ← percentBytes (c.rest.length + 1) c
      match Utf8.strict bytes with
      | .error _ => .error .malformed
      | .ok t => do
        let (rest, c) ← addressPieces fuel c
        .ok (t ++ rest, c)
    else
      match c.span isAddressCharacter with
      | ([], _) => .ok ([], c)
      | (t, c) => do
        let (rest, c) ← addressPieces fuel c
        .ok (t ++ rest, c)

def address (c : Cursor) : Except Stop (Text × Cursor) := do
  let (t, after) ← addressPieces (c.rest.length + 1) c
  if after.index = c.index then .error .malformed else .ok (t, after)

/-- The handle of a tag: exclamation marks around a name, or a single one. -/
def tagHandle (c : Cursor) : Except Stop (Text × Cursor) :=
  if !c.isAt '!' then .error .malformed
  else if c.step.isAt ' ' then .ok ("!", c.step)
  else
    let (name, after) := c.step.span isNameCharacter
    if after.isAt '!' then .ok (.scalar '!' :: (name ++ "!"), after.step) else .error .malformed

/-- A directive at a cursor that is at its percent sign. -/
def directive (c : Cursor) : Except Stop (Token × Cursor) := do
  let (name, c) := c.step.span isNameCharacter
  if name = [] || !endsWord c.peek then .error .malformed
  else if name.isString "YAML" then do
    let (major, c) ← directiveNumber c.skipSpaces
    if !c.isAt '.' then .error .malformed
    else do
      let (_, c) ← directiveNumber c.step
      if !endsWord c.peek then .error .malformed
      else do
        let c ← ignoredLine c
        .ok (.versionDirective major, c)
  else if name.isString "TAG" then do
    let (handle, c) ← tagHandle c.skipSpaces
    if !c.isAt ' ' then .error .malformed
    else do
      let (expansion, c) ← address c.skipSpaces
      if !endsWord c.peek then .error .malformed
      else do
        let c ← ignoredLine c
        .ok (.tagDirective handle expansion, c)
  else do
    let c ← ignoredLine (c.skip fun p => !isBreak p)
    .ok (.otherDirective, c)

/-- Whether a tag has a handle with a name: an exclamation mark comes before the next space. -/
def hasHandle (t : Text) : Bool :=
  (t.takeWhile fun p => !endsWord (some p)).contains (.scalar '!')

def tag (c : Cursor) : Except Stop (Token × Cursor) := do
  let (handle, suffix, c) ←
    if c.step.isAt '<' then do
      let (suffix, c) ← address (c.advance 2)
      if c.isAt '>' then .ok (none, suffix, c.step) else .error .malformed
    else if endsToken c.step.peek then .ok (none, Text.single '!', c.step)
    else if hasHandle c.step.rest then do
      let (handle, c) ← tagHandle c
      let (suffix, c) ← address c
      .ok (some handle, suffix, c)
    else do
      let (suffix, c) ← address c.step
      .ok (some (Text.single '!'), suffix, c)
  if endsWord c.peek then .ok (.tag handle suffix, c) else .error .malformed

/-- The name of an anchor or an alias at a cursor that is at its mark. -/
def anchorName (c : Cursor) : Except Stop (Text × Cursor) :=
  let (name, c) := c.step.span isNameCharacter
  if name = [] then .error .malformed
  else if endsToken c.peek || c.peek.any fun p => ("?:,]\x7d%@\x60" : Text).contains p then
    .ok (name, c)
  else .error .malformed

/-! ### One token at a time -/

/-- Drop white space, comments and empty lines. Behind a line break a key may begin. -/
def skipToToken : (fuel : Nat) → Scan → Scan
  | 0, s => s
  | fuel + 1, s =>
    let c := s.place.skipSpaces.skipComment
    match c.lineBreak with
    | ([], _) => { s with place := c }
    | (_, c) => skipToToken fuel { s with place := c, keyAllowed := s.keyAllowed || !s.inFlow }

/-- Drop a byte order mark at the front of the text. -/
def skipMark (s : Scan) : Scan :=
  if s.place.index = 0 && s.place.isAt '\ufeff' then { s with place := s.place.step } else s

/-- A mark of a document or a directive: everything open is closed. -/
def outside (s : Scan) : Except Stop Scan := do
  let s ← (s.unwind (-1)).dropKey
  .ok { s with keyAllowed := false }

/-- The end of the text. -/
def finish (s : Scan) : Except Stop Scan := do
  let s ← s.outside
  .ok { s.push .streamEnd with possible := [] }

def openFlow (s : Scan) (t : Token) : Except Stop Scan := do
  let s ← s.saveKey
  .ok { s.take 1 t with flowLevel := s.flowLevel + 1, keyAllowed := true }

def closeFlow (s : Scan) (t : Token) : Except Stop Scan := do
  let s ← s.dropKey
  .ok { s.take 1 t with flowLevel := s.flowLevel - 1, keyAllowed := false }

/-- An entry of a block sequence, which has to be where a key might be. -/
def blockEntry (s : Scan) : Except Stop Scan :=
  if !s.inFlow && !s.keyAllowed then .error .malformed
  else do
    let s := if s.inFlow then s else s.openBlock .blockSequenceStart
    let s ← { s with keyAllowed := true }.dropKey
    .ok (s.take 1 .blockEntry)

/-- A key that is announced by a question mark. -/
def explicitKey (s : Scan) : Except Stop Scan :=
  if !s.inFlow && !s.keyAllowed then .error .malformed
  else do
    let s := if s.inFlow then s else s.openBlock .blockMappingStart
    let s ← { s with keyAllowed := !s.inFlow }.dropKey
    .ok (s.take 1 .key)

/-- A colon behind a possible key, which thereby is one. -/
def settleKey (s : Scan) (k : PossibleKey) : Scan :=
  let (starts, t) := if s.inFlow then (false, s) else s.indentTo k.column
  { t with possible := s.possible.filter fun (level, _) => level ≠ s.flowLevel,
           keys := (k.number, starts) :: s.keys, keyAllowed := false }

def colon (s : Scan) : Except Stop Scan :=
  match s.possible.lookup s.flowLevel with
  | some k => .ok ((s.settleKey k).take 1 .value)
  | none =>
    if !s.inFlow && !s.keyAllowed then .error .malformed
    else do
      let s := if s.inFlow then s else s.openBlock .blockMappingStart
      let s ← { s with keyAllowed := !s.inFlow }.dropKey
      .ok (s.take 1 .value)

/-- A token that may be a key or stand in front of one. -/
def possibleKey (s : Scan) (read : Cursor → Except Stop (Token × Cursor)) : Except Stop Scan := do
  let s ← s.saveKey
  let (t, c) ← read s.place
  .ok { s.push t with place := c, keyAllowed := false }

/-- A plain scalar. Where it ends behind a line break, a key may follow. -/
def plain (s : Scan) : Except Stop Scan := do
  let s ← s.saveKey
  let scalar := plainScalar s.inFlow (s.indent + 1) s.place
  .ok { s.push (.scalar scalar.text true) with place := scalar.place, keyAllowed := scalar.crossed }

def block (s : Scan) (folded : Bool) : Except Stop Scan := do
  let s ← { s with keyAllowed := true }.dropKey
  let (text, c) ← blockScalar folded s.indent s.place
  .ok { s.push (.scalar text false) with place := c }

/-- Whether a plain scalar may begin at a cursor. -/
def startsPlain (flow : Bool) (c : Cursor) (p : CodePoint) : Bool :=
  let special := (" \t-?:,[]\x7b\x7d#&*!|>'\"%@\x60" : Text).contains p || isBreak p
  let spaceFollows := endsToken (c.peekAt 1)
  !special || (!spaceFollows
    && (p = .scalar '-' || (!flow && (p = .scalar '?' || p = .scalar ':'))))

/-- The next token at a place that is not the end. -/
def token (s : Scan) (p : CodePoint) : Except Stop Scan :=
  let c := s.place
  let spaceFollows := endsToken (c.peekAt 1)
  if p = .scalar '%' && c.column = 0 then do
    let s ← s.outside
    let (t, c) ← directive s.place
    .ok { s.push t with place := c }
  else if c.column = 0 && c.isTriple '-' then s.outside.map (·.take 3 .documentStart)
  else if c.column = 0 && c.isTriple '.' then s.outside.map (·.take 3 .documentEnd)
  else
    match p with
    | .scalar '[' => s.openFlow .flowSequenceStart
    | .scalar '\x7b' => s.openFlow .flowMappingStart
    | .scalar ']' => s.closeFlow .flowSequenceEnd
    | .scalar '\x7d' => s.closeFlow .flowMappingEnd
    | .scalar ',' => do
      let s ← { s with keyAllowed := true }.dropKey
      .ok (s.take 1 .flowEntry)
    | .scalar '*' => s.possibleKey fun c => (anchorName c).map fun (n, c) => (.alias n, c)
    | .scalar '&' => s.possibleKey fun c => (anchorName c).map fun (n, c) => (.anchor n, c)
    | .scalar '!' => s.possibleKey tag
    | .scalar '\'' => s.possibleKey fun c =>
      (quotedScalar false c).map fun (t, c) => (.scalar t false, c)
    | .scalar '"' => s.possibleKey fun c =>
      (quotedScalar true c).map fun (t, c) => (.scalar t false, c)
    | _ =>
      if p = .scalar '-' && spaceFollows then s.blockEntry
      else if p = .scalar '?' && (s.inFlow || spaceFollows) then s.explicitKey
      else if p = .scalar ':' && (s.inFlow || spaceFollows) then s.colon
      else if p = .scalar '|' && !s.inFlow then s.block false
      else if p = .scalar '>' && !s.inFlow then s.block true
      else if startsPlain s.inFlow c p then s.plain
      else .error .malformed

/-- Move to the next token, closing what ends in front of it. -/
def toToken (s : Scan) : Except Stop Scan := do
  let s ← (skipToToken (s.place.rest.length + 1) s.skipMark).dropStale
  .ok (s.unwind s.place.column)

/-- Read the next token. The end of the text is a token behind which there is nothing. -/
def next (s : Scan) : Except Stop (Bool × Scan) := do
  let s ← s.toToken
  match s.place.peek with
  | none => s.finish.map (true, ·)
  | some p => (s.token p).map (false, ·)

/-- Read all tokens, up to the end or to where the text cannot be read. -/
def run : (fuel : Nat) → Scan → Scan
  | 0, s => s.push (.broken .malformed)
  | fuel + 1, s =>
    match s.next with
    | .error stop => s.push (.broken stop)
    | .ok (true, s) => s
    | .ok (false, s) => run fuel s

end Scan

/-- A character that a YAML text may hold. -/
def isAllowed : CodePoint → Bool
  | .surrogate _ => false
  | .scalar c =>
    let n := c.toNat
    n = 0x09 || n = 0x0a || n = 0x0d || (0x20 ≤ n && n ≤ 0x7e) || n = 0x85
      || (0xa0 ≤ n && n ≤ 0xfffd) || 0x10000 ≤ n

/-- The tokens of a YAML text. The last one is the end, or says why there is none. -/
def tokens (t : Text) : List Token :=
  if t.all isAllowed then
    let s := Scan.run (t.length + 1) { place := { rest := t } }
    s.read.reverse.flatMap (Slot.settle s.keys)
  else [.broken .malformed]

end LogQuery.Yaml
