import LogQuery.Json.Error
import LogQuery.Json.Tree
/-!
# Reading JSON

A reader of JSON texts by recursive descent. Every function takes the text that is left and
returns what it read with the text that is then left; a failure carries the text that was left
where the fault shows, from which `Tree.read` computes its position.

Beyond the standard the reader can accept the names of the numbers without digits. It refuses
documents with more levels of nesting than it is given and integers longer than `Integer.maxDigits`.
-/
namespace LogQuery.Json

/-- Why reading stopped. -/
inductive Stop where
  /-- A problem, and the text that is left where it shows. -/
  | malformed (problem : Problem) (rest : Text)
  | longInteger (digits : Nat)
  | constant (c : Constant)
  | tooDeep

/-- White space between the tokens of a document. -/
def isSpace : CodePoint → Bool
  | .scalar c => c = ' ' ∨ c = '\t' ∨ c = '\n' ∨ c = '\r'
  | .surrogate _ => false

def skipSpace (t : Text) : Text := t.dropWhile isSpace

/-- The number of four hexadecimal digits at the front. -/
def hex4? : Text → Option (Nat × Text)
  | a :: b :: c :: d :: rest => do
    let a ← a.hexDigit?
    let b ← b.hexDigit?
    let c ← c.hexDigit?
    let d ← d.hexDigit?
    some (((a * 16 + b) * 16 + c) * 16 + d, rest)
  | _ => none

/-- The code point that a one-letter escape stands for. -/
def simpleEscape? : CodePoint → Option Char
  | .scalar '"' => some '"'
  | .scalar '\\' => some '\\'
  | .scalar '/' => some '/'
  | .scalar 'b' => some '\x08'
  | .scalar 'f' => some '\x0c'
  | .scalar 'n' => some '\n'
  | .scalar 'r' => some '\r'
  | .scalar 't' => some '\t'
  | _ => none

def joinSurrogates (high low : Nat) : CodePoint :=
  CodePoint.ofNat (0x10000 + (high - 0xd800) * 0x400 + (low - 0xdc00))

/-- Read the digits of a `\u` escape, `rest` being what follows the letter. A high surrogate
takes the escape behind it along if that is a low one; an escape never ends the text. -/
def readUnicodeEscape (u : CodePoint) (rest : Text) : Except Stop (CodePoint × Text) :=
  match hex4? rest with
  | none => .error (.malformed .badUnicodeEscape (u :: rest))
  | some (_, []) => .error (.malformed .badUnicodeEscape (u :: rest))
  | some (high, rest) =>
    if 0xd800 ≤ high ∧ high < 0xdc00 then
      match rest with
      | .scalar '\\' :: .scalar 'u' :: digits =>
        if digits.length < 5 then .ok (CodePoint.ofNat high, rest)
        else
          match hex4? digits with
          | none => .error (.malformed .badUnicodeEscape (.scalar 'u' :: digits))
          | some (low, after) =>
            if 0xdc00 ≤ low ∧ low < 0xe000 then .ok (joinSurrogates high low, after)
            else .ok (CodePoint.ofNat high, rest)
      | _ => .ok (CodePoint.ofNat high, rest)
    else .ok (CodePoint.ofNat high, rest)

/-- Read the rest of a string up to its closing quote. `start` is the text at its opening quote.
The fuel bounds the number of steps; the length of the text suffices. -/
def readString (start : Text) : (fuel : Nat) → Text → Except Stop (Text × Text)
  | 0, _ => .error (.malformed .unterminatedString start)
  | _ + 1, [] => .error (.malformed .unterminatedString start)
  | fuel + 1, p :: rest =>
    if p = .scalar '"' then .ok ([], rest)
    else if p = .scalar '\\' then
      match rest with
      | [] => .error (.malformed .unterminatedString start)
      | e :: rest' =>
        if e = .scalar 'u' then do
          let (q, after) ← readUnicodeEscape e rest'
          let (tail, after) ← readString start fuel after
          .ok (q :: tail, after)
        else
          match simpleEscape? e with
          | none => .error (.malformed .badEscape (p :: rest))
          | some c => do
            let (tail, after) ← readString start fuel rest'
            .ok (.scalar c :: tail, after)
    else if p.code < 0x20 then .error (.malformed .controlCharacter (p :: rest))
    else do
      let (tail, after) ← readString start fuel rest
      .ok (p :: tail, after)

/-- Split off the digits at the front. -/
def spanDigits (t : Text) : Text × Text := t.span CodePoint.isAsciiDigit

/-- Split off the whole part of a number literal; a leading zero stands alone. -/
def spanWhole? : Text → Option (Text × Text)
  | p :: rest =>
    if p = .scalar '0' then some ([p], rest)
    else if p.isAsciiDigit then
      let (digits, rest) := spanDigits rest
      some (p :: digits, rest)
    else none
  | [] => none

/-- Split off a point and the digits behind it, of which there has to be one. -/
def spanFraction (t : Text) : Text × Text :=
  match t with
  | .scalar '.' :: rest =>
    match spanDigits rest with
    | ([], _) => ([], t)
    | (digits, rest) => (.scalar '.' :: digits, rest)
  | _ => ([], t)

/-- Split off the sign of an exponent. -/
def spanSign : Text → Text × Text
  | .scalar '+' :: rest => ([.scalar '+'], rest)
  | .scalar '-' :: rest => ([.scalar '-'], rest)
  | t => ([], t)

/-- Split off an exponent, of which a digit has to be part. -/
def spanExponent (t : Text) : Text × Text :=
  match t with
  | p :: rest =>
    if p = .scalar 'e' ∨ p = .scalar 'E' then
      let (sign, rest) := spanSign rest
      match spanDigits rest with
      | ([], _) => ([], t)
      | (digits, rest) => (p :: (sign ++ digits), rest)
    else ([], t)
  | [] => ([], t)

/-- Read a number: the longest literal at the front. -/
def readNumber (t : Text) : Except Stop (Tree × Text) :=
  let (sign, unsigned) : Text × Text := match t with
    | .scalar '-' :: rest => ([.scalar '-'], rest)
    | _ => ([], t)
  match spanWhole? unsigned with
  | none => .error (.malformed .expectedValue t)
  | some (whole, rest) =>
    let (fraction, rest) := spanFraction rest
    let (exponent, rest) := spanExponent rest
    if fraction = [] ∧ exponent = [] then
      if Integer.maxDigits < whole.length then .error (.longInteger whole.length)
      else .ok (.integer (sign ++ whole), rest)
    else .ok (.decimal (sign ++ whole ++ fraction ++ exponent), rest)

/-- The words that stand for values, with these values. -/
def words : List (String × Tree) :=
  [("null", .null), ("true", .bool true), ("false", .bool false),
    ("NaN", .constant .nan), ("Infinity", .constant .infinity),
    ("-Infinity", .constant .minusInfinity)]

def readWord? (t : Text) : Option (Tree × Text) :=
  words.findSome? fun (word, tree) => (Text.dropPrefix? word t).map (tree, ·)

def readAtom (constants : Bool) (t : Text) : Except Stop (Tree × Text) :=
  match readWord? t with
  | some (.constant c, rest) => if constants then .ok (.constant c, rest) else .error (.constant c)
  | some (tree, rest) => .ok (tree, rest)
  | none => readNumber t

/-- Read the name of a member up to its colon. -/
def readName (t : Text) : Except Stop (Text × Text) :=
  match t with
  | .scalar '"' :: rest => do
    let (name, rest) ← readString t (rest.length + 1) rest
    match skipSpace rest with
    | .scalar ':' :: rest => .ok (name, skipSpace rest)
    | rest => .error (.malformed .expectedColon rest)
  | _ => .error (.malformed .expectedName t)

mutual

/-- Read a value. `depth` levels of nesting are left. -/
def readValue (constants : Bool) : (fuel depth : Nat) → Text → Except Stop (Tree × Text)
  | 0, _, _ => .error .tooDeep
  | fuel + 1, depth, t =>
    match t with
    | .scalar '"' :: rest => do
      let (s, rest) ← readString t (rest.length + 1) rest
      .ok (.string s, rest)
    | .scalar '[' :: rest =>
      match depth, skipSpace rest with
      | 0, _ => .error .tooDeep
      | _ + 1, .scalar ']' :: rest => .ok (.list [], rest)
      | depth + 1, rest => do
        let (items, rest) ← readItems constants fuel depth rest
        .ok (.list items, rest)
    | .scalar '{' :: rest =>
      match depth, skipSpace rest with
      | 0, _ => .error .tooDeep
      | _ + 1, .scalar '}' :: rest => .ok (.map [], rest)
      | depth + 1, rest => do
        let (members, rest) ← readMembers constants fuel depth rest
        .ok (.map (Text.ofPairs members), rest)
    | _ => readAtom constants t

/-- Read the items of a list up to its closing bracket; there is at least one. -/
def readItems (constants : Bool) : (fuel depth : Nat) → Text → Except Stop (List Tree × Text)
  | 0, _, _ => .error .tooDeep
  | fuel + 1, depth, t => do
    let (item, rest) ← readValue constants fuel depth t
    match skipSpace rest with
    | .scalar ']' :: rest => .ok ([item], rest)
    | .scalar ',' :: rest => do
      let (items, rest) ← readItems constants fuel depth (skipSpace rest)
      .ok (item :: items, rest)
    | rest => .error (.malformed .expectedComma rest)

/-- Read the members of a map up to its closing brace; there is at least one. -/
def readMembers (constants : Bool) : (fuel depth : Nat) → Text →
    Except Stop (List (Text × Tree) × Text)
  | 0, _, _ => .error .tooDeep
  | fuel + 1, depth, t => do
    let (name, rest) ← readName t
    let (value, rest) ← readValue constants fuel depth rest
    match skipSpace rest with
    | .scalar '}' :: rest => .ok ([(name, value)], rest)
    | .scalar ',' :: rest => do
      let (members, rest) ← readMembers constants fuel depth (skipSpace rest)
      .ok ((name, value) :: members, rest)
    | rest => .error (.malformed .expectedComma rest)

end

/-- Read a document: one value with nothing but white space around it. -/
def readDocument (constants : Bool) (depth : Nat) (t : Text) : Except Stop Tree := do
  let (tree, rest) ← readValue constants (2 * t.length + 2) depth (skipSpace t)
  match skipSpace rest with
  | [] => .ok tree
  | rest => .error (.malformed .extraData rest)

def Stop.toError (t : Text) : Stop → Error
  | malformed problem rest => .malformed problem (t.take (t.length - rest.length))
  | longInteger digits => .longInteger digits
  | constant c => .constant c.name
  | tooDeep => .tooDeep

/-- Read a text as a JSON document of some levels of nesting at most, with or without the names of
numbers. -/
def Tree.read (constants : Bool) (depth : Nat) (t : Text) : Except Error Tree :=
  match t with
  | .scalar '\ufeff' :: _ => .error (.malformed .byteOrderMark [])
  | _ => (readDocument constants depth t).mapError (Stop.toError t)

end LogQuery.Json
