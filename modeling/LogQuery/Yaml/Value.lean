import LogQuery.Base64
import LogQuery.Number.Decimal
import LogQuery.Value.Literal
import LogQuery.Yaml.Node
/-!
# Values of YAML documents

A tree of nodes as a value. Mappings that are merged into a map or a set come first, so that what
that mapping says itself prevails (`Node.merged`). Then every node has its value (`Node.value`),
unless something about it is wrong; `Node.troubles` lists everything that is, each with the depth at
which it comes up, and the trouble nearest to the root is the one reported.
-/
namespace LogQuery.Yaml

/-! ### Merging -/

namespace Node

def kind : Node → Kind
  | scalar k _ => k
  | sequence k _ => k
  | mapping k _ => k
  | enclosing _ => .unknown

def asText : Node → Node
  | scalar _ t => scalar .str t
  | sequence _ items => sequence .str items
  | mapping _ entries => mapping .str entries
  | enclosing levels => enclosing levels

/-- The entries of a mapping that something cannot be merged into. There is no value for such a key. -/
def unmergeable : List (Node × Node) := [(scalar .merge [], scalar .null [])]

/-- The entries of an enclosing mapping, which is in one of them. -/
def endless (levels : Nat) : List (Node × Node) := [(scalar .str [], enclosing levels)]

mutual

/-- A node in which everything is merged. That is done in maps and sets; a mapping that stands for a
scalar, or for a pair in a sequence of pairs, keeps its entries. -/
def merged : Node → Node
  | scalar kind t => scalar kind t
  | sequence kind items =>
    sequence kind (if kind = .pairs ∨ kind = .omap then mergedPairs items else mergedItems items)
  | mapping kind entries =>
    if kind = .map ∨ kind = .set then
      match broughtIn? entries with
      | some brought => mapping kind (brought ++ ownEntries entries)
      | none => mapping kind unmergeable
    else mapping kind entries
  | enclosing levels => enclosing levels

def mergedItems : List Node → List Node
  | [] => []
  | n :: rest => n.merged :: mergedItems rest

/-- Some pairs in whose parts everything is merged. -/
def mergedPairs : List Node → List Node
  | [] => []
  | mapping kind entries :: rest => mapping kind (mergedEntries entries) :: mergedPairs rest
  | n :: rest => n :: mergedPairs rest

/-- Some entries in whose parts everything is merged. -/
def mergedEntries : List (Node × Node) → List (Node × Node)
  | [] => []
  | (k, v) :: rest => (k.merged, v.merged) :: mergedEntries rest

/-- The entries that are merged into a mapping with some entries, ahead of its own; none if there is a
merge key with a value that is not a mapping or a sequence of mappings. -/
def broughtIn? : List (Node × Node) → Option (List (Node × Node))
  | [] => some []
  | (k, v) :: rest =>
    if k.kind = .merge then do
      let entries ← v.entriesInto?
      let others ← broughtIn? rest
      some (entries ++ others)
    else broughtIn? rest

def ownEntries : List (Node × Node) → List (Node × Node)
  | [] => []
  | (k, v) :: rest =>
    if k.kind = .merge then ownEntries rest
    else if k.kind = .value then (k.asText, v.merged) :: ownEntries rest
    else (k.merged, v.merged) :: ownEntries rest

/-- The entries that a node brings into the mapping that it is merged into. The mapping itself brings
nothing. -/
def entriesInto? : Node → Option (List (Node × Node))
  | mapping _ entries => (broughtIn? entries).map (· ++ ownEntries entries)
  | sequence _ items => mappingsInto? items
  | enclosing levels => some (if levels = 1 then [] else endless levels)
  | scalar _ _ => none

/-- The entries that some mappings bring into the mapping that they are merged into, which is two levels
up. The first of the mappings prevails. -/
def mappingsInto? : List Node → Option (List (Node × Node))
  | [] => some []
  | mapping _ entries :: rest => do
    let others ← mappingsInto? rest
    let brought ← broughtIn? entries
    some (others ++ (brought ++ ownEntries entries))
  | enclosing levels :: rest => do
    let others ← mappingsInto? rest
    some (if levels = 2 then others else others ++ endless levels)
  | _ :: _ => none

end

end Node

/-! ### Scalars -/

/-- A fault in place of an error of a numeral. -/
def ofInteger (e : IntegerError) : Stop := .fault (.badValue e.message)

/-- A number in base sixty from its parts, the last one counting one. -/
def sexagesimal (parts : List Int) : Int := parts.foldl (fun n part => n * 60 + part) 0

/-- An integer: a sign, and a number in one of the bases. -/
def intValue (t : Text) : Except Stop Int := do
  let t := t.filter (· ≠ .scalar '_')
  let (negative, rest) := Integer.readSign t
  let n ← match rest with
    | [] => .error (.fault .missingElement)
    | [.scalar '0'] => .ok 0
    | .scalar '0' :: .scalar 'b' :: digits => (Integer.read 2 digits).mapError ofInteger
    | .scalar '0' :: .scalar 'x' :: digits => (Integer.read 16 digits).mapError ofInteger
    | .scalar '0' :: digits => (Integer.read 8 (.scalar '0' :: digits)).mapError ofInteger
    | rest =>
      (rest.splitOn (.scalar ':')).mapM (fun part => (Integer.read 10 part).mapError ofInteger)
        |>.map sexagesimal
  .ok (if negative then -n else n)

/-- What a part of a number in base sixty counts, as a number of the format. -/
def unitValue (unit : Int) : Except Stop Binary64 :=
  match Binary64.ofInt? unit with
  | some u => .ok u
  | none => .error (.fault (.overflow "int too large to convert to float"))

/-- A number in base sixty from its parts, the last one first. -/
def floatSexagesimal : (unit : Int) → (sum : Binary64) → List Binary64 → Except Stop Binary64
  | _, sum, [] => .ok sum
  | unit, sum, part :: rest => do
    let u ← unitValue unit
    floatSexagesimal (unit * 60) (sum.add (part.mul u)) rest

/-- A number with a point. -/
def floatValue (t : Text) : Except Stop Binary64 := do
  let t := Text.asciiLower (t.filter (· ≠ .scalar '_'))
  if t = [] then .error (.fault .missingElement)
  else do
    let (negative, rest) := Integer.readSign t
    let read (part : Text) : Except Stop Binary64 :=
      (Decimal.read part).mapError fun e => .fault (.badValue e.message)
    let x ←
      if rest.isString ".inf" then .ok (.infinite false)
      else if rest.isString ".nan" then .ok .nan
      else if rest.contains (.scalar ':') then do
        let parts ← (rest.splitOn (.scalar ':')).mapM read
        floatSexagesimal 1 (.zero false) parts.reverse
      else read rest
    .ok (if negative then x.neg else x)

def boolValue (t : Text) : Except Stop Bool :=
  let word := t.asciiLower
  if ["yes", "true", "on"].any word.isString then .ok true
  else if ["no", "false", "off"].any word.isString then .ok false
  else .error (.fault .missingKey)

/-- A refusal of a date or a time of day. -/
def outOfRange (message : Text) : Stop := .fault (.badValue message)

/-- The date of three numbers. -/
def dateValue (year month day : Nat) : Except Stop Date :=
  match Date.of? year month day with
  | some d => .ok d
  | none =>
    if year = 0 ∨ 9999 < year then
      .error (outOfRange ("year " ++ Text.ofNat year ++ " is out of range"))
    else if month = 0 ∨ 12 < month then .error (outOfRange "month must be in 1..12")
    else .error (outOfRange "day is out of range for month")

/-- The time of day of three numbers and the digits of a fraction, six of which count. -/
def timeValue (c : ClockParts) : Except Stop TimeOfDay :=
  let micro := ofDigits 10 ((c.fraction ++ List.replicate 6 0).take 6)
  match TimeOfDay.of? c.hour c.minute c.second micro with
  | some t => .ok t
  | none =>
    if 24 ≤ c.hour then .error (outOfRange "hour must be in 0..23")
    else if 60 ≤ c.minute then .error (outOfRange "minute must be in 0..59")
    else .error (outOfRange "second must be in 0..59")

/-- The offset of a zone, which has to be less than a day. -/
def offsetValue : ZoneMark → Except Stop Int
  | .utc => .ok 0
  | .offset negative hours minutes =>
    let seconds : Int := (hours * 60 + minutes : Nat) * 60
    let offset := if negative then -seconds else seconds
    if 86400 ≤ seconds then
      .error (outOfRange ("offset must be a timedelta strictly between -timedelta(hours=24) and "
        ++ "timedelta(hours=24), not " ++ Timestamp.spanLiteral offset ++ "."))
    else .ok offset

/-- A date, or a date with a time of day. -/
def timestampValue (t : Text) : Except Stop Scalar :=
  match TimestampParts.ofText? (Kind.withoutLineFeed t) with
  | none => .error (.fault .missingOperation)
  | some parts =>
    match parts.clock with
    | none => (dateValue parts.year parts.month parts.day).map .date
    | some clock => do
      let offset ← match clock.zone with
        | some zone => (offsetValue zone).map some
        | none => .ok none
      let date ← dateValue parts.year parts.month parts.day
      let time ← timeValue clock
      .ok (.timestamp { date, time, offset })

def binaryValue (t : Text) : Except Stop Bytes :=
  if t.all (·.code < 0x80) then (Base64.decodeLenient t).mapError fun _ => .malformed
  else .error .malformed

/-- The value of a text that is said to be of some kind. -/
def scalarValue (kind : Kind) (t : Text) : Except Stop Scalar :=
  match kind with
  | .null => .ok .null
  | .bool => (boolValue t).map .bool
  | .int => (intValue t).map .integer
  | .float => (floatValue t).map .float
  | .binary => (binaryValue t).map .bytes
  | .timestamp => timestampValue t
  | .str => .ok (.string t)
  | _ => .error .malformed

def Kind.isScalar (k : Kind) : Bool :=
  [Kind.null, .bool, .int, .float, .binary, .timestamp, .str].contains k

/-- The kinds whose values are built up from parts. -/
def Kind.isCollection (k : Kind) : Bool := [Kind.seq, .map, .set, .omap, .pairs].contains k

/-! ### Collections -/

namespace Node

/-- The text of a node where a scalar is wanted: a mapping may name one by the key `=`. -/
def text? : Node → Option Text
  | scalar _ t => some t
  | mapping _ entries => valueText? entries
  | _ => none
where
  /-- The text of the first entry with the key `=`. -/
  valueText? : List (Node × Node) → Option Text
    | [] => none
    | (k, v) :: rest =>
      match k with
      | scalar .value _ => v.text?
      | _ => valueText? rest

/-- The scalar of a node that is said to be one. A mapping may name any scalar but a timestamp. -/
def scalarOf (kind : Kind) (n : Node) : Except Stop Scalar :=
  match n.text?, kind, n with
  | some _, .timestamp, mapping _ _ =>
    .error (.fault (.wrongType "expected string or bytes-like object, got 'list'"))
  | some t, kind, _ => scalarValue kind t
  | none, _, _ => .error .malformed

/-- The scalar of a node; null where it has none. -/
def scalarOrNull (n : Node) : Scalar :=
  match scalarOf n.kind n with
  | .ok s => s
  | .error _ => .null

/-- What one thing wrong is: the depth at which it comes up, and what follows from it. -/
abbrev Trouble := Nat × Stop

mutual

/-- The value of a node about which nothing is wrong. -/
def value : Node → Value
  | scalar kind t => .scalar (scalarOrNull (scalar kind t))
  | sequence .seq items => .list (itemValues items)
  | sequence .omap items => .list (pairValues items)
  | sequence .pairs items => .list (pairValues items)
  | sequence kind items => .scalar (scalarOrNull (sequence kind items))
  | mapping .map entries => .map (Value.ofPairs (entryValues entries))
  | mapping .set entries =>
    .set ((Value.ofPairs (entryValues entries)).map Prod.fst)
  | mapping kind entries => .scalar (scalarOrNull (mapping kind entries))
  | enclosing _ => .null

def itemValues : List Node → List Value
  | [] => []
  | n :: rest => n.value :: itemValues rest

/-- The pairs of mappings of one entry each. -/
def pairValues : List Node → List Value
  | [] => []
  | mapping _ ((k, v) :: _) :: rest => .tuple [k.value, v.value] :: pairValues rest
  | _ :: rest => pairValues rest

/-- The keys and values of the entries of a mapping. -/
def entryValues : List (Node × Node) → List (Scalar × Value)
  | [] => []
  | (k, v) :: rest => (k.scalarOrNull, v.value) :: entryValues rest

end

/-- The trouble with a node that is said to be a scalar. -/
def scalarTroubles (level : Nat) (n : Node) : List Trouble :=
  match scalarOf n.kind n with
  | .ok _ => []
  | .error stop => [(level, stop)]

mutual

/-- Everything wrong with a node that comes up at a depth. What is wrong inside a collection comes
up one deeper. -/
def troubles (level : Nat) : Node → List Trouble
  | scalar kind t =>
    if kind.isCollection then [(level + 1, .malformed)] else scalarTroubles level (scalar kind t)
  | sequence .seq items => itemTroubles (level + 1) items
  | sequence .omap items => pairTroubles (level + 1) items
  | sequence .pairs items => pairTroubles (level + 1) items
  | sequence kind _ => [(if kind.isCollection then level + 1 else level, .malformed)]
  | mapping .map entries => entryTroubles (level + 1) entries
  | mapping .set entries => entryTroubles (level + 1) entries
  | mapping kind entries =>
    if kind.isCollection then [(level + 1, .malformed)]
    else scalarTroubles level (mapping kind entries)
  | enclosing _ => []

/-- Everything wrong with the items of a sequence. -/
def itemTroubles (level : Nat) : List Node → List Trouble
  | [] => []
  | n :: rest => n.troubles level ++ itemTroubles level rest

/-- Everything wrong with the items of a sequence of pairs. -/
def pairTroubles (level : Nat) : List Node → List Trouble
  | [] => []
  | mapping _ [(k, v)] :: rest => k.troubles level ++ (v.troubles level ++ pairTroubles level rest)
  | _ :: rest => (level, .malformed) :: pairTroubles level rest

/-- Everything wrong with the entries of a mapping, whose keys have to be scalars. -/
def entryTroubles (level : Nat) : List (Node × Node) → List Trouble
  | [] => []
  | (k, v) :: rest =>
    k.troubles level ++ (if k.kind.isScalar then [] else [(level, .malformed)])
      ++ (v.troubles level ++ entryTroubles level rest)

end

mutual

/-- Whether the value of a node would contain itself, because of an alias of a node that encloses it. Of
a set, only the keys are in its value. -/
def isEndless : Node → Bool
  | sequence kind items =>
    if kind = .pairs ∨ kind = .omap then isEndlessPair items else isEndlessItem items
  | mapping .map entries => isEndlessEntry entries
  | enclosing _ => true
  | _ => false

def isEndlessItem : List Node → Bool
  | [] => false
  | n :: rest => n.isEndless || isEndlessItem rest

/-- Whether a part of one of some pairs is endless. -/
def isEndlessPair : List Node → Bool
  | [] => false
  | mapping _ entries :: rest => isEndlessEntry entries || isEndlessPair rest
  | _ :: rest => isEndlessPair rest

/-- Whether a part of one of some entries is endless. -/
def isEndlessEntry : List (Node × Node) → Bool
  | [] => false
  | (k, v) :: rest => k.isEndless || (v.isEndless || isEndlessEntry rest)

end

/-- Of several troubles the one nearest to the root, of those the first. -/
def nearest? : List Trouble → Option Trouble
  | [] => none
  | t :: rest =>
    match nearest? rest with
    | some u => if u.1 < t.1 then some u else some t
    | none => some t

def toValue (n : Node) : Except Stop Value :=
  let n := n.merged
  match nearest? (n.troubles 0) with
  | some (_, stop) => .error stop
  | none => if n.isEndless then .error (.fault .tooDeep) else .ok n.value

end Node

/-- Read a text as a YAML document and take its value; an empty text is null. -/
def parse (t : Text) : Except Stop Value := do
  match ← Node.ofTokens (tokens t) with
  | some n => n.toValue
  | none => .ok .null

end LogQuery.Yaml
