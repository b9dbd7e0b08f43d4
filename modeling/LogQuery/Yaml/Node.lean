import LogQuery.Yaml.Tag
import LogQuery.Yaml.Token
/-!
# YAML nodes

The tree that the tokens of a YAML text spell: scalars, sequences and mappings, each of some kind.
An alias stands for the node with its anchor; where that node encloses the alias, the tree would
be endless, and `Node.enclosing` marks the place and says which of the enclosing nodes it is.

The functions read the tokens from the front and return what is left. `Node.ofTokens` reads a text
of at most one document.
-/
namespace LogQuery.Yaml

/-- A node of a document. -/
inductive Node where
  | scalar (kind : Kind) (text : Text)
  | sequence (kind : Kind) (items : List Node)
  | mapping (kind : Kind) (entries : List (Node × Node))
  /-- An alias of a node that encloses it, so many levels up. -/
  | enclosing (levels : Nat)
  deriving Inhabited

/-- How deeply nodes may be nested. -/
def maxDepth : Nat := 400

/-- What an anchor is for: a node, or the node at some depth that is being read. -/
inductive Anchored where
  | read (node : Node)
  | openAt (depth : Nat)

/-- What is left to be read, and the anchors so far. -/
structure Reader where
  tokens : List Token
  anchors : List (Text × Anchored) := []

namespace Reader

/-- Why reading stops at a token that has no place here. -/
def unexpected (r : Reader) : Stop :=
  match r.tokens with
  | .broken s :: _ => s
  | _ => .malformed

def drop (r : Reader) : Reader := { r with tokens := r.tokens.tail }

def isAt (r : Reader) (tokens : List Token) : Bool := r.tokens.head?.any tokens.contains

def expect (r : Reader) (t : Token) : Except Stop Reader :=
  if r.isAt [t] then .ok r.drop else .error r.unexpected

def anchor (r : Reader) (name : Option Text) (anchored : Anchored) : Reader :=
  match name with
  | some name => { r with anchors := (name, anchored) :: r.anchors }
  | none => r

/-- The node that an alias at some depth stands for. -/
def resolveAlias (r : Reader) (depth : Nat) (name : Text) : Except Stop Node :=
  match Text.lookup? name r.anchors with
  | some (.read node) => .ok node
  | some (.openAt above) => .ok (.enclosing (above - depth))
  | none => .error .malformed

end Reader

/-- What stands in front of a node. -/
structure Properties where
  anchor : Option Text := none
  tag : Option Text := none

/-- A tag written out in full, given the expansions of handles. -/
def expandTag (handles : List (Text × Text)) (handle : Option Text) (suffix : Text) :
    Except Stop Text :=
  match handle with
  | none => .ok suffix
  | some handle =>
    match Text.lookup? handle handles with
    | some expansion => .ok (expansion ++ suffix)
    | none => .error .malformed

/-- Read an anchor and a tag in either order. -/
def properties (handles : List (Text × Text)) (r : Reader) : Except Stop (Properties × Reader) :=
  match r.tokens with
  | .anchor a :: .tag h s :: rest => do
    let tag ← expandTag handles h s
    .ok ({ anchor := some a, tag := some tag }, { r with tokens := rest })
  | .tag h s :: .anchor a :: rest => do
    let tag ← expandTag handles h s
    .ok ({ anchor := some a, tag := some tag }, { r with tokens := rest })
  | .anchor a :: rest => .ok ({ anchor := some a }, { r with tokens := rest })
  | .tag h s :: rest => do
    let tag ← expandTag handles h s
    .ok ({ tag := some tag }, { r with tokens := rest })
  | _ => .ok ({}, r)

namespace Properties

/-- The tag, unless it is the one that says nothing. -/
def ownTag (p : Properties) : Option Text := p.tag.filter (· ≠ Text.single '!')

/-- The kind of a scalar: its tag says it, or else the look of a plain one. An exclamation mark
alone makes a quoted scalar a plain one. -/
def scalarKind (p : Properties) (text : Text) (plain : Bool) : Kind :=
  match p.ownTag with
  | some tag => .ofTag tag
  | none => if plain || p.tag.isSome then .ofPlain text else .str

def collectionKind (p : Properties) (default : Kind) : Kind :=
  match p.ownTag with
  | some tag => .ofTag tag
  | none => default

/-- Whether there is anything in front of the node. -/
def isEmpty (p : Properties) : Bool := p.anchor.isNone && p.tag.isNone

end Properties

def Node.empty : Node := .scalar .null []

/-- Where a node stands: in a flow collection, or in block context, where a sequence may do without
indentation behind a key. -/
inductive Context where
  | flow
  | block
  | afterKey
  deriving DecidableEq

mutual

def node (handles : List (Text × Text)) : (fuel depth : Nat) → Context → Reader →
    Except Stop (Node × Reader)
  | 0, _, _, _ => .error .malformed
  | _ + 1, 0, _, _ => .error (.fault .tooDeep)
  | fuel + 1, depth + 1, context, r =>
    match r.tokens with
    | .alias name :: _ => do
      let n ← r.resolveAlias depth name
      .ok (n, r.drop)
    | _ => do
      let (p, r) ← properties handles r
      if p.anchor.any fun a => (Text.lookup? a r.anchors).isSome then .error .malformed
      else do
        let opened := r.anchor p.anchor (.openAt depth)
        let (n, r) ← content handles fuel depth context p opened
        .ok (n, r.anchor p.anchor (.read n))

/-- Read a node behind its anchor and tag. -/
def content (handles : List (Text × Text)) : (fuel depth : Nat) → Context → Properties → Reader →
    Except Stop (Node × Reader)
  | 0, _, _, _, _ => .error .malformed
  | fuel + 1, depth, context, p, r =>
    match r.tokens, context with
    | .blockEntry :: _, .afterKey => do
      let (items, r) ← indentlessItems handles fuel depth r
      .ok (.sequence (p.collectionKind .seq) items, r)
    | .scalar text plain :: _, _ => .ok (.scalar (p.scalarKind text plain) text, r.drop)
    | .flowSequenceStart :: _, _ => do
      let (items, r) ← flowItems handles fuel depth true r.drop
      .ok (.sequence (p.collectionKind .seq) items, r)
    | .flowMappingStart :: _, _ => do
      let (entries, r) ← flowEntries handles fuel depth true r.drop
      .ok (.mapping (p.collectionKind .map) entries, r)
    | .blockSequenceStart :: _, .block | .blockSequenceStart :: _, .afterKey => do
      let (items, r) ← blockItems handles fuel depth r.drop
      .ok (.sequence (p.collectionKind .seq) items, r)
    | .blockMappingStart :: _, .block | .blockMappingStart :: _, .afterKey => do
      let (entries, r) ← blockEntries handles fuel depth r.drop
      .ok (.mapping (p.collectionKind .map) entries, r)
    | _, _ =>
      if p.isEmpty then .error r.unexpected else .ok (.scalar (p.scalarKind [] true) [], r)

/-- Read a node unless one of some tokens shows that there is none. -/
def optional (handles : List (Text × Text)) : (fuel depth : Nat) → Context → List Token →
    Reader → Except Stop (Node × Reader)
  | 0, _, _, _, _ => .error .malformed
  | fuel + 1, depth, context, ends, r =>
    if r.isAt ends then .ok (.empty, r) else node handles fuel depth context r

/-- Read the items of a block sequence, and its end. -/
def blockItems (handles : List (Text × Text)) : (fuel depth : Nat) → Reader →
    Except Stop (List Node × Reader)
  | 0, _, _ => .error .malformed
  | fuel + 1, depth, r =>
    if r.isAt [.blockEntry] then do
      let (n, r) ← optional handles fuel depth .block [.blockEntry, .blockEnd] r.drop
      let (ns, r) ← blockItems handles fuel depth r
      .ok (n :: ns, r)
    else do
      let r ← r.expect .blockEnd
      .ok ([], r)

/-- Read the items of a block sequence that is not indented. -/
def indentlessItems (handles : List (Text × Text)) : (fuel depth : Nat) → Reader →
    Except Stop (List Node × Reader)
  | 0, _, _ => .error .malformed
  | fuel + 1, depth, r =>
    if r.isAt [.blockEntry] then do
      let (n, r) ← optional handles fuel depth .block [.blockEntry, .key, .value, .blockEnd] r.drop
      let (ns, r) ← indentlessItems handles fuel depth r
      .ok (n :: ns, r)
    else .ok ([], r)

/-- Read the entries of a block mapping, and its end. -/
def blockEntries (handles : List (Text × Text)) : (fuel depth : Nat) → Reader →
    Except Stop (List (Node × Node) × Reader)
  | 0, _, _ => .error .malformed
  | fuel + 1, depth, r =>
    if r.isAt [.key] then do
      let (k, r) ← optional handles fuel depth .afterKey [.key, .value, .blockEnd] r.drop
      let (v, r) ←
        if r.isAt [.value] then
          optional handles fuel depth .afterKey [.key, .value, .blockEnd] r.drop
        else .ok (.empty, r)
      let (rest, r) ← blockEntries handles fuel depth r
      .ok ((k, v) :: rest, r)
    else do
      let r ← r.expect .blockEnd
      .ok ([], r)

/-- Read the items of a flow sequence, and its end. An item that begins with a key is a mapping
of one entry. -/
def flowItems (handles : List (Text × Text)) : (fuel depth : Nat) → (first : Bool) → Reader →
    Except Stop (List Node × Reader)
  | 0, _, _, _ => .error .malformed
  | fuel + 1, depth, first, r =>
    if r.isAt [.flowSequenceEnd] then .ok ([], r.drop)
    else do
      let r ← if first then .ok r else r.expect .flowEntry
      if r.isAt [.flowSequenceEnd] then .ok ([], r.drop)
      else do
        let (n, r) ←
          if r.isAt [.key] then flowPair handles fuel depth r.drop
          else node handles fuel depth .flow r
        let (ns, r) ← flowItems handles fuel depth false r
        .ok (n :: ns, r)

/-- Read a mapping of one entry inside a flow sequence. -/
def flowPair (handles : List (Text × Text)) : (fuel depth : Nat) → Reader →
    Except Stop (Node × Reader)
  | 0, _, _ => .error .malformed
  | _ + 1, 0, _ => .error (.fault .tooDeep)
  | fuel + 1, depth + 1, r => do
    let (k, r) ← optional handles fuel depth .flow [.value, .flowEntry, .flowSequenceEnd] r
    let (v, r) ←
      if r.isAt [.value] then
        optional handles fuel depth .flow [.flowEntry, .flowSequenceEnd] r.drop
      else .ok (.empty, r)
    .ok (.mapping .map [(k, v)], r)

/-- Read the entries of a flow mapping, and its end. -/
def flowEntries (handles : List (Text × Text)) : (fuel depth : Nat) → (first : Bool) → Reader →
    Except Stop (List (Node × Node) × Reader)
  | 0, _, _, _ => .error .malformed
  | fuel + 1, depth, first, r =>
    if r.isAt [.flowMappingEnd] then .ok ([], r.drop)
    else do
      let r ← if first then .ok r else r.expect .flowEntry
      if r.isAt [.flowMappingEnd] then .ok ([], r.drop)
      else do
        let ((k, v), r) ← flowEntry handles fuel depth r
        let (rest, r) ← flowEntries handles fuel depth false r
        .ok ((k, v) :: rest, r)

/-- Read an entry of a flow mapping. A node that is no key has no value. -/
def flowEntry (handles : List (Text × Text)) : (fuel depth : Nat) → Reader →
    Except Stop ((Node × Node) × Reader)
  | 0, _, _ => .error .malformed
  | fuel + 1, depth, r =>
    if r.isAt [.key] then do
      let (k, r) ← optional handles fuel depth .flow [.value, .flowEntry, .flowMappingEnd] r.drop
      let (v, r) ←
        if r.isAt [.value] then
          optional handles fuel depth .flow [.flowEntry, .flowMappingEnd] r.drop
        else .ok (.empty, r)
      .ok ((k, v), r)
    else do
      let (k, r) ← node handles fuel depth .flow r
      .ok ((k, .empty), r)

end

/-- The expansions of the handles that every document knows. -/
def standardHandles : List (Text × Text) :=
  [(Text.single '!', Text.single '!'), (Text.ofString "!!", tagRoot)]

/-- Read the directives in front of a document: the expansions of the handles. -/
def directives : (version : Bool) → (handles : List (Text × Text)) → List Token →
    Except Stop (List (Text × Text) × List Token)
  | version, handles, .versionDirective major :: rest =>
    if version || major ≠ 1 then .error .malformed else directives true handles rest
  | version, handles, .tagDirective handle expansion :: rest =>
    if (Text.lookup? handle handles).isSome then .error .malformed
    else directives version ((handle, expansion) :: handles) rest
  | version, handles, .otherDirective :: rest => directives version handles rest
  | _, handles, rest => .ok (handles ++ standardHandles, rest)

/-- Read the node of a document and check that no further document follows. -/
def onlyDocument (handles : List (Text × Text)) (tokens : List Token) : Except Stop Node := do
  let (n, r) ← node handles (4 * tokens.length + 4) maxDepth .block { tokens }
  let rest := r.tokens.dropWhile (· = .documentEnd)
  let _ ← { r with tokens := rest }.expect .streamEnd
  .ok n

/-- Whether a document is over before it has begun. -/
def endsDocument : Token → Bool
  | .versionDirective _ | .tagDirective _ _ | .otherDirective => true
  | .documentStart | .documentEnd | .streamEnd => true
  | _ => false

/-- The document of some tokens; none for an empty text. -/
def Node.ofTokens (tokens : List Token) : Except Stop (Option Node) :=
  match tokens with
  | .streamEnd :: _ => .ok none
  | .documentEnd :: _ => .error .malformed
  | _ =>
    if tokens.head?.any endsDocument then do
      let (handles, rest) ← directives false [] tokens
      let r ← Reader.expect { tokens := rest } .documentStart
      if r.tokens.head?.any endsDocument then do
        let rest := r.tokens.dropWhile (· = .documentEnd)
        let _ ← Reader.expect { tokens := rest } .streamEnd
        .ok (some .empty)
      else (onlyDocument handles r.tokens).map some
    else (onlyDocument standardHandles tokens).map some

end LogQuery.Yaml
