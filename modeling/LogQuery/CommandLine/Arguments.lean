import LogQuery.CommandLine.Word
import LogQuery.Number.Integer
/-!
# Arguments

What a command line asks for. There is one command, under two names; its flags follow it. Flags
without a value can share a dash, and the value of a flag may be attached to it or be the next word.

Reading goes from left to right and stops at the first word that is wrong, or at a request for help.
A word that belongs nowhere is only noted (`Reading.stray`), because a request for help may still
follow it.
-/
namespace LogQuery.CommandLine

/-- What the flags of a query say. -/
structure Arguments where
  config : Text := []
  env : Text := []
  output : Text := []
  index : Text := []
  timezone : Text := []
  timeFormat : Text := []
  time : Text := []
  order : Text := []
  filters : List Text := []
  limit : Int := 0
  /-- Decode targets, with commas between them. -/
  recursive : Option Text := none
  debug : Bool := false
  stored : Bool := false
  asCommand : Bool := false
  raw : Bool := false

/-- Why reading a command line stops early. -/
inductive Halt where
  | help
  /-- The command line makes no sense. -/
  | usage
  deriving DecidableEq

/-- What a command line asks for. -/
inductive Command where
  | nothing
  | query (arguments : Arguments)

namespace Arguments

/-- The arguments with a flag set, to a value if it takes one. -/
def set (a : Arguments) (f : Flag) (value : Text) : Except Halt Arguments :=
  match f with
  | .help => .error .help
  | .config => .ok { a with config := value }
  | .env => .ok { a with env := value }
  | .output => .ok { a with output := value }
  | .index => .ok { a with index := value }
  | .debug => .ok { a with debug := true }
  | .stdin => .ok { a with stored := true }
  | .timezone => .ok { a with timezone := value }
  | .timeformat => .ok { a with timeFormat := value }
  | .filter => .ok { a with filters := a.filters ++ [value] }
  | .curl => .ok { a with asCommand := true }
  | .raw => .ok { a with raw := true }
  | .limit =>
    match Integer.read 10 value with
    | .ok n => .ok { a with limit := n }
    | .error _ => .error .usage
  | .recursive => .ok { a with recursive := some value }
  | .time => .ok { a with time := value }
  | .orderby => .ok { a with order := value }

def setAll : Arguments → List (Flag × Text) → Except Halt Arguments
  | a, [] => .ok a
  | a, (f, value) :: rest => do
    let a ← a.set f value
    setAll a rest

end Arguments

/-- The flags that share a dash, each with its value. -/
structure Cluster where
  set : List (Flag × Text) := []
  /-- The last flag, which has its value in the next word. -/
  pending : Option Flag := none
  /-- There is a letter that is no flag. -/
  stray : Bool := false

namespace Cluster

def push (f : Flag) (c : Cluster) : Cluster := { c with set := (f, []) :: c.set }

/-- A flag with nothing attached. -/
def ofBare (f : Flag) : Cluster :=
  if f.takesValue then { pending := some f } else { set := [(f, [])] }

/-- Whether further flags may be attached to a flag. -/
def sharesDash (byLetter equals : Bool) (letter : CodePoint) : Bool :=
  byLetter && !equals && letter ≠ .scalar '-'

/-- The flags in a word that begins with a flag. What is attached to a flag is its value or, if it
takes none and is a letter, further flags. -/
def ofAttached (flags : List Flag) (f : Flag) (byLetter equals : Bool) :
    (text : Text) → Except Halt Cluster
  | [] => if f.takesValue then .ok { set := [(f, [])] } else .error .usage
  | letter :: rest =>
    if f.takesValue then .ok { set := [(f, letter :: rest)] }
    else if sharesDash byLetter equals letter then
      match Flag.ofLetter? flags letter, rest with
      | none, _ => .ok { set := [(f, [])], stray := true }
      | some next, [] => .ok (push f (ofBare next))
      | some next, .scalar '=' :: text => (ofAttached flags next true true text).map (push f)
      | some next, p :: text => (ofAttached flags next true false (p :: text)).map (push f)
    else .error .usage

/-- The flags in a word that begins with a flag. -/
def ofFlag (flags : List Flag) (f : Flag) (byLetter : Bool) : Option Attached → Except Halt Cluster
  | none => .ok (ofBare f)
  | some a => ofAttached flags f byLetter a.equals a.text

end Cluster

/-- What has been read, and whether a word belonged nowhere. -/
structure Reading where
  arguments : Arguments := {}
  stray : Bool := false

namespace Reading

/-- What has been read, with a cluster of flags set. -/
def set (r : Reading) (flags : List (Flag × Text)) (stray : Bool) : Except Halt Reading :=
  (r.arguments.setAll flags).map fun arguments => { arguments, stray := r.stray || stray }

def readWords : Reading → List Word → Except Halt Reading
  | r, [] => .ok r
  | r, .flag f byLetter attached :: rest => do
    let c ← Cluster.ofFlag Flag.ofQuery f byLetter attached
    match c.pending, rest with
    | none, rest => do
      let r ← r.set c.set c.stray
      readWords r rest
    | some f, .value t :: rest => do
      let r ← r.set (c.set ++ [(f, t)]) c.stray
      readWords r rest
    | some _, _ => .error .usage
  | r, _ :: rest => readWords { r with stray := true } rest

def read (texts : List Text) : Except Halt Reading :=
  match Word.ofTexts? Flag.ofQuery texts with
  | none => .error .usage
  | some words => readWords {} words

/-- The arguments, if every word belonged somewhere. -/
def finish (r : Reading) : Except Halt Arguments :=
  if r.stray then .error .usage else .ok r.arguments

end Reading

namespace Command

def names : List String := ["query", "q"]

def readCommand (stray : Bool) (name : Text) (rest : List Text) : Except Halt Command := do
  if names.any name.isString then
    let r ← Reading.read rest
    ({ r with stray := r.stray || stray } : Reading).finish.map .query
  else .error .usage

/-- Read a command line, some words of which belonged nowhere. -/
def readFrom : (stray : Bool) → List Text → Except Halt Command
  | stray, [] => if stray then .error .usage else .ok .nothing
  | stray, t :: rest =>
    match Word.ofText? Flag.general t with
    | some (.value name) => readCommand stray name rest
    | some (.flag f byLetter attached) => do
      let c ← Cluster.ofFlag Flag.general f byLetter attached
      let _ ← Arguments.setAll {} c.set
      readFrom (stray || c.stray) rest
    | some .unknown => readFrom true rest
    | some .separator => .error .usage
    | none => .error .usage

def read (texts : List Text) : Except Halt Command := readFrom false texts

end Command
end LogQuery.CommandLine
