import LogQuery.Config.Read
import LogQuery.Json.Plain
import LogQuery.Runtime
/-!
# Configuration files

Where the configuration is, and what is in it. A file whose name ends in `.yaml` or `.yml` is in
YAML, any other in JSON. Without a file, the variables may make a configuration.
-/
namespace LogQuery

namespace FilePath

/-- The slashes that a path begins with: two are kept, any other number counts as one. -/
def root (path : Text) : Text :=
  match path.takeWhile (· = .scalar '/') with
  | [] => []
  | [_, _] => "//"
  | _ => "/"

/-- The parts of a path; empty ones and single dots do not count. -/
def parts (path : Text) : List Text :=
  (path.splitOn (.scalar '/')).filter fun part => !(part = [] ∨ part = ".")

/-- A path put together from its parts. -/
def ofParts (root : Text) (parts : List Text) : Text :=
  match root ++ Text.join "/" parts with
  | [] => "."
  | path => path

/-- A path in its plain form. -/
def normalize (path : Text) : Text := ofParts (root path) (parts path)

/-- A path in its plain form, a leading tilde replaced by the home directory. -/
def expand (home path : Text) : Except Fault Text :=
  match root path, parts path with
  | [], first :: rest =>
    if first = "~" then .ok (ofParts (root home) (parts home ++ rest))
    else if first.head? = some (.scalar '~') then .error .unknownHome
    else .ok (normalize path)
  | _, _ => .ok (normalize path)

/-- The ending of the name of a file: the last dot in it and what follows, unless the name begins or
ends with that dot. -/
def ending (path : Text) : Text :=
  match Text.cutLast? (.scalar '.') ((parts path).getLast?.getD []) with
  | some (_ :: _, p :: rest) => .scalar '.' :: p :: rest
  | _ => []

end FilePath

/-- What there is at a path. -/
inductive FileEntry where
  | file (content : Bytes)
  /-- Something that cannot be read. -/
  | refused (refusal : Refusal)

namespace ConfigFile

/-- The path of the configuration below the home directory. -/
def defaultPath (home : Text) : Text := home ++ "/.config/logsearch/config.json"

/-- The path of the configuration: the one given, or else the one in a variable, or else the default
one. -/
def path (environ : Environ) (home given : Text) : Except Fault Text :=
  match given, environ.get "LOGSEARCH_CONFIG" with
  | p :: rest, _ => FilePath.expand home (p :: rest)
  | [], p :: rest => FilePath.expand home (p :: rest)
  | [], [] => FilePath.expand home (defaultPath home)

/-- A text with every line end as a line feed. -/
def plainLines : Text → Text
  | [] => []
  | .scalar '\r' :: .scalar '\n' :: rest => .scalar '\n' :: plainLines rest
  | .scalar '\r' :: rest => .scalar '\n' :: plainLines rest
  | p :: rest => p :: plainLines rest

def isYaml (path : Text) : Bool := [".yaml", ".yml"].any (FilePath.ending path).isString

def problem (path : Text) (p : FileProblem) : Failure := .config (.badFile path p)

def readYaml [Runtime] (path : Text) (t : Text) : Except Failure Value :=
  (Runtime.yaml Runtime.frames t).mapError fun
    | .malformed => problem path .yaml
    | .fault (.badValue message) => problem path (.yamlValue message)
    | .fault f => .fault f

def readJson [Runtime] (path : Text) (t : Text) : Except Failure Value :=
  (Json.parse (Runtime.configDepth Runtime.frames) t).mapError fun
    | .tooDeep => .fault .tooDeep
    | e => problem path (.json e)

/-- The last bytes of a file as the beginning of a code point that is cut off there; a surrogate
counts as one here. -/
def isCutOff (content : Bytes) (e : UndecodableBytes) : Bool :=
  e.reason == "unexpected end of data" ||
    (match content.drop e.start with
    | [first, second] => first == 0xed && 0xa0 ≤ second && second < 0xc0
    | _ => false)

/-- Bytes that cannot be decoded. A reader of YAML looks for more behind the end of the file before
it gives up on a code point that is cut off, and then counts from there. -/
def undecodable (path : Text) (content : Bytes) (e : UndecodableBytes) : Failure :=
  problem path (.undecodable
    (if isYaml path && isCutOff content e then { e with start := 0 } else e))

def read [Runtime] (path : Text) (content : Bytes) : Except Failure Value := do
  let t ← (Utf8.strict content).mapError (undecodable path content)
  if isYaml path then readYaml path (plainLines t) else readJson path (plainLines t)

/-- The configuration at a path, given what there is. -/
def load [Runtime] (environ : Environ) (path : Text) (entry : Option FileEntry) : Except Failure Config :=
  match entry with
  | some (.file content) => do
    let v ← read path content
    Config.ofValue environ (v.orElse (.map []))
  | some (.refused refusal) => .error (problem path (.refused refusal path))
  | none => (Config.ofEnviron? environ).getD (.error (problem path .missing))

end ConfigFile
end LogQuery
