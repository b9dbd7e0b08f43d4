import LogQuery.Value.Basic
/-!
# What the program runs on

Two things that decide what becomes of a text or a value are not part of the program. A machine has a
stack of some size, so lists and maps can be read, walked and written only up to some nesting, which is
less the more of the stack is in use. And documents in YAML are read by a library.

A `Runtime` says how large the stack is, how much of it each piece of work takes, and what the library
makes of a text. Nothing is assumed but that more of the stack is not less room for nesting, and does not
change what the library makes of a text, unless there had been too little of it.
-/
namespace LogQuery

/-- Why a text has no YAML document. -/
inductive Yaml.Stop where
  /-- The text is not well-formed, or says something that makes no sense. -/
  | malformed
  | fault (f : Fault)
  deriving DecidableEq

/-- A stack and a library. -/
class Runtime where
  /-- The frames of the stack that are left where pages are read and the fields of records are walked. -/
  frames : Nat
  /-- The frames that each level of lists and maps takes while a value is walked. -/
  levelFrames : Nat
  /-- The frames that looking at a string takes, in addition to the one of the walk. -/
  callFrames : Nat
  /-- How many levels of nesting a page may have, with some frames left. -/
  pageDepth : (frames : Nat) → Nat
  /-- How many levels of nesting a document inside a string may have, with some frames left there. -/
  textDepth : (frames : Nat) → Nat
  /-- How many levels of nesting a record may have to be written. -/
  writeDepth : (frames : Nat) → Nat
  /-- How many levels of nesting a configuration may have. -/
  configDepth : (frames : Nat) → Nat
  /-- What a text is in YAML, with some frames left. A document that contains itself, or with more levels
  than can be walked, is too deep. -/
  yaml : (frames : Nat) → Text → Except Yaml.Stop Value
  pageDepth_mono : ∀ {m n}, m ≤ n → pageDepth m ≤ pageDepth n
  textDepth_mono : ∀ {m n}, m ≤ n → textDepth m ≤ textDepth n
  writeDepth_mono : ∀ {m n}, m ≤ n → writeDepth m ≤ writeDepth n
  yaml_steady : ∀ {m n t}, m ≤ n → yaml m t ≠ .error (.fault .tooDeep) → yaml n t = yaml m t

namespace Runtime

/-- The runtime as it is some frames deeper in the stack. -/
@[reducible]
def deeper (r : Runtime) (n : Nat) : Runtime := { r with frames := r.frames - n }

end Runtime
end LogQuery
