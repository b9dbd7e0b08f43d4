import LogQuery.Text.Basic
/-!
# Faults

The ways in which an operation can break down outside the vocabulary of errors that the program
reports to its user. A fault says what was wrong with a value that some basic operation was
given; some faults carry a message, because a report may quote it.
-/
namespace LogQuery

/-- A breakdown of a basic operation. -/
inductive Fault where
  /-- A value of the right type that the operation cannot use. -/
  | badValue (message : Text)
  /-- A number too large for its place. -/
  | overflow (message : Text)
  /-- A place beyond the end of a sequence. -/
  | missingElement
  /-- A key that a table lacks. -/
  | missingKey
  /-- An operation that the type of its argument does not have. -/
  | missingOperation
  /-- A value of the wrong type. -/
  | wrongType (message : Text)
  /-- Text with a lone surrogate that should become bytes. -/
  | unencodable
  /-- Data nested too deeply to be walked. -/
  | tooDeep
  /-- A home directory that nobody knows. -/
  | unknownHome
  deriving DecidableEq

/-- The message of a fault, empty where it has none that a report quotes. -/
def Fault.message : Fault → Text
  | badValue message => message
  | overflow message => message
  | wrongType message => message
  | _ => []

end LogQuery
