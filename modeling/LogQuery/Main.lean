import LogQuery.Calendar.Region
import LogQuery.CommandLine.Run
import LogQuery.Runtime.Standard
/-!
# The program

The outer layer: it gathers what the program needs to know of the machine, runs it, and prints what
it leaves behind. There is no way to send a request from here, so every request fails; `--curl`
prints the command that sends one, and `--stdin` shows the response to it.
-/
open LogQuery

namespace LogQuery.Program

attribute [local instance] Region.database Runtime.standard

/-- The text of some bytes; a byte that belongs to no code point becomes a mark. -/
def textOf (bytes : ByteArray) : Text := Utf8.replacing bytes.toList

/-- The contents of a file of the system, empty if there is none. -/
def readSystemFile (path : String) : IO Text := do
  try return textOf (← IO.FS.readBinFile path) catch _ => return []

/-- The variables in the block that the system keeps them in. -/
def environOf (block : Text) : Environ :=
  (block.splitOn (.scalar '\x00')).filterMap (Text.cut? (.scalar '='))

def leadingNumber (t : Text) : Nat := ofDigits 10 (Decimal.digits t).1

/-- Seconds since 1970, from the second at which the machine was started and the time since. -/
def secondsSinceEpoch (stat uptime : Text) : Nat :=
  let started := (stat.splitOn (.scalar '\n')).findSome? (Text.dropPrefix? "btime ")
  leadingNumber (started.getD []) + leadingNumber uptime

/-- The present in universal time. -/
def present (seconds : Nat) : Moment :=
  (Moment.ofWallMicros? (Moment.epoch + seconds * 1000000) .utc false).getD default

def fileEntry (path : Text) : IO (Option FileEntry) := do
  match path.toString? with
  | none => return none
  | some name =>
    try return some (.file (← IO.FS.readBinFile name).toList)
    catch
      | .noFileOrDirectory .. => return none
      | .permissionDenied .. => return some (.refused .permission)
      | _ => return some (.refused .directory)

/-- The file that a command line asks for, if it asks for one. -/
def filesFor (environ : Environ) (home : Text) (arguments : List Text) :
    IO (Text → Option FileEntry) := do
  match CommandLine.Command.read arguments with
  | .ok (.query a) =>
    match ConfigFile.path environ home a.config with
    | .ok path => do
      let entry ← fileEntry path
      return fun p => if p = path then entry else none
    | .error _ => return fun _ => none
  | _ => return fun _ => none

/-- The standard input, if the command line asks for it. -/
def inputFor (arguments : List Text) : IO Bytes := do
  match CommandLine.Command.read arguments with
  | .ok (.query a) =>
    if a.stored then return (← IO.FS.readBinFile "/dev/stdin").toList else return []
  | _ => return []

def world (arguments : List Text) : IO CommandLine.World := do
  let environ := environOf (← readSystemFile "/proc/self/environ")
  let home := environ.get "HOME"
  let stat ← readSystemFile "/proc/stat"
  let uptime ← readSystemFile "/proc/uptime"
  let files ← filesFor environ home arguments
  let input ← inputFor arguments
  return { environ, home, files, input, now := present (secondsSinceEpoch stat uptime),
           service := fun _ _ => .failed "no connection to any service" }

/-- The form of the command line, for one that makes no sense. -/
def usage : String := "usage: logsearch query [-h] [-c CONFIG] [-e ENV] [-f FILTER] [-t TIME] ..."

def noticeLine (n : Notice) : Text :=
  let level : Text := match n.level with
    | .info => "INFO"
    | .warning => "WARNING"
  level ++ " - " ++ n.message

def printError (t : Text) : IO Unit := do
  (← IO.getStderr).putStr ((t.toString?).getD "")

/-- Print what the program leaves behind, and give its exit code. -/
def finish (s : CommandLine.Session) : IO UInt32 := do
  for n in s.notices do printError (noticeLine n ++ "\n")
  match s.ending with
  | .halted code => do
    IO.eprintln usage
    return UInt32.ofNat code
  | .broken f => do
    printError (f.message ++ "\n")
    return 1
  | .result r => do
    printError r.errors
    let output ← IO.getStdout
    output.write ⟨r.output.toArray⟩
    output.flush
    return UInt32.ofNat r.exitCode

end LogQuery.Program

attribute [local instance] Region.database Runtime.standard in
def main (arguments : List String) : IO UInt32 := do
  let arguments := arguments.map Text.ofString
  LogQuery.Program.finish (CommandLine.run (← LogQuery.Program.world arguments) arguments)
