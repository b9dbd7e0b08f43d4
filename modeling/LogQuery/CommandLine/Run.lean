import LogQuery.CommandLine.Arguments
import LogQuery.Config.File
import LogQuery.Config.Settings
import LogQuery.Filter.Order
import LogQuery.Filter.Parse
import LogQuery.Retrieval.Basic
/-!
# Running the program

A command line becomes a `Task` by way of the configuration, and the retrieval of that task becomes
what the program prints and its exit code. Everything that the program needs from the outside is in
`World`.
-/
namespace LogQuery.CommandLine

/-- What the program finds when it starts. -/
structure World where
  environ : Environ
  home : Text
  /-- What there is at a path. -/
  files : Text → Option FileEntry
  /-- The standard input. -/
  input : Bytes
  now : Moment
  service : Service

/-- What the program leaves behind. -/
structure Result where
  exitCode : Nat
  output : Bytes := []
  errors : Text := []

/-- How the program ends. -/
inductive Ending where
  | result (r : Result)
  /-- Help is shown, or the usage, and there is only an exit code. -/
  | halted (exitCode : Nat)
  | broken (f : Fault)

/-- Everything that happened while the program ran. -/
structure Session where
  ending : Ending
  requests : List Request := []
  notices : List Notice := []

namespace Arguments

/-- The configuration that the arguments name. -/
def loadConfig [Runtime] (a : Arguments) (w : World) : Except Failure Config := do
  let path ← (ConfigFile.path w.environ w.home a.config).mapError .fault
  ConfigFile.load w.environ path (w.files path)

def readFilters [ZoneDatabase] (a : Arguments) (settings : TimeSettings) (aliases : Aliases) :
    Except Failure (List Filter) := do
  let filters ← (Filter.parseAll a.filters settings aliases).mapError .ofParse
  if a.time = [] then .ok filters
  else do
    let range ← (Filter.parseTimeRange a.time settings timestampField aliases).mapError .ofParse
    .ok (filters ++ [range])

def orderOfSetting (aliases : Aliases) (v : Value) : Except Failure Order :=
  match v with
  | .string t => (Order.parse t aliases).mapError .parse
  | .scalar (.bytes _) => .error (.fault (.wrongType "cannot use a string pattern on bytes"))
  | _ => .error (.fault .missingOperation)

/-- The order of a query: the one of the arguments, or else the one of the environment. -/
def readOrder (a : Arguments) (env : Env) (aliases : Aliases) : Except Failure (Option Order) :=
  let v := Env.preferred a.order env.order
  if v.isTruthy then (orderOfSetting aliases v).map some else .ok none

/-- What a retrieval is asked for. -/
def options (a : Arguments) : Options :=
  { debug := a.debug, raw := a.raw, asCommand := a.asCommand, stored := a.stored,
    decode := a.recursive.map fun t => (t.splitOn (.scalar ',')).map .string }

def task [ZoneDatabase] [Runtime] (a : Arguments) (w : World) : Except Failure Task := do
  let config ← a.loadConfig w
  let env ← (config.env a.env).mapError .config
  let zone ← env.zone a.timezone 0
  let settings : TimeSettings := { zone, format := env.timeFormatFor a.timeFormat, now := w.now }
  let filters ← a.readFilters settings config.aliases
  let order ← a.readOrder env config.aliases
  let profile ← config.output env a.output
  .ok { env, query := { filters, order, limit := env.limitFor a.limit, index := a.index },
        options := a.options, profile }

def run [ZoneDatabase] [Runtime] (a : Arguments) (w : World) : Run :=
  match a.task w with
  | .error e => .failed e
  | .ok task => task.run w.service w.input

end Arguments

def report (message : Text) : Text := "❌ Error: " ++ message ++ "\n"

/-- How the program ends after a retrieval. -/
def Ending.ofOutcome : Except Failure Bytes → Ending
  | .ok output => .result { exitCode := 0, output }
  | .error (.fault f) => .broken f
  | .error .interrupted => .result { exitCode := 130, errors := "\nInterrupted\n" }
  | .error e => .result { exitCode := 1, errors := report e.message }

/-- Run the program. Without a command it has nothing to do. -/
def run [ZoneDatabase] [Runtime] (w : World) (arguments : List Text) : Session :=
  match Command.read arguments with
  | .error .help => { ending := .halted 0 }
  | .error .usage => { ending := .halted 2 }
  | .ok .nothing => { ending := .result { exitCode := 1 } }
  | .ok (.query a) =>
    let r := a.run w
    { ending := .ofOutcome r.outcome, requests := r.requests, notices := r.notices }

end LogQuery.CommandLine
