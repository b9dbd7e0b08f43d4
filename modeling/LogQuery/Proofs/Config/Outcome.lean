import LogQuery.Calendar.Region
import LogQuery.CommandLine.Run
import LogQuery.Proofs.Config.Fault
import LogQuery.Runtime.Standard
/-!
# What becomes of a configuration

A configuration is accepted, or an error says why it is not, or it breaks down. An error comes to whoever
runs the program as a report, and the program ends with an exit code of one. A breakdown is not reported.

* `IsOfConfig`, `failsOfConfig_ofValue`: the only failures there are, function by function.
* `run_of_not_loaded`: an error ends the program with a report.
* `ofValue_outcomes`: what becomes of a configuration.
* `configs_break`: configurations that break down, one for each kind of fault.
-/
namespace LogQuery.Config

variable {environ : Environ} {v : Value}

/-! ## Errors of configurations -/

/-- The failures of configurations: errors of their own, and faults. -/
inductive IsOfConfig : Failure → Prop
  | config (e : ConfigError) : IsOfConfig (.config e)
  | fault (f : Fault) : IsOfConfig (.fault f)

/-- Whatever goes wrong is a failure of configurations. -/
def FailsOfConfig {α : Type} (x : Except Failure α) : Prop := ∀ e, x = .error e → IsOfConfig e

theorem IsOfConfig.naming {e : Failure} (h : IsOfConfig e) (v : Value) : IsOfConfig (e.naming v) := by
  cases h with
  | config e =>
    rw [Failure.naming]
    split
    · exact .config e
    · exact .fault _
  | fault f => exact .fault f

namespace FailsOfConfig

variable {α β : Type} {x : Except Failure α}

theorem ok (a : α) : FailsOfConfig (.ok a : Except Failure α) := nofun

theorem error {e : Failure} (h : IsOfConfig e) : FailsOfConfig (.error e : Except Failure α) := by
  intro e' h'
  cases h'
  exact h

theorem mapError {ε : Type} {g : ε → Failure} (hg : ∀ e, IsOfConfig (g e)) (y : Except ε α) :
    FailsOfConfig (y.mapError g) := by
  intro e h
  obtain ⟨cause, -, rfl⟩ := eq_error_of_mapError h
  exact hg cause

theorem mapFault (y : Except Fault α) : FailsOfConfig (y.mapError .fault) := mapError .fault y

theorem naming (hx : FailsOfConfig x) (v : Value) : FailsOfConfig (x.mapError (.naming v)) := by
  intro e h
  obtain ⟨cause, hcause, rfl⟩ := eq_error_of_mapError h
  exact (hx cause hcause).naming v

theorem bind {g : α → Except Failure β} (hx : FailsOfConfig x) (hg : ∀ a, FailsOfConfig (g a)) :
    FailsOfConfig (x >>= g) := by
  intro e h
  rcases eq_error_of_bind h with h | ⟨a, -, h⟩
  · exact hx e h
  · exact hg a e h

theorem map {g : α → β} (hx : FailsOfConfig x) : FailsOfConfig (x.map g) :=
  fun e h => hx e (map_eq_error_iff.mp h)

theorem mapM {g : α → Except Failure β} (hg : ∀ a, FailsOfConfig (g a)) (xs : List α) :
    FailsOfConfig (xs.mapM g) := by
  intro e h
  obtain ⟨a, -, ha⟩ := eq_error_of_mapM h
  exact hg a e ha

end FailsOfConfig

theorem failsOfConfig_headerValue (env header : Text) (spec : Value) :
    FailsOfConfig (Authorization.headerValue environ env header spec) := by
  unfold Authorization.headerValue
  split
  · exact .ok _
  · exact .mapFault _
  · unfold Authorization.namedVariable
    split
    · split
      · split
        · exact .ok _
        · exact .error (.config _)
      · exact .error (.fault _)
    · exact .error (.fault _)
  · exact .error ((IsOfConfig.config _).naming _)

theorem failsOfConfig_basicToken (basic : Value) : FailsOfConfig (Authorization.basicToken basic) := by
  refine .bind (.mapFault _) fun user => .bind (.mapFault _) fun user => .bind (.mapFault _) fun password =>
    .bind (.mapFault _) fun password => ?_
  split
  · exact .ok _
  · exact .error (.fault _)

theorem failsOfConfig_address (id : Text) : FailsOfConfig (CloudId.address id) := by
  unfold CloudId.address
  split
  · split
    · exact .mapError (fun e => .config _) _
    · exact .error (.fault _)
  · exact .error (.config _)

theorem failsOfConfig_addressFor (env : Text) (id : Value) :
    FailsOfConfig (Authorization.addressFor env id) := by
  unfold Authorization.addressFor
  split
  next id =>
    intro e h
    obtain ⟨cause, hcause, rfl⟩ := eq_error_of_mapError h
    cases failsOfConfig_address id cause hcause with
    | config e => cases e <;> exact .config _
    | fault f => exact .fault f
  next => exact .error (.fault _)
  next => exact .error (.fault _)

theorem failsOfConfig_cloudAccess (env : Text) (cloud : Value) :
    FailsOfConfig (Authorization.cloudAccess env cloud) := by
  cases htable : cloud.isTable with
  | false =>
    rw [Authorization.cloudAccess_of_not_table htable]
    exact .error (.fault _)
  | true =>
    obtain ⟨id, hid⟩ := Value.exists_entryOr htable "cloud_id" (.string [])
    obtain ⟨key, hkey⟩ := Value.exists_entryOr htable "api_key" (.string [])
    rw [Authorization.cloudAccess_eq hid hkey]
    exact .bind (failsOfConfig_addressFor env id) fun _ => .map (.mapFault _)

theorem failsOfConfig_resolve (env : Text) (table : Value) (endpoints : List Text) :
    FailsOfConfig (Authorization.resolve environ env table endpoints) := by
  have hheaders : FailsOfConfig (Authorization.ownHeaders environ env table) :=
    .bind (.mapFault _) (.mapM fun b => .map (.naming (failsOfConfig_headerValue env _ b.2) _))
  intro e h
  rcases Authorization.resolve_eq_error_iff.mp h with
    h | ⟨_, basic, -, -, ⟨-, h⟩ | ⟨-, cloud, -, -, h⟩⟩
  · exact hheaders e h
  · exact failsOfConfig_basicToken basic e h
  · exact failsOfConfig_cloudAccess env cloud e h

theorem failsOfConfig_env (name : Scalar) (table : Value) :
    FailsOfConfig (Env.ofValue environ name table) := by
  have hsource : FailsOfConfig (Env.readSource name table) := by
    refine .bind (.mapFault _) fun source => ?_
    split
    · split
      · exact .ok _
      · exact .error ((IsOfConfig.config _).naming _)
    · exact .ok _
  have hnumber : ∀ f, IsOfConfig (Env.numberFailure name f) := by
    intro f
    cases f <;> first | exact .fault _ | exact .config _
  have hnumbers : FailsOfConfig (Env.readNumbers name table) :=
    .bind (.mapFault _) fun limit => .bind (.mapError hnumber _) fun limit =>
      .bind (.mapFault _) fun timeout => .bind (.mapError hnumber _) fun timeout => .ok _
  refine .naming (fun e h => ?_) _
  rcases Env.ofTable_eq_error_iff.mp h with
    h | ⟨b, -, h | ⟨endpoints, v, -, -, h | ⟨shown, -, h⟩⟩⟩
  · exact hsource e h
  · exact FailsOfConfig.mapFault _ e h
  · exact failsOfConfig_resolve _ _ _ e h
  · exact hnumbers e h

theorem failsOfConfig_profile (name : Scalar) (table : Value) :
    FailsOfConfig (Profile.ofValue name table) := by
  intro e h
  rcases Profile.ofValue_eq_error_iff.mp h with
    ⟨-, rfl⟩ | ⟨_, _, _, -, -, -, h | ⟨_, -, h | ⟨_, -, h⟩⟩⟩
  · exact .fault _
  · rcases Profile.readTargets_eq_error_iff.mp h with ⟨-, rfl⟩ | ⟨-, cause, -, rfl⟩
    · exact .fault _
    · exact (IsOfConfig.config _).naming _
  · obtain ⟨-, f, -, rfl⟩ := Profile.readFields_eq_error_iff.mp h
    exact .fault f
  · obtain ⟨-, f, -, rfl⟩ := Profile.readFields_eq_error_iff.mp h
    exact .fault f

theorem failsOfConfig_part {α : Type} {read : Scalar → Value → Except Failure α}
    (hread : ∀ name table, FailsOfConfig (read name table)) (v : Value) (key : String) :
    FailsOfConfig (part read v key) := by
  refine .bind (.map (.mapFault _)) fun ts e h => ?_
  obtain ⟨_, t, _, -, -, h⟩ := readAll_eq_error_iff.mp h
  exact hread t.1 t.2 e h

theorem failsOfConfig_validate (c : Config) : FailsOfConfig c.validate := by
  have hone : ∀ (names : List Scalar) (error : List Text → ConfigError),
      FailsOfConfig (oneDefault names error) := by
    intro names error e h
    unfold oneDefault at h
    split at h
    · cases h
    · cases h
    · rcases eq_error_of_bind h with h | ⟨_, -, h⟩
      · obtain ⟨s, -, hs⟩ := eq_error_of_mapM h
        obtain ⟨-, rfl⟩ := asListed_eq_error_iff.mp hs
        exact .fault _
      · cases h
        exact .config _
  refine .bind (hone _ _) fun _ => .bind (hone _ _) fun _ => ?_
  unfold haveEndpoints
  split
  next name env _ => exact .error ((IsOfConfig.config _).naming (.scalar name))
  next => exact .ok _

/-- **Whatever is wrong** with a configuration is reported as an error of configurations, or it is a
fault. -/
theorem failsOfConfig_ofValue (environ : Environ) (v : Value) : FailsOfConfig (ofValue environ v) := by
  unfold ofValue
  split
  · refine .bind ?_ fun c => .bind (failsOfConfig_validate c) fun _ => .ok _
    rw [readTables_eq]
    exact .bind (failsOfConfig_part failsOfConfig_env _ _) fun envs =>
      .bind (failsOfConfig_part failsOfConfig_profile _ _) fun outputs =>
        .bind (.mapFault _) fun entries => .bind (.mapFault _) fun aliases => .ok _
  · exact .error (.config _)

/-! ## What becomes of a configuration -/

theorem run_of_not_loaded [ZoneDatabase] [Runtime] {w : CommandLine.World} {arguments : List Text}
    {a : CommandLine.Arguments} {e : ConfigError}
    (hread : CommandLine.Command.read arguments = .ok (.query a))
    (h : a.loadConfig w = .error (.config e)) :
    CommandLine.run w arguments
      = { ending := .result { exitCode := 1, errors := CommandLine.report e.message } } := by
  have htask : a.task w = .error (.config e) := by
    rw [CommandLine.Arguments.task, h]
    rfl
  have hrun : a.run w = .failed (.config e) := by
    rw [CommandLine.Arguments.run, htask]
  simp only [CommandLine.run, hread, hrun]
  rfl

theorem loadConfig_eq [Runtime] {w : CommandLine.World} {a : CommandLine.Arguments} {path : Text}
    {content : Bytes}
    (hpath : ConfigFile.path w.environ w.home a.config = .ok path)
    (hfile : w.files path = some (.file content)) (hread : ConfigFile.read path content = .ok v) :
    a.loadConfig w = ofValue w.environ (v.orElse (.map [])) := by
  rw [CommandLine.Arguments.loadConfig, hpath]
  show ConfigFile.load w.environ path (w.files path) = _
  rw [hfile, ConfigFile.load, hread]
  rfl

/-- **What becomes of a configuration.** A value of any kind is a configuration that passes its check, or an
error says why it is not, or it breaks down. It breaks down exactly if it is a table and the first of its
parts that is not read breaks down. If it comes from a file and an error says what is wrong with it, then
whoever runs the program gets that error, and the program ends with an exit code of one. -/
theorem ofValue_outcomes [ZoneDatabase] [Runtime] (environ : Environ) (v : Value) :
    (∀ f, ofValue environ v = .error (.fault f) ↔ v.isTable = true ∧ Breaks environ v f) ∧
    ((∃ c, ofValue environ v = .ok c ∧ c.validate = .ok ()) ∨
      (∃ e, ofValue environ v = .error (.config e)) ∨ ∃ f, ofValue environ v = .error (.fault f)) ∧
    ∀ (w : CommandLine.World) (arguments : List Text) (a : CommandLine.Arguments) (path : Text)
      (content : Bytes) (found : Value) (e : ConfigError), w.environ = environ →
      CommandLine.Command.read arguments = .ok (.query a) →
      ConfigFile.path w.environ w.home a.config = .ok path → w.files path = some (.file content) →
      ConfigFile.read path content = .ok found → found.orElse (.map []) = v →
      ofValue environ v = .error (.config e) →
      CommandLine.run w arguments
        = { ending := .result { exitCode := 1, errors := CommandLine.report e.message } } := by
  refine ⟨fun f => ofValue_eq_fault, ?_, ?_⟩
  · cases h : ofValue environ v with
    | ok c => exact Or.inl ⟨c, rfl, validate_eq_ok_iff.mpr (ofValue_eq_ok_iff.mp h).valid⟩
    | error e =>
      cases failsOfConfig_ofValue environ v e h with
      | config e => exact Or.inr (Or.inl ⟨e, rfl⟩)
      | fault f => exact Or.inr (Or.inr ⟨f, rfl⟩)
  · rintro w arguments a path content found e rfl harguments hpath hfile hread rfl h
    exact run_of_not_loaded harguments ((loadConfig_eq hpath hfile hread).trans h)

def contentOf (t : Text) : Bytes := (Utf8.encode? t).getD []

/-- A machine with some text in whatever file is asked for. -/
def machineWith (t : Text) : CommandLine.World where
  environ := []
  home := "/home/me"
  files _ := some (.file (contentOf t))
  input := []
  now := default
  service _ _ := .failed []

/-- A configuration with one environment, from the text of its table. -/
def oneEnv (table : Text) : Text := "\x7b\"env\":\x7b\"a\":" ++ table ++ "\x7d\x7d"

/-- A configuration with an environment without endpoints. -/
def bareEnv : Text := oneEnv "\x7b\x7d"

def namedConfig? : CommandLine.Command → Option Text
  | .query a => some a.config
  | .nothing => none

attribute [local instance] Region.database Runtime.standard in
theorem ofValue_outcomes_bare :
    (∃ v, ConfigFile.read "c.json" (contentOf bareEnv) = .ok v ∧
      ofValue [] (v.orElse (.map [])) = .error (.config (.noEndpoints "a"))) ∧
    CommandLine.run (machineWith bareEnv) ["query", "-c", "c.json"] = {
      ending := .result {
        exitCode := 1
        errors := CommandLine.report "env='a' has zero endpoints" } } := by
  have hload : ((ConfigFile.read "c.json" (contentOf bareEnv)).toOption.bind fun v =>
      failure? (ofValue [] (v.orElse (.map [])))) = some (.config (.noEndpoints "a")) := by decide +kernel
  obtain ⟨v, hv, herror⟩ := Option.bind_eq_some_iff.mp hload
  have hread := eq_ok_of_toOption hv
  have h := eq_error_of_failure? herror
  have hcommand : (CommandLine.Command.read ["query", "-c", "c.json"]).toOption.bind namedConfig?
      = some "c.json" := by decide +kernel
  obtain ⟨command, hcommand, hquery⟩ := Option.bind_eq_some_iff.mp hcommand
  cases command with
  | nothing => cases hquery
  | query a =>
    have hpath : ConfigFile.path [] "/home/me" a.config = .ok "c.json" := by
      rw [Option.some.inj hquery]
      exact eq_ok_of_toOption (by decide +kernel)
    obtain ⟨-, -, hrun⟩ := ofValue_outcomes [] (v.orElse (.map []))
    exact ⟨⟨v, hread, h⟩, hrun (machineWith bareEnv) _ a "c.json" _ v _ rfl
      (eq_ok_of_toOption hcommand) hpath rfl hread rfl h⟩

/-- **Configurations that break down**: a limit that is infinite, an environment that is a number, endpoints
that are a number, a cloud id with a letter beyond ASCII, and a user with a lone surrogate. None of these
faults is reported. -/
theorem configs_break :
    (∃ v, Json.parse 10 (oneEnv "\x7b\"endpoints\":[\"x\"],\"limit\":1e400\x7d") = .ok v ∧
      ofValue [] v = .error (.fault (.overflow "cannot convert float infinity to integer"))) ∧
    (∃ v, Json.parse 10 (oneEnv "5") = .ok v ∧
      ofValue [] v = .error (.fault .missingOperation)) ∧
    (∃ v, Json.parse 10 (oneEnv "\x7b\"endpoints\":5\x7d") = .ok v ∧
      ofValue [] v = .error (.fault (.wrongType "'int' object is not iterable"))) ∧
    (∃ v, Json.parse 10
        (oneEnv "\x7b\"authorization\":\x7b\"cloud\":\x7b\"cloud_id\":\"n:\\u00e4\"\x7d\x7d\x7d") = .ok v ∧
      ofValue [] v = .error (.fault (.badValue "string argument should contain only ASCII characters"))) ∧
    (∃ v, Json.parse 10
        (oneEnv "\x7b\"authorization\":\x7b\"basic\":\x7b\"user\":\"\\ud800\"\x7d\x7d\x7d") = .ok v ∧
      ofValue [] v = .error (.fault .unencodable)) ∧
    ∀ f, Failure.isReported (.fault f) = false := by
  have hbreaks : ∀ {t : Text} {e : Failure},
      ((Json.parse 10 t).toOption.bind fun v => failure? (ofValue [] v)) = some e →
      ∃ v, Json.parse 10 t = .ok v ∧ ofValue [] v = .error e := by
    intro t e h
    obtain ⟨v, hv, he⟩ := Option.bind_eq_some_iff.mp h
    exact ⟨v, eq_ok_of_toOption hv, eq_error_of_failure? he⟩
  refine ⟨hbreaks ?_, hbreaks ?_, hbreaks ?_, hbreaks ?_, hbreaks ?_, fun _ => rfl⟩ <;> decide +kernel

end LogQuery.Config
