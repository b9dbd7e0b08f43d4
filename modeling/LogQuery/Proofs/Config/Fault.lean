import LogQuery.Proofs.Config.EnvFault
import LogQuery.Proofs.Config.Unambiguous
/-!
# Configurations that break down

A configuration is read part by part: environments, outputs, aliases, and then the check. It breaks down at
the first part that does, unless an error is found before.

* `ProfileBreaks`: what breaks down in an output.
* `PartBreaks`, `part_eq_fault`: a table of parts breaks down at its first part that cannot be read.
* `TablesBreak`, `CheckBreaks`: the tables of a configuration, and its check.
* `Breaks`, `ofValue_eq_fault`: a whole configuration.
-/
namespace LogQuery

/-! ## Outputs -/

namespace Profile

variable {name : Scalar} {table v : Value} {f : Fault}

theorem readFields_eq_error_iff {e : Failure} :
    readFields v = .error e ↔ v ≠ .null ∧ ∃ f, v.NoSequence f ∧ e = .fault f := by
  unfold readFields
  split
  next => simp
  next hnull =>
    rw [map_eq_error_iff]
    constructor
    · intro h
      obtain ⟨f, hf, rfl⟩ := eq_error_of_mapError h
      exact ⟨hnull, f, Value.elements_eq_error_iff.mp hf, rfl⟩
    · rintro ⟨-, f, hf, rfl⟩
      rw [Value.elements_eq_error_iff.mpr hf]
      rfl

theorem readTargets_eq_error_iff {setting : Value} {e : Failure} : readTargets name setting = .error e ↔
    (setting.isShowable = false ∧ e = .fault Json.longInteger) ∨ setting.isShowable = true ∧
      ∃ cause, Target.ofSetting setting = .error cause ∧
        e = .naming (.scalar name) (.config (.outputTargets name.display cause)) := by
  unfold readTargets
  cases setting.isShowable with
  | false => simp [eq_comm]
  | true => cases Target.ofSetting setting <;> simp [Except.mapError, eq_comm]

/-- The steps of reading an output, and the first that fails. The format and the default are there in every
table. -/
theorem ofValue_eq_error_iff {e : Failure} : ofValue name table = .error e ↔
    (table.isTable = false ∧ e = .fault .missingOperation) ∨
    ∃ only exclude setting, table.entry "only" = .ok only ∧ table.entry "exclude" = .ok exclude ∧
      table.entry "decode_recursively" = .ok setting ∧ (readTargets name setting = .error e ∨
      ∃ targets, readTargets name setting = .ok targets ∧ (readFields only = .error e ∨
        ∃ fields, readFields only = .ok fields ∧ readFields exclude = .error e)) := by
  unfold ofValue
  cases htable : table.isTable with
  | false =>
    have hentry : ∀ key, table.entry key = .error .missingOperation := fun key =>
      Value.entry_eq_error_iff.mpr ⟨htable, rfl⟩
    simp [hentry, Except.mapError, bind, Except.bind, eq_comm]
  | true =>
    obtain ⟨only, honly⟩ := Value.exists_entry htable "only"
    obtain ⟨exclude, hexclude⟩ := Value.exists_entry htable "exclude"
    obtain ⟨setting, hsetting⟩ := Value.exists_entry htable "decode_recursively"
    obtain ⟨format, hformat⟩ := Value.exists_entry htable "format"
    obtain ⟨isDefault, hdefault⟩ := Env.exists_readDefault htable
    cases htargets : readTargets name setting with
    | error e' => simp [honly, hexclude, hsetting, htargets, Except.mapError, bind, Except.bind]
    | ok targets =>
      cases hfields : readFields only with
      | error e' =>
        simp [honly, hexclude, hsetting, hformat, htargets, hfields, Except.mapError, bind, Except.bind]
      | ok fields =>
        cases hother : readFields exclude <;>
          simp [honly, hexclude, hsetting, hformat, htargets, hfields, hother, hdefault, Except.mapError,
            bind, Except.bind]

theorem ofValue_of_readTargets {setting : Value} {e : Failure}
    (hsetting : table.entry "decode_recursively" = .ok setting) (h : readTargets name setting = .error e) :
    ofValue name table = .error e := by
  have htable := Value.isTable_of_entry hsetting
  obtain ⟨only, honly⟩ := Value.exists_entry htable "only"
  obtain ⟨exclude, hexclude⟩ := Value.exists_entry htable "exclude"
  exact ofValue_eq_error_iff.mpr (Or.inr ⟨only, exclude, setting, honly, hexclude, hsetting, Or.inl h⟩)

/-- An output breaks down: it is no table, the targets that it names cannot be shown, what is wrong with
them would be reported under a name that cannot be shown, or the fields that it shows or leaves out are no
sequence. -/
inductive ProfileBreaks (name : Scalar) (table : Value) : Fault → Prop
  | noTable (h : table.isTable = false) : ProfileBreaks name table .missingOperation
  | targets {setting : Value} (hsetting : table.entry "decode_recursively" = .ok setting)
    (h : setting.isShowable = false) : ProfileBreaks name table Json.longInteger
  | unnamed {setting : Value} {cause : TargetError}
    (hsetting : table.entry "decode_recursively" = .ok setting) (hshown : setting.isShowable = true)
    (hcause : Target.ofSetting setting = .error cause) (hname : (Value.scalar name).isShowable = false) :
    ProfileBreaks name table Json.longInteger
  | only {setting v : Value} {targets : List Target} {f : Fault}
    (hsetting : table.entry "decode_recursively" = .ok setting)
    (htargets : readTargets name setting = .ok targets) (hv : table.entry "only" = .ok v)
    (hnull : v ≠ .null) (h : v.NoSequence f) : ProfileBreaks name table f
  | exclude {setting only v : Value} {targets : List Target} {fields : Option (List Value)} {f : Fault}
    (hsetting : table.entry "decode_recursively" = .ok setting)
    (htargets : readTargets name setting = .ok targets) (honly : table.entry "only" = .ok only)
    (hfields : readFields only = .ok fields) (hv : table.entry "exclude" = .ok v)
    (hnull : v ≠ .null) (h : v.NoSequence f) : ProfileBreaks name table f

/-- **When an output breaks down**, and how. -/
theorem ofValue_eq_fault : ofValue name table = .error (.fault f) ↔ ProfileBreaks name table f := by
  constructor
  · intro h
    rcases ofValue_eq_error_iff.mp h with ⟨htable, hf⟩ | ⟨only, exclude, setting, honly, hexclude,
      hsetting, htargets | ⟨targets, htargets, hfields | ⟨fields, hfields, hothers⟩⟩⟩
    · cases hf
      exact .noTable htable
    · rcases readTargets_eq_error_iff.mp htargets with ⟨hlong, hf⟩ | ⟨hshown, cause, hcause, hf⟩
      · cases hf
        exact .targets hsetting hlong
      · rcases Failure.naming_eq_fault.mp hf.symm with hf | ⟨-, hname, rfl⟩
        · cases hf
        · exact .unnamed hsetting hshown hcause hname
    · obtain ⟨hnull, f', hbroken, hf⟩ := readFields_eq_error_iff.mp hfields
      cases hf
      exact .only hsetting htargets honly hnull hbroken
    · obtain ⟨hnull, f', hbroken, hf⟩ := readFields_eq_error_iff.mp hothers
      cases hf
      exact .exclude hsetting htargets honly hfields hexclude hnull hbroken
  · intro h
    cases h with
    | noTable h => exact ofValue_eq_error_iff.mpr (Or.inl ⟨h, rfl⟩)
    | targets hsetting h =>
      exact ofValue_of_readTargets hsetting (readTargets_eq_error_iff.mpr (Or.inl ⟨h, rfl⟩))
    | unnamed hsetting hshown hcause hname =>
      refine ofValue_of_readTargets hsetting (readTargets_eq_error_iff.mpr (Or.inr ⟨hshown, _, hcause, ?_⟩))
      exact (Failure.naming_config hname _).symm
    | only hsetting htargets hv hnull h =>
      obtain ⟨exclude, hexclude⟩ := Value.exists_entry (Value.isTable_of_entry hv) "exclude"
      have honly := readFields_eq_error_iff.mpr ⟨hnull, f, h, rfl⟩
      exact ofValue_eq_error_iff.mpr
        (Or.inr ⟨_, exclude, _, hv, hexclude, hsetting, Or.inr ⟨_, htargets, Or.inl honly⟩⟩)
    | exclude hsetting htargets honly hfields hv hnull h =>
      have hexclude := readFields_eq_error_iff.mpr ⟨hnull, f, h, rfl⟩
      exact ofValue_eq_error_iff.mpr
        (Or.inr ⟨_, _, _, honly, hv, hsetting, Or.inr ⟨_, htargets, Or.inr ⟨_, hfields, hexclude⟩⟩⟩)

end Profile

namespace Config

open Env (EnvBreaks)
open Profile (ProfileBreaks)

variable {environ : Environ} {v : Value} {f : Fault}

/-! ## Tables of parts -/

section
variable {α : Type} {read : Scalar → Value → Except Failure α} {breaks : Scalar → Value → Fault → Prop}
  {key : String}

/-- The tables of one part of a configuration, each of which is read. -/
def part (read : Scalar → Value → Except Failure α) (v : Value) (key : String) :
    Except Failure (List (Scalar × α)) :=
  tables v key >>= readAll read

/-- A part of a configuration breaks down: it is no table, or the first of its tables that is not read
breaks down. -/
inductive PartBreaks (read : Scalar → Value → Except Failure α) (breaks : Scalar → Value → Fault → Prop)
    (v : Value) (key : String) : Fault → Prop
  | noTable (h : v.LacksTable key) : PartBreaks read breaks v key .missingOperation
  | table {before after : List (Scalar × Value)} {t : Scalar × Value} {f : Fault}
    (hts : tables v key = .ok (before ++ t :: after))
    (hbefore : ∀ b ∈ before, ∃ x, read b.1 b.2 = .ok x) (h : breaks t.1 t.2 f) :
    PartBreaks read breaks v key f

theorem tables_eq_error_iff {e : Failure} :
    tables v key = .error e ↔ v.LacksTable key ∧ e = .fault .missingOperation := by
  rw [tables, map_eq_error_iff]
  constructor
  · intro h
    obtain ⟨f, hf, rfl⟩ := eq_error_of_mapError h
    obtain ⟨hlacks, rfl⟩ := Value.table_eq_error_iff.mp hf
    exact ⟨hlacks, rfl⟩
  · rintro ⟨h, rfl⟩
    rw [Value.table_eq_error_iff.mpr ⟨h, rfl⟩]
    rfl

theorem readAll_eq_error_iff {ts : List (Scalar × Value)} {e : Failure} :
    readAll read ts = .error e ↔ ∃ before t after, ts = before ++ t :: after ∧
      (∀ b ∈ before, ∃ x, read b.1 b.2 = .ok x) ∧ read t.1 t.2 = .error e := by
  have hstep : ∀ b : Scalar × Value, (∃ y, (read b.1 b.2).map (fun x => (b.1, x)) = .ok y) ↔
      ∃ x, read b.1 b.2 = .ok x := by
    intro b
    cases read b.1 b.2 <;> simp [Except.map]
  rw [readAll, mapM_eq_error_iff]
  simp only [hstep, map_eq_error_iff]

/-- **When a part breaks down**, and how, if this is known of its tables. -/
theorem part_eq_fault
    (hread : ∀ name table f, read name table = .error (.fault f) ↔ breaks name table f) :
    part read v key = .error (.fault f) ↔ PartBreaks read breaks v key f := by
  rw [part, bind_eq_error_iff, tables_eq_error_iff]
  constructor
  · rintro (⟨h, hf⟩ | ⟨ts, hts, h⟩)
    · cases hf
      exact .noTable h
    · obtain ⟨before, t, after, rfl, hbefore, h⟩ := readAll_eq_error_iff.mp h
      exact .table hts hbefore ((hread _ _ _).mp h)
  · intro h
    cases h with
    | noTable h => exact Or.inl ⟨h, rfl⟩
    | table hts hbefore h =>
      exact Or.inr ⟨_, hts, readAll_eq_error_iff.mpr ⟨_, _, _, rfl, hbefore, (hread _ _ _).mpr h⟩⟩

end

/-! ## Whole configurations -/

theorem readTables_eq : readTables environ v = (part (Env.ofValue environ) v "env" >>= fun envs =>
    part Profile.ofValue v "output" >>= fun outputs =>
      (v.table "aliases").mapError .fault >>= fun entries =>
        (readAliases entries).mapError .fault >>= fun aliases => .ok { envs, outputs, aliases }) := by
  unfold readTables part
  cases tables v "env" with
  | error e => rfl
  | ok ts =>
    simp only [bind, Except.bind]
    cases readAll (Env.ofValue environ) ts with
    | error e => rfl
    | ok envs => cases tables v "output" <;> rfl

theorem readAliases_eq_error_iff {entries : List (Scalar × Value)} : readAliases entries = .error f ↔
    f = Json.longInteger ∧
      ∃ e ∈ entries, (Value.scalar e.1).isShowable = false ∨ e.2.isShowable = false := by
  have hread : ∀ (e : Scalar × Value) (f : Fault), ((Value.scalar e.1).shown >>= fun name =>
      e.2.shown >>= fun key => .ok (name, key)) = .error f ↔
      f = Json.longInteger ∧ ((Value.scalar e.1).isShowable = false ∨ e.2.isShowable = false) := by
    intro e f
    simp only [Value.shown]
    cases (Value.scalar e.1).isShowable <;> cases e.2.isShowable <;> simp [bind, Except.bind, eq_comm]
  have hrows : readAliases entries = (entries.mapM fun e => (Value.scalar e.1).shown >>= fun name =>
      e.2.shown >>= fun key => .ok (name, key)).map Text.ofPairs := by
    unfold readAliases
    simp only [bind, Except.bind, Except.map]
  -- All failures are alike, so it does not matter which alias comes first.
  rw [hrows, map_eq_error_iff, mapM_eq_error_iff_exists fun e _ f h => ((hread e f).mp h).1]
  simp only [hread, true_and]

/-- The tables of a configuration break down: the first part does that is not read. -/
inductive TablesBreak (environ : Environ) (v : Value) : Fault → Prop
  | envs {f : Fault} (h : PartBreaks (Env.ofValue environ) (EnvBreaks environ) v "env" f) :
    TablesBreak environ v f
  | outputs {envs : List (Scalar × Env)} {f : Fault} (henvs : part (Env.ofValue environ) v "env" = .ok envs)
    (h : PartBreaks Profile.ofValue ProfileBreaks v "output" f) : TablesBreak environ v f
  | aliases {envs : List (Scalar × Env)} {outputs : List (Scalar × Profile)}
    (henvs : part (Env.ofValue environ) v "env" = .ok envs)
    (houtputs : part Profile.ofValue v "output" = .ok outputs) (h : v.LacksTable "aliases") :
    TablesBreak environ v .missingOperation
  | unshownAlias {envs : List (Scalar × Env)} {outputs : List (Scalar × Profile)}
    {entries : List (Scalar × Value)} {e : Scalar × Value}
    (henvs : part (Env.ofValue environ) v "env" = .ok envs)
    (houtputs : part Profile.ofValue v "output" = .ok outputs) (hentries : v.table "aliases" = .ok entries)
    (he : e ∈ entries) (h : (Value.scalar e.1).isShowable = false ∨ e.2.isShowable = false) :
    TablesBreak environ v Json.longInteger

theorem readTables_eq_fault :
    readTables environ v = .error (.fault f) ↔ TablesBreak environ v f := by
  rw [readTables_eq]
  constructor
  · intro h
    rcases eq_error_of_bind h with h | ⟨envs, henvs, h⟩
    · exact .envs ((part_eq_fault fun _ _ _ => Env.ofValue_eq_fault).mp h)
    rcases eq_error_of_bind h with h | ⟨outputs, houtputs, h⟩
    · exact .outputs henvs ((part_eq_fault fun _ _ _ => Profile.ofValue_eq_fault).mp h)
    rcases eq_error_of_bind h with h | ⟨entries, hentries, h⟩
    · obtain ⟨hlacks, rfl⟩ := Value.table_eq_error_iff.mp (mapError_fault_iff.mp h)
      exact .aliases henvs houtputs hlacks
    rcases eq_error_of_bind h with h | ⟨aliases, -, h⟩
    · obtain ⟨rfl, e, he, hlong⟩ := readAliases_eq_error_iff.mp (mapError_fault_iff.mp h)
      exact .unshownAlias henvs houtputs (mapError_eq_ok_iff.mp hentries) he hlong
    · cases h
  · intro h
    cases h with
    | envs h =>
      rw [(part_eq_fault fun _ _ _ => Env.ofValue_eq_fault).mpr h]
      rfl
    | outputs henvs h =>
      rw [henvs, (part_eq_fault fun _ _ _ => Profile.ofValue_eq_fault).mpr h]
      rfl
    | aliases henvs houtputs h =>
      rw [henvs, houtputs, Value.table_eq_error_iff.mpr ⟨h, rfl⟩]
      rfl
    | unshownAlias henvs houtputs hentries he h =>
      have haliases := readAliases_eq_error_iff.mpr ⟨rfl, _, he, h⟩
      rw [henvs, houtputs, hentries]
      show ((readAliases _).mapError Failure.fault >>= fun _ => _) = _
      rw [haliases]
      rfl

/-- Names of several defaults cannot be listed: the first that is no text breaks down. -/
inductive NamesBreak (names : List Scalar) : Fault → Prop
  | mk {before after : List Scalar} {s : Scalar} (hmany : 2 ≤ names.length)
    (hnames : names = before ++ s :: after) (hbefore : ∀ b ∈ before, ∃ t, b = .string t)
    (h : ∀ t, s ≠ .string t) :
    NamesBreak names (.wrongType ("expected str instance, " ++ s.kindName ++ " found"))

theorem asListed_eq_error_iff {s : Scalar} {e : Failure} : s.asListed = .error e ↔ (∀ t, s ≠ .string t) ∧
    e = .fault (.wrongType ("expected str instance, " ++ s.kindName ++ " found")) := by
  cases s <;> simp [Scalar.asListed, eq_comm]

theorem asListed_eq_ok_iff {s : Scalar} : (∃ t, s.asListed = .ok t) ↔ ∃ t, s = .string t := by
  cases s <;> simp [Scalar.asListed]

theorem oneDefault_eq_fault {names : List Scalar} {error : List Text → ConfigError} :
    oneDefault names error = .error (.fault f) ↔ NamesBreak names f := by
  by_cases hone : names.length ≤ 1
  -- A single name is not listed, so it may be of any kind.
  · rw [oneDefault_eq_ok_iff.mpr hone]
    refine iff_of_false nofun fun h => ?_
    cases h
    omega
  · have hlisted : oneDefault names error
        = (names.mapM Scalar.asListed >>= fun names => .error (.config (error names))) := by
      match names with
      | [] | [_] => simp at hone
      | _ :: _ :: _ => rfl
    rw [hlisted, bind_eq_error_iff, mapM_eq_error_iff]
    simp only [asListed_eq_ok_iff, asListed_eq_error_iff]
    constructor
    · rintro (⟨before, s, after, hnames, hbefore, h, hf⟩ | ⟨_, -, h⟩)
      · cases hf
        exact ⟨by omega, hnames, hbefore, h⟩
      · cases h
    · rintro ⟨-, hnames, hbefore, h⟩
      exact Or.inl ⟨_, _, _, hnames, hbefore, h, rfl⟩

/-- The check for endpoints can only break down where the environment without any cannot be named. -/
theorem haveEndpoints_eq_fault {envs : List (Scalar × Env)} : haveEndpoints envs = .error (.fault f) ↔
    ∃ e, envs.find? (fun e => e.2.endpoints.isEmpty) = some e ∧ (Value.scalar e.1).isShowable = false ∧
      f = Json.longInteger := by
  unfold haveEndpoints
  split
  next name env hfind =>
    rw [Except.error.injEq, Failure.naming_eq_fault]
    simp [hfind]
  next hfind => exact iff_of_false nofun (by simp [hfind])

/-- The check of a configuration breaks down: it has several defaults whose names cannot be listed, or an
environment without endpoints whose name cannot be shown. -/
inductive CheckBreaks (c : Config) : Fault → Prop
  | envNames {f : Fault} (h : NamesBreak (namesOf Env.isDefault c.envs) f) : CheckBreaks c f
  | outputNames {f : Fault} (hone : (namesOf Env.isDefault c.envs).length ≤ 1)
    (h : NamesBreak (namesOf Profile.isDefault c.outputs) f) : CheckBreaks c f
  | unnamed {e : Scalar × Env} (hone : (namesOf Env.isDefault c.envs).length ≤ 1)
    (hone' : (namesOf Profile.isDefault c.outputs).length ≤ 1)
    (hfind : c.envs.find? (fun e => e.2.endpoints.isEmpty) = some e)
    (hname : (Value.scalar e.1).isShowable = false) : CheckBreaks c Json.longInteger

/-- A configuration breaks down: its tables do, or its check does. -/
inductive Breaks (environ : Environ) (v : Value) : Fault → Prop
  | tables {f : Fault} (h : TablesBreak environ v f) : Breaks environ v f
  | check {c : Config} {f : Fault} (hread : readTables environ v = .ok c) (h : CheckBreaks c f) :
    Breaks environ v f

theorem ofValue_eq (h : v.isTable = true) :
    ofValue environ v = (readTables environ v >>= fun c => c.validate >>= fun _ => .ok c) := by
  cases v <;> first | rfl | cases h

theorem validate_eq_fault {c : Config} : c.validate = .error (.fault f) ↔ CheckBreaks c f := by
  unfold validate
  constructor
  · intro h
    rcases eq_error_of_bind h with h | ⟨⟨⟩, henvs, h⟩
    · exact .envNames (oneDefault_eq_fault.mp h)
    rcases eq_error_of_bind h with h | ⟨⟨⟩, houtputs, h⟩
    · exact .outputNames (oneDefault_eq_ok_iff.mp henvs) (oneDefault_eq_fault.mp h)
    · obtain ⟨e, hfind, hname, rfl⟩ := haveEndpoints_eq_fault.mp h
      exact .unnamed (oneDefault_eq_ok_iff.mp henvs) (oneDefault_eq_ok_iff.mp houtputs) hfind hname
  · intro h
    cases h with
    | envNames h =>
      rw [oneDefault_eq_fault.mpr h]
      rfl
    | outputNames hone h =>
      rw [oneDefault_eq_ok_iff.mpr hone, oneDefault_eq_fault.mpr h]
      rfl
    | unnamed hone hone' hfind hname =>
      rw [oneDefault_eq_ok_iff.mpr hone, oneDefault_eq_ok_iff.mpr hone',
        haveEndpoints_eq_fault.mpr ⟨_, hfind, hname, rfl⟩]
      rfl

theorem ofValue_eq_fault :
    ofValue environ v = .error (.fault f) ↔ v.isTable = true ∧ Breaks environ v f := by
  cases htable : v.isTable with
  | false =>
    refine iff_of_false (fun h => ?_) (by simp)
    cases v <;> first | cases h | cases htable
  | true =>
    rw [ofValue_eq htable]
    constructor
    · intro h
      refine ⟨rfl, ?_⟩
      rcases eq_error_of_bind h with h | ⟨c, hread, h⟩
      · exact .tables (readTables_eq_fault.mp h)
      rcases eq_error_of_bind h with h | ⟨_, -, h⟩
      · exact .check hread (validate_eq_fault.mp h)
      · cases h
    · rintro ⟨-, h⟩
      cases h with
      | tables h =>
        rw [readTables_eq_fault.mpr h]
        rfl
      | check hread h =>
        rw [hread]
        show (validate _ >>= fun _ => _) = _
        rw [validate_eq_fault.mpr h]
        rfl

end Config
end LogQuery
