import LogQuery.Config.Read
import LogQuery.Proofs.Config.Lookup
import LogQuery.Proofs.Json.PlainTags
/-!
# Configurations that resolve without ambiguity

What a configuration says is read table by table (`ofValue_eq_ok_iff`), so with its tables in another
order it says the same in another order (`Says.reordered`). The check then sees to it that no look-up
depends on the order, and that removing environments keeps it so.

`ofValue_unambiguous` puts this together for every configuration that is accepted.
-/
namespace LogQuery

open Json (Tree)

/-! ## Targets and outputs -/

namespace Target

theorem ofNames_sublist {names : List Text} {targets : List Target} (h : ofNames names = .ok targets) :
    targets.Sublist all := by
  simp only [ofNames] at h
  split at h
  · cases h
    exact List.filter_sublist
  · cases h

theorem ofSetting_sublist {v : Value} {targets : List Target} (h : ofSetting v = .ok targets) :
    targets.Sublist all := by
  unfold ofSetting at h
  split at h
  · cases h
    exact List.nil_sublist all
  · cases h
    exact List.nil_sublist all
  · cases h
    decide
  · exact ofNames_sublist h
  · exact ofNames_sublist h
  · exact ofNames_sublist h
  · exact ofNames_sublist h
  · cases h

end Target

theorem Profile.ofSetting_of_readTargets {name : Scalar} {setting : Value} {targets : List Target}
    (h : readTargets name setting = .ok targets) : Target.ofSetting setting = .ok targets := by
  unfold readTargets at h
  split at h
  · exact eq_ok_of_mapError h
  · cases h

theorem Profile.decode_sublist {name : Scalar} {table : Value} {p : Profile}
    (h : ofValue name table = .ok p) : p.decode.Sublist Target.all := by
  obtain ⟨only, -, h⟩ := eq_ok_of_bind h
  obtain ⟨exclude, -, h⟩ := eq_ok_of_bind h
  obtain ⟨setting, -, h⟩ := eq_ok_of_bind h
  obtain ⟨decode, hdecode, h⟩ := eq_ok_of_bind h
  obtain ⟨format, -, h⟩ := eq_ok_of_bind h
  obtain ⟨only, -, h⟩ := eq_ok_of_bind h
  obtain ⟨exclude, -, h⟩ := eq_ok_of_bind h
  obtain ⟨isDefault, -, h⟩ := eq_ok_of_bind h
  cases h
  exact Target.ofSetting_sublist (ofSetting_of_readTargets hdecode)

namespace Config

variable {environ : Environ} {v v' : Value} {c : Config}

/-! ## What a configuration says -/

section
variable {α : Type} {read : Scalar → Value → Except Failure α} {ts ts' : List (Scalar × Value)}
  {entries : List (Scalar × α)}

theorem readAll_names (h : readAll read ts = .ok entries) :
    entries.map Prod.fst = ts.map Prod.fst := by
  have hread := mapM_eq_ok_iff.mp h
  rw [← List.forall₂_eq_eq_eq, List.forall₂_map_left_iff, List.forall₂_map_right_iff]
  refine hread.flip.imp fun e t ht => ?_
  obtain ⟨x, -, rfl⟩ := eq_ok_of_map ht
  rfl

theorem exists_of_readAll (h : readAll read ts = .ok entries) {e : Scalar × α} (he : e ∈ entries) :
    ∃ name table, read name table = .ok e.2 := by
  obtain ⟨i, hi⟩ := List.getElem?_of_mem he
  obtain ⟨⟨name, table⟩, -, hread⟩ := getElem?_of_mapM h hi
  obtain ⟨x, hx, rfl⟩ := eq_ok_of_map hread
  exact ⟨name, table, hx⟩

theorem haveNames_of_readAll (hn : HaveNames ts) (h : readAll read ts = .ok entries) :
    HaveNames entries := by
  have hnames := readAll_names h
  refine ⟨fun e he => ?_, hnames ▸ hn.nodup⟩
  obtain ⟨t, ht, hsame⟩ := List.mem_map.mp (hnames ▸ List.mem_map_of_mem he)
  rw [← hsame]
  exact hn.isText t ht

end

theorem exists_table {key : String} {ts : List (Scalar × Value)} (h : tables v key = .ok ts) :
    ∃ entries, v.table key = .ok entries ∧ ts = entries.map fun e => (e.1, e.2.orElse (.map [])) := by
  obtain ⟨entries, hentries, rfl⟩ := eq_ok_of_map h
  exact ⟨entries, eq_ok_of_mapError hentries, rfl⟩

theorem tables_eq {key : String} {entries : List (Scalar × Value)} (h : v.table key = .ok entries) :
    tables v key = .ok (entries.map fun e => (e.1, e.2.orElse (.map []))) := by
  rw [tables, h]
  rfl

/-- A configuration is what a value says: its tables are read, and the whole works. -/
structure Says (environ : Environ) (v : Value) (c : Config) : Prop where
  envs : ∃ ts, tables v "env" = .ok ts ∧ readAll (Env.ofValue environ) ts = .ok c.envs
  outputs : ∃ ts, tables v "output" = .ok ts ∧ readAll Profile.ofValue ts = .ok c.outputs
  aliases : ∃ entries, v.table "aliases" = .ok entries ∧ readAliases entries = .ok c.aliases
  valid : c.IsValid

/-- **What is accepted** is what the value says. -/
theorem ofValue_eq_ok_iff : ofValue environ v = .ok c ↔ Says environ v c := by
  constructor
  · intro h
    unfold ofValue at h
    split at h
    next entries =>
      obtain ⟨config, hread, h⟩ := eq_ok_of_bind h
      obtain ⟨⟨⟩, hvalid, h⟩ := eq_ok_of_bind h
      cases h
      obtain ⟨ts, hts, hread⟩ := eq_ok_of_bind hread
      obtain ⟨envs, henvs, hread⟩ := eq_ok_of_bind hread
      obtain ⟨ts', hts', hread⟩ := eq_ok_of_bind hread
      obtain ⟨outputs, houtputs, hread⟩ := eq_ok_of_bind hread
      obtain ⟨entries, hentries, hread⟩ := eq_ok_of_bind hread
      obtain ⟨aliases, haliases, hread⟩ := eq_ok_of_bind hread
      cases hread
      exact ⟨⟨ts, hts, henvs⟩, ⟨ts', hts', houtputs⟩,
        ⟨entries, eq_ok_of_mapError hentries, eq_ok_of_mapError haliases⟩, validate_eq_ok_iff.mp hvalid⟩
    next => cases h
  · rintro ⟨⟨ts, hts, henvs⟩, ⟨ts', hts', houtputs⟩, ⟨entries, hentries, haliases⟩, hvalid⟩
    have hread : readTables environ v = .ok c := by
      simp only [readTables, hts, henvs, hts', houtputs, hentries, haliases, bind, Except.bind,
        Except.mapError]
    cases v with
    | map entries =>
      simp only [ofValue, hread, validate_eq_ok_iff.mpr hvalid, bind, Except.bind]
    | _ => cases hentries

/-! ## Tables in another order -/

/-- A configuration with its environments and its outputs in another order. -/
structure Reordered (v v' : Value) : Prop where
  envs : ∃ entries entries', v.table "env" = .ok entries ∧ v'.table "env" = .ok entries' ∧
    entries.Perm entries'
  outputs : ∃ entries entries', v.table "output" = .ok entries ∧ v'.table "output" = .ok entries' ∧
    entries.Perm entries'
  aliases : v'.table "aliases" = v.table "aliases"

theorem readAll_reordered {α : Type} {read : Scalar → Value → Except Failure α} {key : String}
    {xs : List (Scalar × α)}
    (h : ∃ ts, tables v key = .ok ts ∧ readAll read ts = .ok xs)
    (hr : ∃ entries entries', v.table key = .ok entries ∧ v'.table key = .ok entries' ∧
      entries.Perm entries') :
    ∃ xs', (∃ ts, tables v' key = .ok ts ∧ readAll read ts = .ok xs') ∧ xs.Perm xs' := by
  obtain ⟨ts, hts, hread⟩ := h
  obtain ⟨entries, entries', hentries, hentries', hperm⟩ := hr
  rw [tables_eq hentries] at hts
  cases hts
  obtain ⟨xs', hread', hxs⟩ := mapM_perm (hperm.map _) hread
  exact ⟨xs', ⟨_, tables_eq hentries', hread'⟩, hxs⟩

/-- **In another order** a configuration says the same in another order. -/
theorem Says.reordered (h : Says environ v c) (hr : Reordered v v') :
    ∃ c', Says environ v' c' ∧ c.envs.Perm c'.envs ∧ c.outputs.Perm c'.outputs := by
  obtain ⟨envs, henvs, hperm⟩ := readAll_reordered h.envs hr.envs
  obtain ⟨outputs, houtputs, hperm'⟩ := readAll_reordered h.outputs hr.outputs
  refine ⟨⟨envs, outputs, c.aliases⟩, ⟨henvs, houtputs, ?_, h.valid.perm hperm hperm'⟩, hperm, hperm'⟩
  rw [hr.aliases]
  exact h.aliases

/-! ## Names -/

/-- The names of the entries of a table are distinct texts. -/
def HasNames (v : Value) (key : String) : Prop :=
  ∀ entries, v.table key = .ok entries → HaveNames entries

theorem haveNames_memberValues {members : List (Text × Tree)} (h : (members.map Prod.fst).Nodup) :
    HaveNames (Tree.memberValues members) := by
  rw [Tree.memberValues_eq_map]
  refine ⟨List.forall_mem_map.mpr fun e _ => ⟨e.1, rfl⟩, ?_⟩
  rw [List.map_map]
  exact (List.nodup_map_iff_inj_on h.of_map).mpr fun a ha b hb hab =>
    List.inj_on_of_nodup_map h ha hb (Scalar.string.inj hab)

theorem haveNames_nil : HaveNames ([] : List (Scalar × Value)) := ⟨nofun, List.nodup_nil⟩

theorem haveNames_of_entries {depth size : Nat} {x : Tree} (hx : x.Fits depth size)
    {entries : List (Scalar × Value)} (h : (x.toValue.orElse (.map [])).entries = .ok entries) :
    HaveNames entries := by
  rw [Value.orElse] at h
  split at h
  · cases hx with
    | map hnames _ =>
      cases h
      exact haveNames_memberValues hnames
    | _ => cases h
  · cases h
    exact haveNames_nil

/-- **In a document that was read** the names are distinct texts. -/
theorem hasNames_of_parse {depth : Nat} {t : Text} (h : Json.parse depth t = .ok v) (key : String) :
    HasNames v key := by
  intro entries hentries
  obtain ⟨tree, hread, rfl⟩ := eq_ok_of_map h
  obtain ⟨w, hw, hentries⟩ := eq_ok_of_bind hentries
  obtain ⟨found, hfound, rfl⟩ := eq_ok_of_map hw
  obtain ⟨members', hmembers, rfl⟩ := eq_ok_of_map hfound
  have hfits := Json.fits_of_read hread
  cases hfits with
  | @map _ _ members _ hparts =>
    cases hmembers
    rw [Value.lookup?_eq_find?, Tree.memberValues_eq_map] at hentries
    cases hfind : (members.map fun e => (Scalar.string e.1, e.2.toValue)).find?
        fun e => e.1.sameKey (.string key) with
    | none =>
      rw [hfind] at hentries
      cases hentries
      exact haveNames_nil
    | some found =>
      rw [hfind] at hentries
      obtain ⟨e, he, rfl⟩ := List.mem_map.mp (List.mem_of_find?_eq_some hfind)
      exact haveNames_of_entries (hparts e he) hentries
  | _ => cases hmembers

/-! ## No ambiguity -/

theorem HasNames.entries {α : Type} {read : Scalar → Value → Except Failure α} {xs : List (Scalar × α)}
    {key : String} (hn : HasNames v key) (h : ∃ ts, tables v key = .ok ts ∧ readAll read ts = .ok xs) :
    HaveNames xs := by
  obtain ⟨ts, hts, hread⟩ := h
  obtain ⟨entries, hentries, rfl⟩ := exists_table hts
  have hnames := hn entries hentries
  have htables : HaveNames (entries.map fun e => (e.1, e.2.orElse (.map []))) := by
    refine ⟨List.forall_mem_map.mpr hnames.isText, ?_⟩
    rw [List.map_map]
    exact hnames.nodup
  exact haveNames_of_readAll htables hread

/-- **Configurations resolve without ambiguity.** Every environment has an endpoint, whichever is picked.
No more than one environment and one output is the default, and outputs decode nothing but the three kinds
of documents. Without a name the default environment is meant, or else the only one, or none. Tables in
another order give the same environments and outputs, and when environments are removed one by one the
configuration still passes its check and still means the default environment if that is left.

The names of environments and outputs are distinct texts, as in every document that is read. -/
theorem ofValue_unambiguous (h : ofValue environ v = .ok c) (henvs : HasNames v "env")
    (houtputs : HasNames v "output") :
    (∀ e ∈ c.envs, ∀ pick, ∃ endpoint ∈ e.2.endpoints, e.2.endpoint pick = .ok endpoint) ∧
    c.envs.countP (fun e => e.2.isDefault) ≤ 1 ∧ c.outputs.countP (fun e => e.2.isDefault) ≤ 1 ∧
    (∀ e ∈ c.outputs, (e.2.decode.map Target.name).Sublist ["http", "json", "yaml"]) ∧
    (∀ r, c.env [] = r ↔ Meant c.envs r) ∧
    (∀ v', Reordered v v' → ∃ c', ofValue environ v' = .ok c' ∧
      (∀ name, c'.env name = c.env name) ∧ ∀ e name, c'.output e name = c.output e name) ∧
    ∀ names : List Text, names.Nodup → (∀ name ∈ names, .string name ∈ c.envs.map Prod.fst) →
      ∃ c', names.foldlM removeEnv c = .ok c' ∧ c'.validate = .ok () ∧
        c'.envs = (c.envs.filter fun e => e.1 ∉ names.map Scalar.string) ∧
        (∀ r, c'.env [] = r ↔ Meant c'.envs r) ∧
        ((∃ e ∈ c'.envs, e.2.isDefault = true) → c'.env [] = c.env []) := by
  have hsays := ofValue_eq_ok_iff.mp h
  have hvalid := hsays.valid
  have hn := henvs.entries hsays.envs
  have hn' := houtputs.entries hsays.outputs
  refine ⟨fun e he pick => hvalid.exists_endpoint he pick, hvalid.envs, hvalid.outputs, ?_,
    fun r => env_nil_eq_iff hvalid.envs, ?_, ?_⟩
  · intro e he
    obtain ⟨ts, -, hread⟩ := hsays.outputs
    obtain ⟨name, table, hprofile⟩ := exists_of_readAll hread he
    exact (Profile.decode_sublist hprofile).map Target.name
  · intro v' hr
    obtain ⟨c', hsays', hperm, hperm'⟩ := hsays.reordered hr
    exact ⟨c', ofValue_eq_ok_iff.mpr hsays', env_perm hvalid hn hperm, output_perm hvalid hn' hperm'⟩
  · intro names hnodup hpresent
    have hleft : IsValid { c with envs := c.envs.filter fun e => e.1 ∉ names.map Scalar.string } :=
      hvalid.sublist List.filter_sublist rfl
    refine ⟨_, removeEnvs_eq hn hnodup hpresent, validate_eq_ok_iff.mpr hleft, rfl,
      fun r => env_nil_eq_iff hleft.envs, ?_⟩
    rintro ⟨e, he, hdefault⟩
    rw [(env_nil_eq_iff hleft.envs).mpr (.default he hdefault),
      (env_nil_eq_iff hvalid.envs).mpr (.default (List.mem_of_mem_filter he) hdefault)]

/-- A table of an environment with one endpoint. -/
def envTable (endpoint : Text) (isDefault : Bool) : Value :=
  .ofMembers [("endpoints", .list [.string endpoint]), ("default", .bool isDefault)]

/-- A configuration with some environments and one output. -/
def withEnvs (envs : List (Text × Value)) : Value :=
  .ofMembers [("env", .ofMembers envs),
    ("output", .ofMembers [("o", .ofMembers [("decode_recursively", .string "yaml, json")])])]

/-- A configuration with two environments, the second of which is the default. -/
def twoEnvs : Value := withEnvs [("a", envTable "x" false), ("b", envTable "y" true)]

/-- The same the other way around. -/
def twoEnvsReversed : Value := withEnvs [("b", envTable "y" true), ("a", envTable "x" false)]

theorem hasNames_twoEnvs : HasNames twoEnvs "env" ∧ HasNames twoEnvs "output" := by
  refine ⟨fun entries h => ?_, fun entries h => ?_⟩
  · have htable : twoEnvs.table "env"
        = .ok [(.string "a", envTable "x" false), (.string "b", envTable "y" true)] := rfl
    rw [htable] at h
    cases h
    refine ⟨?_, by decide⟩
    rw [List.forall_mem_cons, List.forall_mem_singleton]
    exact ⟨⟨_, rfl⟩, ⟨_, rfl⟩⟩
  · have htable : twoEnvs.table "output"
        = .ok [(.string "o", .ofMembers [("decode_recursively", .string "yaml, json")])] := rfl
    rw [htable] at h
    cases h
    refine ⟨?_, List.nodup_singleton _⟩
    rw [List.forall_mem_singleton]
    exact ⟨_, rfl⟩

theorem ofValue_unambiguous_two : ∃ c, ofValue [] twoEnvs = .ok c ∧
    (c.env []).toOption.map Env.endpoints = some [Text.ofString "y"] ∧
    (∃ c', ofValue [] twoEnvsReversed = .ok c' ∧
      (∀ name, c'.env name = c.env name) ∧ ∀ e name, c'.output e name = c.output e name) ∧
    ∃ c', [Text.ofString "b"].foldlM removeEnv c = .ok c' ∧ c'.validate = .ok () ∧
      ∀ r, c'.env [] = r ↔ Meant c'.envs r := by
  have hreversed : Reordered twoEnvs twoEnvsReversed :=
    ⟨⟨_, _, rfl, rfl, .swap _ _ _⟩, ⟨_, _, rfl, rfl, .refl _⟩, rfl⟩
  have hread : (ofValue [] twoEnvs).toOption.map (fun c =>
      ((c.env []).toOption.map Env.endpoints, c.envs.map Prod.fst))
        = some (some [Text.ofString "y"], [.string "a", .string "b"]) := by decide +kernel
  obtain ⟨c, hc, hparts⟩ := Option.map_eq_some_iff.mp hread
  obtain ⟨hdefault, hnames⟩ := Prod.mk.inj hparts
  have h := eq_ok_of_toOption hc
  obtain ⟨-, -, -, -, -, horder, hremove⟩ :=
    ofValue_unambiguous h hasNames_twoEnvs.1 hasNames_twoEnvs.2
  obtain ⟨c', hc', hvalid, -, hmeant, -⟩ := hremove ["b"] (by decide) (by rw [hnames]; decide)
  exact ⟨c, h, hdefault, horder _ hreversed, c', hc', hvalid, hmeant⟩

end Config
end LogQuery
