import LogQuery.Config.Lookup
import LogQuery.Config.Settings
import LogQuery.Proofs.Steps
import Mathlib.Data.List.Nodup
import Mathlib.Data.List.Perm.Basic
/-!
# What is found in a configuration

Look-ups go through a table from its front, so what they find could depend on the order. It does not where
names are distinct texts (`HaveNames`) and no more than one entry is the default. A configuration that
passes its check (`Config.IsValid`) is like that, and stays so when environments are removed from it.

* `validate_eq_ok_iff`: what the check makes sure of.
* `Config.Meant`: the environment that is meant without a name, said without an order.
* `env_perm`, `output_perm`: tables in another order give the same environments and outputs.
* `removeEnvs_eq`: removing environments one by one leaves the others as they are.
-/
namespace LogQuery

/-! ## Entries that can be told apart -/

section
variable {α : Type} {entries entries' : List (Scalar × α)} {p : Scalar × α → Bool}

theorem find?_eq_of_mem (hone : entries.countP p ≤ 1) {e : Scalar × α} (he : e ∈ entries)
    (hp : p e = true) : entries.find? p = some e := by
  have hmem : e ∈ entries.filter p := List.mem_filter.mpr ⟨he, hp⟩
  rw [List.countP_eq_length_filter] at hone
  rw [← List.head?_filter]
  obtain ⟨first, hfirst⟩ := List.length_eq_one_iff.mp
    (Nat.le_antisymm hone (List.length_pos_of_mem hmem))
  rw [hfirst, List.mem_singleton] at hmem
  rw [hfirst, hmem]
  rfl

theorem find?_perm (h : entries.Perm entries') (hone : entries.countP p ≤ 1) :
    entries'.find? p = entries.find? p := by
  cases hfind : entries.find? p with
  | none =>
    rw [List.find?_eq_none] at hfind ⊢
    exact fun e he => hfind e (h.mem_iff.mpr he)
  | some e =>
    have he := h.mem_iff.mp (List.mem_of_find?_eq_some hfind)
    exact find?_eq_of_mem (h.countP_eq p ▸ hone) he (List.find?_some hfind)

/-- Entries whose names are distinct texts. -/
structure HaveNames (entries : List (Scalar × α)) : Prop where
  isText : ∀ e ∈ entries, ∃ t, e.1 = .string t
  nodup : (entries.map Prod.fst).Nodup

theorem sameKey_of_text (t : Text) (key : Scalar) :
    (Scalar.string t).sameKey key = decide (.string t = key) := by
  cases key <;> simp [Scalar.sameKey, Scalar.integer?]

namespace HaveNames

theorem filter (hn : HaveNames entries) (p : Scalar × α → Bool) : HaveNames (entries.filter p) :=
  ⟨fun e he => hn.isText e (List.mem_of_mem_filter he),
    (List.filter_sublist.map Prod.fst).nodup hn.nodup⟩

theorem sameKey (hn : HaveNames entries) {e : Scalar × α} (he : e ∈ entries) (key : Scalar) :
    e.1.sameKey key = decide (e.1 = key) := by
  obtain ⟨t, ht⟩ := hn.isText e he
  rw [ht, sameKey_of_text]

theorem countP_sameKey_le (hn : HaveNames entries) (key : Scalar) :
    entries.countP (fun e => e.1.sameKey key) ≤ 1 := by
  have hcount : entries.countP (fun e => e.1.sameKey key) = (entries.map Prod.fst).count key := by
    rw [List.count, List.countP_map]
    refine List.countP_congr fun e he => ?_
    rw [hn.sameKey he key, decide_eq_true_eq, Function.comp_apply, beq_iff_eq]
  rw [hcount]
  exact List.nodup_iff_count_le_one.mp hn.nodup key

end HaveNames

theorem Value.lookup?_eq_find? (key : Scalar) : ∀ entries : List (Scalar × α),
    lookup? key entries = (entries.find? fun e => e.1.sameKey key).map Prod.snd
  | [] => rfl
  | (k, x) :: rest => by
    rw [lookup?, List.find?_cons, lookup?_eq_find? key rest]
    cases k.sameKey key <;> rfl

theorem HaveNames.lookup?_perm (hn : HaveNames entries) (h : entries.Perm entries') (key : Scalar) :
    Value.lookup? key entries' = Value.lookup? key entries := by
  rw [Value.lookup?_eq_find?, Value.lookup?_eq_find?, find?_perm h (hn.countP_sameKey_le key)]

theorem HaveNames.exists_lookup? (hn : HaveNames entries) {key : Scalar}
    (h : key ∈ entries.map Prod.fst) : ∃ x, Value.lookup? key entries = some x := by
  obtain ⟨e, he, rfl⟩ := List.mem_map.mp h
  rw [Value.lookup?_eq_find?, find?_eq_of_mem (hn.countP_sameKey_le e.1) he
    ((hn.sameKey he e.1).trans (decide_eq_true rfl))]
  exact ⟨_, rfl⟩

end

namespace Config

variable {c c' : Config}

/-! ## What is checked -/

/-- A configuration that works: no more than one default of each kind, and endpoints everywhere. -/
structure IsValid (c : Config) : Prop where
  envs : c.envs.countP (fun e => e.2.isDefault) ≤ 1
  outputs : c.outputs.countP (fun e => e.2.isDefault) ≤ 1
  endpoints : ∀ e ∈ c.envs, e.2.endpoints ≠ []

theorem oneDefault_eq_ok_iff {names : List Scalar} {error : List Text → ConfigError} :
    oneDefault names error = .ok () ↔ names.length ≤ 1 := by
  match names with
  | [] => simp [oneDefault]
  | [_] => simp [oneDefault]
  | first :: second :: rest =>
    rw [oneDefault]
    · refine iff_of_false (fun h => ?_) (by simp)
      obtain ⟨_, -, h⟩ := eq_ok_of_bind h
      cases h
    · exact nofun
    · exact nofun

theorem length_namesOf {α : Type} (property : α → Bool) (entries : List (Scalar × α)) :
    (namesOf property entries).length = entries.countP fun e => property e.2 := by
  rw [namesOf, List.length_map, List.countP_eq_length_filter]

theorem haveEndpoints_eq_ok_iff {envs : List (Scalar × Env)} :
    haveEndpoints envs = .ok () ↔ ∀ e ∈ envs, e.2.endpoints ≠ [] := by
  unfold haveEndpoints
  split
  next name env hfind =>
    refine iff_of_false nofun fun hall => ?_
    have hempty := List.find?_some hfind
    exact hall _ (List.mem_of_find?_eq_some hfind) (List.isEmpty_iff.mp hempty)
  next hfind =>
    refine iff_of_true rfl fun e he hempty => ?_
    exact List.find?_eq_none.mp hfind e he (List.isEmpty_iff.mpr hempty)

/-- **What the check makes sure of.** -/
theorem validate_eq_ok_iff : c.validate = .ok () ↔ c.IsValid := by
  unfold validate
  constructor
  · intro h
    obtain ⟨⟨⟩, henvs, h⟩ := eq_ok_of_bind h
    obtain ⟨⟨⟩, houtputs, hendpoints⟩ := eq_ok_of_bind h
    rw [oneDefault_eq_ok_iff, length_namesOf] at henvs houtputs
    exact ⟨henvs, houtputs, haveEndpoints_eq_ok_iff.mp hendpoints⟩
  · rintro ⟨henvs, houtputs, hendpoints⟩
    have hvalid : ∀ error, oneDefault (namesOf Env.isDefault c.envs) error = .ok () := fun _ =>
      oneDefault_eq_ok_iff.mpr (by rwa [length_namesOf])
    have hvalid' : ∀ error, oneDefault (namesOf Profile.isDefault c.outputs) error = .ok () := fun _ =>
      oneDefault_eq_ok_iff.mpr (by rwa [length_namesOf])
    rw [hvalid, hvalid', haveEndpoints_eq_ok_iff.mpr hendpoints]
    rfl

theorem IsValid.sublist (h : c.IsValid) (henvs : c'.envs.Sublist c.envs)
    (houtputs : c'.outputs = c.outputs) : c'.IsValid where
  envs := Nat.le_trans (henvs.countP_le) h.envs
  outputs := by
    rw [houtputs]
    exact h.outputs
  endpoints e he := h.endpoints e (henvs.subset he)

theorem IsValid.perm (h : c.IsValid) (henvs : c.envs.Perm c'.envs) (houtputs : c.outputs.Perm c'.outputs) :
    c'.IsValid where
  envs := henvs.countP_eq _ ▸ h.envs
  outputs := houtputs.countP_eq _ ▸ h.outputs
  endpoints e he := h.endpoints e (henvs.mem_iff.mpr he)

theorem IsValid.exists_endpoint (h : c.IsValid) {e : Scalar × Env} (he : e ∈ c.envs) (pick : Nat) :
    ∃ endpoint ∈ e.2.endpoints, e.2.endpoint pick = .ok endpoint := by
  have hpick : pick % e.2.endpoints.length < e.2.endpoints.length :=
    Nat.mod_lt _ (List.length_pos_iff.mpr (h.endpoints e he))
  refine ⟨_, List.getElem_mem hpick, ?_⟩
  rw [Env.endpoint, List.getElem?_eq_getElem hpick]

/-! ## What is meant without a name -/

/-- What is meant by no name: the environment that is the default, or else the only one. -/
inductive Meant (envs : List (Scalar × Env)) : Except ConfigError Env → Prop
  | default {e : Scalar × Env} (he : e ∈ envs) (hdefault : e.2.isDefault = true) : Meant envs (.ok e.2)
  | only {e : Scalar × Env} (henvs : envs = [e]) : Meant envs (.ok e.2)
  | nothing (hdefault : ∀ e ∈ envs, e.2.isDefault = false) (hmany : envs.length ≠ 1) :
    Meant envs (.error .noDefaultEnv)

theorem Meant.perm {envs envs' : List (Scalar × Env)} {r : Except ConfigError Env} (h : Meant envs r)
    (henvs : envs.Perm envs') : Meant envs' r := by
  cases h with
  | default he hdefault => exact .default (henvs.mem_iff.mp he) hdefault
  | only honly =>
    rw [honly] at henvs
    exact .only (List.singleton_perm.mp henvs).symm
  | nothing hdefault hmany =>
    refine .nothing (fun e he => hdefault e (henvs.mem_iff.mpr he)) ?_
    rwa [← henvs.length_eq]

theorem meant_env_nil (c : Config) : Meant c.envs (c.env []) := by
  rw [env, if_pos rfl]
  split
  next name e hfind =>
    exact .default (List.mem_of_find?_eq_some hfind) (by simpa using List.find?_some hfind)
  next hfind =>
    have hdefault : ∀ e ∈ c.envs, e.2.isDefault = false := by simpa using hfind
    split
    next name e honly => exact .only honly
    next hmany =>
      refine .nothing hdefault fun hone => ?_
      obtain ⟨e, he⟩ := List.length_eq_one_iff.mp hone
      exact hmany e.1 e.2 he

/-- **Without a name** there is only one thing that can be meant. -/
theorem env_nil_eq_iff (hone : c.envs.countP (fun e => e.2.isDefault) ≤ 1)
    {r : Except ConfigError Env} : c.env [] = r ↔ Meant c.envs r := by
  constructor
  · rintro rfl
    exact c.meant_env_nil
  intro h
  rw [env, if_pos rfl]
  cases h with
  | default he hdefault => rw [find?_eq_of_mem hone he hdefault]
  | @only e honly =>
    simp only [honly, List.find?_cons]
    cases e.2.isDefault <;> rfl
  | nothing hdefault hmany =>
    have hfind : c.envs.find? (fun e => e.2.isDefault) = none := by simpa using hdefault
    simp only [hfind]
    split
    next name e honly => exact absurd (by rw [honly]; rfl) hmany
    next => rfl

/-! ## Tables in another order -/

/-- **In another order** the environments have the same names. -/
theorem env_perm (h : c.IsValid) (hn : HaveNames c.envs) (henvs : c.envs.Perm c'.envs) (name : Text) :
    c'.env name = c.env name := by
  by_cases hname : name = []
  · subst hname
    exact (env_nil_eq_iff (henvs.countP_eq _ ▸ h.envs)).mpr (c.meant_env_nil.perm henvs)
  · rw [env, env, if_neg hname, if_neg hname, hn.lookup?_perm henvs]

/-- **In another order** the outputs have the same names. -/
theorem output_perm (h : c.IsValid) (hn : HaveNames c.outputs) (houtputs : c.outputs.Perm c'.outputs)
    (e : Env) (name : Text) : c'.output e name = c.output e name := by
  have hnamed : c'.namedOutput = c.namedOutput := by
    funext key
    rw [namedOutput, namedOutput, hn.lookup?_perm houtputs]
  have hdefault : c'.defaultOutput = c.defaultOutput := by
    rw [defaultOutput, defaultOutput, find?_perm houtputs h.outputs]
  rw [output, output, hnamed, hdefault]

/-! ## Removing environments -/

theorem removeEnv_eq (hn : HaveNames c.envs) {name : Text} (h : .string name ∈ c.envs.map Prod.fst) :
    c.removeEnv name = .ok { c with envs := c.envs.filter fun e => e.1 ≠ .string name } := by
  obtain ⟨e, he⟩ := hn.exists_lookup? h
  have hfilter : (c.envs.filter fun e => !e.1.sameKey (.string name))
      = c.envs.filter fun e => e.1 ≠ .string name :=
    List.filter_congr fun e he => by rw [hn.sameKey he, decide_not]
  rw [removeEnv, he]
  exact congrArg (fun envs => Except.ok { c with envs }) hfilter

/-- **Removing environments** one by one leaves the others as they are. -/
theorem removeEnvs_eq : ∀ {names : List Text} {c : Config}, HaveNames c.envs → names.Nodup →
    (∀ name ∈ names, .string name ∈ c.envs.map Prod.fst) →
    names.foldlM removeEnv c
      = .ok { c with envs := c.envs.filter fun e => e.1 ∉ names.map Scalar.string }
  | [], c, _, _, _ => by simp [pure, Except.pure]
  | name :: names, c, hn, hnodup, h => by
    obtain ⟨hname, hnames⟩ := List.forall_mem_cons.mp h
    obtain ⟨hnew, hnodup⟩ := List.nodup_cons.mp hnodup
    have hstill : ∀ other ∈ names,
        .string other ∈ (c.envs.filter fun e => e.1 ≠ .string name).map Prod.fst := by
      intro other hother
      obtain ⟨e, he, hfst⟩ := List.mem_map.mp (hnames other hother)
      refine List.mem_map.mpr ⟨e, List.mem_filter.mpr ⟨he, ?_⟩, hfst⟩
      rw [hfst, decide_eq_true_eq, ne_eq, Scalar.string.injEq]
      rintro rfl
      exact hnew hother
    rw [List.foldlM_cons, removeEnv_eq hn hname]
    refine (removeEnvs_eq (hn.filter _) hnodup hstill).trans ?_
    rw [List.filter_filter]
    refine congrArg (fun envs => Except.ok { c with envs }) (List.filter_congr fun e _ => ?_)
    rw [Bool.and_comm, ← Bool.decide_and]
    refine decide_eq_decide.mpr ?_
    rw [List.map_cons, List.mem_cons, not_or]

end Config
end LogQuery
