import LogQuery.Proofs.Json.ReadTree
import LogQuery.Proofs.Output.Strings
/-!
# Strings with less of the stack or more

The nesting that strings are decoded to inside one another never runs out before the frames do
(`decodeNested_of_le`), so a string decodes to its document with all of that decoded (`decodeText_eq`).

What one string decodes to depends on the frames that are left: a document in JSON may be nested too deeply
for a few of them, and a document in YAML may be. More frames do not change what was decoded, and what is
the same with a few frames and with many is the same with any number in between (`decodeString_between`).
-/
namespace LogQuery

theorem jsonDocument?_of_le {depth deeper : Nat} {t : Text} {v : Value}
    (hle : depth ≤ deeper) (h : jsonDocument? depth t = some v) : jsonDocument? deeper t = some v := by
  have hread : ∀ {x : Tagged}, Tagged.decode depth t = .ok x → Tagged.decode deeper t = .ok x := by
    intro x hx
    obtain ⟨tree, htree, rfl⟩ := eq_ok_of_map hx
    rw [Tagged.decode, Json.read_of_le hle htree]
    rfl
  unfold jsonDocument? at h ⊢
  split at h
  next => cases h
  next =>
    split at h
    next hfirst =>
      rw [if_pos hfirst]
      split at h
      next hx =>
        rw [hread hx]
        exact h
      next hx =>
        rw [hread hx]
        exact h
      next => cases h
    next => cases h

variable [Runtime]

/-! ## One string inside another -/

section
variable {decode : Nat → Text → Except Fault (Option Value)} {f : Fault} {n : Nat} {t : Text}

theorem decodeNested_of_le {nesting frames : Nat} {t : Text} (h : frames ≤ nesting) :
    decodeNested decode nesting frames t = decodeText decode frames t := by
  match nesting, frames with
  | 0, 0 => rfl
  | nesting + 1, 0 => rw [decodeText, decodeNested, decodeNested, if_pos (Nat.zero_le _)]
  | nesting + 1, frames + 1 =>
    -- Inside the document there is one frame less, so the nesting that is left suffices for all of it.
    have hinside : ∀ v : Value, v.mapStrings (decodeNested decode nesting) frames
        = v.mapStrings (decodeNested decode frames) frames := fun v =>
      Value.mapStrings_congr fun m hm s _ =>
        (decodeNested_of_le (by omega)).trans (decodeNested_of_le hm).symm
    rw [decodeText, decodeNested, decodeNested]
    simp only [Nat.add_sub_cancel, hinside]
termination_by nesting

theorem decodeText_eq (frames : Nat) (t : Text) : decodeText decode frames t =
    if frames ≤ Runtime.callFrames then .error .tooDeep
    else decode frames t >>= fun document =>
      match document with
      | some v => v.mapStrings (decodeText decode) (frames - 1)
      | none => .ok (.string t) := by
  cases frames with
  | zero => rw [decodeText, decodeNested, if_pos (Nat.zero_le _)]
  | succ n =>
    have hinside : ∀ v : Value, v.mapStrings (decodeNested decode n) n
        = v.mapStrings (decodeText decode) n := fun v =>
      Value.mapStrings_congr fun m hm s _ => decodeNested_of_le hm
    rw [decodeText, decodeNested]
    refine ite_congr rfl (fun _ => rfl) fun _ => ?_
    cases decode (n + 1) t with
    | error f => rfl
    | ok document =>
      cases document with
      | none => rfl
      | some v => exact hinside v

/-- A string that becomes something has enough frames, and it is kept or becomes what its document does. -/
theorem cases_of_decodeText {u : Value} (h : decodeText decode n t = .ok u) : Runtime.callFrames < n ∧
    (decode n t = .ok none ∧ u = .string t ∨
      ∃ v, decode n t = .ok (some v) ∧ v.mapStrings (decodeText decode) (n - 1) = .ok u) := by
  rw [decodeText_eq] at h
  split at h
  next => cases h
  next hroom =>
    obtain ⟨document, hdecode, h⟩ := eq_ok_of_bind h
    refine ⟨Nat.lt_of_not_le hroom, ?_⟩
    cases document with
    | none => exact Or.inl ⟨hdecode, (Except.ok.inj h).symm⟩
    | some v => exact Or.inr ⟨v, hdecode, h⟩

theorem decodeText_of_none (hroom : Runtime.callFrames < n) (h : decode n t = .ok none) :
    decodeText decode n t = .ok (.string t) := by
  rw [decodeText_eq, if_neg (Nat.not_le_of_lt hroom), h]
  rfl

theorem decodeText_of_some {v : Value} (hroom : Runtime.callFrames < n) (h : decode n t = .ok (some v)) :
    decodeText decode n t = v.mapStrings (decodeText decode) (n - 1) := by
  rw [decodeText_eq, if_neg (Nat.not_le_of_lt hroom), h]
  rfl

theorem decodeText_of_error (hroom : Runtime.callFrames < n) (h : decode n t = .error f) :
    decodeText decode n t = .error f := by
  rw [decodeText_eq, if_neg (Nat.not_le_of_lt hroom), h]
  rfl

/-- Where a string becomes nothing, one string does not decode or the frames do not suffice. -/
theorem decodeText_eq_error (h : decodeText decode n t = .error f) :
    f = .tooDeep ∨ ∃ m s, decode m s = .error f := by
  induction n using Nat.strong_induction_on generalizing t with
  | _ n ih =>
    rw [decodeText_eq] at h
    split at h
    next => exact Or.inl (Except.error.inj h).symm
    next hroom =>
      rcases eq_error_of_bind h with hdecode | ⟨document, -, h⟩
      · exact Or.inr ⟨n, t, hdecode⟩
      · cases document with
        | none => cases h
        | some v =>
          rcases Value.mapStrings_eq_error h with hdeep | ⟨m, hm, s, hs⟩
          · exact Or.inl hdeep
          · exact ih m (by omega) hs

theorem kept_of_decodeText {u : Value} (h : decodeText decode n t = .ok u) :
    ∀ s ∈ u.strings, ∃ m ≤ n, decode m s = .ok none := by
  induction n using Nat.strong_induction_on generalizing t u with
  | _ n ih =>
    obtain ⟨hroom, ⟨hnone, rfl⟩ | ⟨v, -, hv⟩⟩ := cases_of_decodeText h
    · intro s hs
      rw [List.mem_singleton.mp hs]
      exact ⟨n, Nat.le_refl n, hnone⟩
    · intro s hs
      obtain ⟨_, -, m, hm, w, hw, hsw⟩ := Value.mem_strings_of_mapStrings hv hs
      obtain ⟨k, hk, hnone⟩ := ih m (by omega) hw s hsw
      exact ⟨k, by omega, hnone⟩

end

/-! ## More frames -/

variable {targets : List Target} {m k n : Nat} {t : Text} {v : Value}

/-- What a string is in YAML does not change with more frames, unless they were too few. -/
theorem yamlDocument?_of_le (hle : m ≤ n) (h : yamlDocument? m t ≠ .error .tooDeep) :
    yamlDocument? n t = yamlDocument? m t := by
  have hsame : Runtime.yaml n t = Runtime.yaml m t := by
    refine Runtime.yaml_steady hle fun hdeep => h ?_
    rw [yamlDocument?, hdeep]
  rw [yamlDocument?, hsame, yamlDocument?]

/-- The document of a string in JSON, if that is a target. -/
def jsonTarget? (targets : List Target) (frames : Nat) (t : Text) : Option Value :=
  if targets.contains .json then jsonDocument? (Runtime.textDepth frames) t else none

/-- The document of a string in YAML, if that is a target. -/
def yamlTarget? (targets : List Target) (frames : Nat) (t : Text) : Except Fault (Option Value) :=
  if targets.contains .yaml then yamlDocument? frames t else .ok none

theorem jsonTarget?_eq_none_iff : jsonTarget? targets n t = none ↔
    (.json ∈ targets → jsonDocument? (Runtime.textDepth n) t = none) := by
  simp [jsonTarget?]

theorem jsonTarget?_of_le (hle : m ≤ n) (h : jsonTarget? targets m t = some v) :
    jsonTarget? targets n t = some v := by
  unfold jsonTarget? at h ⊢
  split at h
  next hjson =>
    rw [if_pos hjson]
    exact jsonDocument?_of_le (Runtime.textDepth_mono hle) h
  next => cases h

theorem jsonTarget?_eq_none_of_le (hle : m ≤ n) (h : jsonTarget? targets n t = none) :
    jsonTarget? targets m t = none := by
  cases hm : jsonTarget? targets m t with
  | none => rfl
  | some v => exact (jsonTarget?_of_le hle hm).symm.trans h

theorem yamlTarget?_of_le (hle : m ≤ n) (h : yamlTarget? targets m t ≠ .error .tooDeep) :
    yamlTarget? targets n t = yamlTarget? targets m t := by
  unfold yamlTarget? at h ⊢
  split
  next hyaml =>
    rw [if_pos hyaml] at h
    exact yamlDocument?_of_le hle h
  next => rfl

theorem decodeString_of_json (h : jsonTarget? targets n t = some v) :
    decodeString targets n t = .ok (some v) := by
  unfold jsonTarget? at h
  simp only [decodeString, h]
  rfl

/-- A string without a document in JSON decodes to the one in YAML, or else to a request. -/
theorem decodeString_of_noJson (h : jsonTarget? targets n t = none) : decodeString targets n t =
    (yamlTarget? targets n t).map fun yaml =>
      yaml.or (if targets.contains .http then (HttpRequest.ofText? t).map (·.toValue) else none) := by
  unfold jsonTarget? at h
  simp only [decodeString, h, yamlTarget?, Option.isSome_none, Bool.false_eq_true, if_false]
  split
  next => cases yamlDocument? n t <;> rfl
  next => rfl

theorem decodeString_eq_error_iff {f : Fault} : decodeString targets n t = .error f ↔
    jsonTarget? targets n t = none ∧ yamlTarget? targets n t = .error f := by
  cases hjson : jsonTarget? targets n t with
  | some v => simp [decodeString_of_json hjson]
  | none => rw [decodeString_of_noJson hjson, map_eq_error_iff, and_iff_right rfl]

/-- **In between.** What a string decodes to is the same with any number of frames between two with which
it is the same. -/
theorem decodeString_between (hmk : m ≤ k) (hkn : k ≤ n)
    (h : decodeString targets m t = decodeString targets n t) :
    decodeString targets k t = decodeString targets n t := by
  cases hjson : jsonTarget? targets k t with
  | some v => rw [decodeString_of_json hjson, decodeString_of_json (jsonTarget?_of_le hkn hjson)]
  | none =>
    have hless := jsonTarget?_eq_none_of_le hmk hjson
    by_cases hdeep : yamlTarget? targets m t = .error .tooDeep
    · -- With few frames YAML is too deep, so it is with many, and then in between as well.
      have hfew := decodeString_eq_error_iff.mpr ⟨hless, hdeep⟩
      obtain ⟨-, hmany⟩ := decodeString_eq_error_iff.mp (h.symm.trans hfew)
      have hbetween : yamlTarget? targets k t = .error .tooDeep := by
        by_contra hne
        exact hne ((yamlTarget?_of_le hkn hne).symm.trans hmany)
      rw [decodeString_eq_error_iff.mpr ⟨hjson, hbetween⟩, ← h, hfew]
    · rw [← h, decodeString_of_noJson hjson, decodeString_of_noJson hless, yamlTarget?_of_le hmk hdeep]

/-- A string that does not decode does not decode with fewer frames either, unless they are too few. -/
theorem decodeString_of_none (hle : m ≤ n) (h : decodeString targets n t = .ok none) :
    decodeString targets m t = .ok none ∨ decodeString targets m t = .error .tooDeep := by
  have hmany : jsonTarget? targets n t = none := by
    cases hn : jsonTarget? targets n t with
    | none => rfl
    | some v => rw [decodeString_of_json hn] at h; cases h
  have hjson := jsonTarget?_eq_none_of_le hle hmany
  by_cases hdeep : yamlTarget? targets m t = .error .tooDeep
  · exact Or.inr (decodeString_eq_error_iff.mpr ⟨hjson, hdeep⟩)
  · rw [decodeString_of_noJson hmany, yamlTarget?_of_le hle hdeep, ← decodeString_of_noJson hjson] at h
    exact Or.inl h

end LogQuery
