import LogQuery.Output.Render
import LogQuery.Proofs.Output.Nested
/-!
# Records that cannot be shown

Of all the steps from a record to bytes some can break down, each in its own way: a YAML document in one of
its strings cannot be read, something in it has no form in JSON, it is nested too deeply for the stack, or
its text has no bytes. What the faults can be is said here once (`IsUnshowable`), and `render_eq_error` says
that there are no others.
-/
namespace LogQuery

/-! ## Values without a form in JSON -/

namespace Json

/-- What can stop a value from being written. -/
def IsRefusal (f : Fault) : Prop := f = longInteger ∨ ∃ message, f = .wrongType message

theorem isRefusal_of_scalar {s : Scalar} {f : Fault} (h : scalarRefusal? s = some f) :
    IsRefusal f := by
  unfold scalarRefusal? at h
  split at h
  · split at h
    · cases h
    · exact Or.inl (Option.some.inj h).symm
  · cases h

theorem isRefusal_of_key {s : Scalar} {f : Fault} (h : keyRefusal? s = some f) : IsRefusal f := by
  unfold keyRefusal? at h
  split at h
  · exact Or.inr ⟨_, (Option.some.inj h).symm⟩
  · exact Or.inr ⟨_, (Option.some.inj h).symm⟩
  · exact Or.inr ⟨_, (Option.some.inj h).symm⟩
  · exact isRefusal_of_scalar h

/-- Why a value cannot be written, if levels of nesting count. -/
def IsRefusalWithin (levels : Option Nat) (f : Fault) : Prop := IsRefusal f ∨ levels ≠ none ∧ f = .tooDeep

theorem isRefusalWithin_of_nest {levels : Option Nat} {f : Fault} (h : nestRefusal? levels = some f) :
    IsRefusalWithin levels f := by
  unfold nestRefusal? at h
  split at h
  next hzero => exact Or.inr ⟨by rw [hzero]; nofun, (Option.some.inj h).symm⟩
  next => cases h

theorem IsRefusalWithin.of_pred {levels : Option Nat} {f : Fault}
    (h : IsRefusalWithin (levels.map Nat.pred) f) : IsRefusalWithin levels f :=
  h.imp_right fun ⟨hsome, hf⟩ => ⟨fun hnone => hsome (by rw [hnone]; rfl), hf⟩

mutual

theorem isRefusal_of_value {f : Fault} : ∀ {levels : Option Nat} {v : Value},
    refusalWithin? levels v = some f → IsRefusalWithin levels f
  | _, .scalar s, h => Or.inl (isRefusal_of_scalar h)
  | _, .list items, h => by
    rcases Option.or_eq_some_iff.mp h with h | ⟨-, h⟩
    · exact isRefusalWithin_of_nest h
    · exact (isRefusal_of_items h).of_pred
  | _, .tuple items, h => by
    rcases Option.or_eq_some_iff.mp h with h | ⟨-, h⟩
    · exact isRefusalWithin_of_nest h
    · exact (isRefusal_of_items h).of_pred
  | _, .map entries, h => by
    rcases Option.or_eq_some_iff.mp h with h | ⟨-, h⟩
    · exact isRefusalWithin_of_nest h
    · exact (isRefusal_of_entries h).of_pred
  | _, .set items, h => by
    obtain ⟨s, -, hs⟩ := List.exists_of_findSome?_eq_some h
    exact Or.inl (isRefusal_of_scalar hs)

theorem isRefusal_of_items {f : Fault} : ∀ {levels : Option Nat} {items : List Value},
    itemRefusalWithin? levels items = some f → IsRefusalWithin levels f
  | _, v :: rest, h => by
    rw [itemRefusalWithin?, Option.or_eq_some_iff] at h
    rcases h with h | ⟨-, h⟩
    · exact isRefusal_of_value h
    · exact isRefusal_of_items h

theorem isRefusal_of_entries {f : Fault} : ∀ {levels : Option Nat} {entries : List (Scalar × Value)},
    entryRefusalWithin? levels entries = some f → IsRefusalWithin levels f
  | _, (k, v) :: rest, h => by
    rw [entryRefusalWithin?, Option.or_eq_some_iff, Option.or_eq_some_iff] at h
    rcases h with h | ⟨-, h | ⟨-, h⟩⟩
    · exact Or.inl (isRefusal_of_key h)
    · exact isRefusal_of_value h
    · exact isRefusal_of_entries h

end

theorem encodeWithin_eq_error {levels : Option Nat} {s : Style} {v : Value} {f : Fault}
    (h : encodeWithin levels s v = .error f) : IsRefusalWithin levels f := by
  unfold encodeWithin at h
  split at h
  next hrefusal =>
    cases h
    exact isRefusal_of_value hrefusal
  next => cases h

theorem encode_eq_error {s : Style} {v : Value} {f : Fault} (h : encode s v = .error f) : IsRefusal f :=
  (encodeWithin_eq_error h).resolve_right fun hdeep => hdeep.1 rfl

end Json

/-! ## Selecting fields -/

namespace Profile

variable {f : Fault}

theorem fieldKey_eq_error {v : Value} (h : fieldKey v = .error f) :
    ∃ message, f = .wrongType message := by
  cases v with
  | scalar s => cases h
  | _ => exact ⟨_, (Except.error.inj h).symm⟩

theorem select_eq_error {p : Profile} {record : Record} (h : p.select record = .error f) :
    ∃ message, f = .wrongType message := by
  unfold select at h
  split at h
  · rcases eq_error_of_bind h with hkeys | ⟨_, -, h⟩
    · obtain ⟨v, -, hv⟩ := eq_error_of_mapM hkeys
      exact fieldKey_eq_error hv
    · cases h
  · rcases eq_error_of_bind h with hkeys | ⟨_, -, h⟩
    · obtain ⟨v, -, hv⟩ := eq_error_of_mapM hkeys
      exact fieldKey_eq_error hv
    · cases h
  · cases h

end Profile

/-! ## Documents inside strings -/

section
variable [Runtime]

/-- A fault of reading a YAML document in a string. -/
def IsYamlFault (targets : List Target) (f : Fault) : Prop :=
  .yaml ∈ targets ∧ ∃ frames t, Runtime.yaml frames t = .error (.fault f)

variable {targets : List Target} {f : Fault}

theorem yamlDocument?_eq_error_iff {frames : Nat} {t : Text} :
    yamlDocument? frames t = .error f ↔ Runtime.yaml frames t = .error (.fault f) := by
  unfold yamlDocument?
  split
  next heq => simp [heq]
  next heq => simp [heq]
  next heq => simp [heq]
  next heq => simp [heq]
  next heq => simp [heq]

theorem yamlTarget?_eq_error_iff {frames : Nat} {t : Text} : yamlTarget? targets frames t = .error f ↔
    .yaml ∈ targets ∧ Runtime.yaml frames t = .error (.fault f) := by
  rw [← yamlDocument?_eq_error_iff, yamlTarget?]
  split
  next hmem => rw [and_iff_right (List.contains_iff_mem.mp hmem)]
  next hmem => exact iff_of_false (fun h => by cases h) fun h => hmem (List.contains_iff_mem.mpr h.1)

theorem decodeString_eq_error {frames : Nat} {t : Text} (h : decodeString targets frames t = .error f) :
    IsYamlFault targets f := by
  obtain ⟨hmem, hyaml⟩ := yamlTarget?_eq_error_iff.mp (decodeString_eq_error_iff.mp h).2
  exact ⟨hmem, frames, t, hyaml⟩

/-- A string that becomes nothing has too few frames, or a YAML document in it cannot be read. -/
theorem decodeText_decodeString_eq_error {frames : Nat} {t : Text}
    (h : decodeText (decodeString targets) frames t = .error f) :
    f = .tooDeep ∨ IsYamlFault targets f := by
  rcases decodeText_eq_error h with hdeep | ⟨m, s, hs⟩
  · exact Or.inl hdeep
  · exact Or.inr (decodeString_eq_error hs)

/-- A value that becomes nothing is nested too deeply, or a YAML document in it cannot be read. -/
theorem decodeAll_eq_error {v : Value} (h : decodeAll targets v = .error f) :
    f = .tooDeep ∨ IsYamlFault targets f := by
  rcases Value.mapStrings_eq_error h with hdeep | ⟨m, -, t, ht⟩
  · exact Or.inl hdeep
  · exact decodeText_decodeString_eq_error ht

/-! ## Records -/

namespace Profile

variable {p : Profile} {record : Record}

theorem apply_eq_error (h : p.apply record = .error f) :
    Json.IsRefusal f ∨ f = .tooDeep ∨ IsYamlFault p.decode f := by
  rcases eq_error_of_bind h with hselect | ⟨shown, -, h⟩
  · exact Or.inl (Or.inr (select_eq_error hselect))
  split at h
  · cases h
  · rcases Value.mapStringsEntries_eq_error h with hdeep | ⟨m, -, t, ht⟩
    · exact Or.inr (Or.inl hdeep)
    · exact Or.inr (decodeText_decodeString_eq_error ht)

end Profile

/-- What can stop records from being shown. -/
def IsUnshowable (p : Profile) (f : Fault) : Prop :=
  f = .unencodable ∨ Json.IsRefusal f ∨ f = .tooDeep ∨ IsYamlFault p.decode f

theorem recordText_eq_error {p : Profile} {record : Record} {e : Failure}
    (h : recordText p record = .error e) : ∃ f, e = recordFailure f ∧ IsUnshowable p f := by
  rcases eq_error_of_bind h with hshown | ⟨shown, -, h⟩
  · obtain ⟨f, hf, rfl⟩ := eq_error_of_mapError hshown
    exact ⟨f, rfl, Or.inr (Profile.apply_eq_error hf)⟩
  rcases eq_error_of_bind h with htext | ⟨text, -, h⟩
  · obtain ⟨f, hf, rfl⟩ := eq_error_of_mapError htext
    exact ⟨f, rfl, Or.inr ((Json.encodeWithin_eq_error hf).imp_right fun hdeep => Or.inl hdeep.2)⟩
  · cases h

/-- **Why records cannot be shown**, if their format exists. -/
theorem render_eq_error {p : Profile} {records : List Record} {e : Failure}
    (hf : p.hasFormat = true) (h : render p records = .error e) :
    ∃ f, e = recordFailure f ∧ IsUnshowable p f := by
  unfold render at h
  rw [if_pos hf] at h
  rcases eq_error_of_bind h with htexts | ⟨text, -, h⟩
  · obtain ⟨record, -, hrecord⟩ := eq_error_of_mapM (eq_error_of_map htexts)
    exact recordText_eq_error hrecord
  · split at h
    · cases h
    · exact ⟨.unencodable, (Except.error.inj h).symm, Or.inl rfl⟩

end
end LogQuery
