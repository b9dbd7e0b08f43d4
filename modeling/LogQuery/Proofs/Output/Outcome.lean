import LogQuery.Proofs.Output.Failure
import LogQuery.Proofs.Output.Shorter
import LogQuery.Proofs.Output.Written
import LogQuery.Runtime.Standard
/-!
# What becomes of a string

A string decodes to a map or a list, or it is left as it is, or it breaks decoding down. The last happens
only where the string is tried as YAML, and then it is the reader of YAML that broke down.

* `decodeOrKeep_outcomes`: what becomes of a string.
* `strings_break`: strings that break decoding down, one for each kind of fault.
-/
namespace LogQuery

theorem isDocument_of_jsonDocument? {depth : Nat} {t : Text} {v : Value}
    (h : jsonDocument? depth t = some v) : v.isDocument = true := by
  unfold jsonDocument? at h
  split at h
  · cases h
  split at h
  · split at h
    · cases h
      rfl
    · cases h
      rfl
    · cases h
  · cases h

section

variable [Runtime] {targets : List Target} {frames : Nat} {t : Text} {f : Fault}

/-- What a string becomes with some frames left, and whether it was decoded. -/
def decodeOrKeep (targets : List Target) (frames : Nat) (t : Text) : Except Fault (Value × Bool) :=
  (decodeString targets frames t).map fun document =>
    match document with
    | some v => (v, true)
    | none => (.string t, false)

theorem isDocument_of_yamlDocument? {v : Value} (h : yamlDocument? frames t = .ok (some v)) :
    v.isDocument = true := by
  unfold yamlDocument? at h
  split at h
  all_goals cases h
  · rfl
  · rfl

theorem isDocument_of_decodeString {v : Value} (h : decodeString targets frames t = .ok (some v)) :
    v.isDocument = true := by
  rcases decodeString_eq_some h with ⟨depth, hjson⟩ | ⟨-, hyaml⟩ | ⟨r, -, rfl⟩
  · exact isDocument_of_jsonDocument? hjson
  · exact isDocument_of_yamlDocument? hyaml
  · rfl

/-- Whether reading a string as YAML breaks down: YAML is a target, JSON decodes nothing before, and the
reader stops with a fault. -/
structure YamlBreaks (targets : List Target) (frames : Nat) (t : Text) (f : Fault) : Prop where
  target : .yaml ∈ targets
  noJson : .json ∈ targets → jsonDocument? (Runtime.textDepth frames) t = none
  fault : Runtime.yaml frames t = .error (.fault f)

theorem decodeOrKeep_eq_error_iff : decodeOrKeep targets frames t = .error f ↔
    YamlBreaks targets frames t f := by
  rw [decodeOrKeep, map_eq_error_iff, decodeString_eq_error_iff, jsonTarget?_eq_none_iff,
    yamlTarget?_eq_error_iff]
  exact ⟨fun ⟨hjson, hyaml, hfault⟩ => ⟨hyaml, hjson, hfault⟩,
    fun ⟨hyaml, hjson, hfault⟩ => ⟨hjson, hyaml, hfault⟩⟩

/-- **What becomes of a string.** It is a map or a list, or it is left as it is, or it breaks decoding down.
It breaks decoding down exactly where it is tried as YAML and the reader of YAML breaks down, and then with
the same fault. -/
theorem decodeOrKeep_outcomes (targets : List Target) (frames : Nat) (t : Text) :
    ((∃ v, v.isDocument = true ∧ decodeOrKeep targets frames t = .ok (v, true)) ∨
      decodeOrKeep targets frames t = .ok (.string t, false) ∨
      ∃ f, YamlBreaks targets frames t f ∧ decodeOrKeep targets frames t = .error f) ∧
    ∀ f, decodeOrKeep targets frames t = .error f ↔ YamlBreaks targets frames t f := by
  refine ⟨?_, fun f => decodeOrKeep_eq_error_iff⟩
  cases hdecode : decodeString targets frames t with
  | error f =>
    have hfails : decodeOrKeep targets frames t = .error f := map_eq_error_iff.mpr hdecode
    exact Or.inr (Or.inr ⟨f, decodeOrKeep_eq_error_iff.mp hfails, hfails⟩)
  | ok document =>
    cases document with
    | none =>
      refine Or.inr (Or.inl ?_)
      rw [decodeOrKeep, hdecode]
      rfl
    | some v =>
      refine Or.inl ⟨v, isDocument_of_decodeString hdecode, ?_⟩
      rw [decodeOrKeep, hdecode]
      rfl

end

attribute [local instance] Runtime.standard in
/-- Strings that break decoding down, one for each kind of fault: an impossible day, an integer without a
sign or a digit, a word that is no truth value, a word that is no date, and an escape beyond all numbers. -/
theorem strings_break :
    decodeOrKeep [.yaml] Runtime.frames "k: 2021-02-30\n"
      = .error (.badValue "day is out of range for month") ∧
    decodeOrKeep [.yaml] Runtime.frames "- !!int ''" = .error .missingElement ∧
    decodeOrKeep [.yaml] Runtime.frames "- !!bool x" = .error .missingKey ∧
    decodeOrKeep [.yaml] Runtime.frames "- !!timestamp x" = .error .missingOperation ∧
    decodeOrKeep [.yaml] Runtime.frames "- \"\\UFFFFFFFF\""
      = .error (.overflow "Python int too large to convert to C int") := by
  refine ⟨?_, ?_, ?_, ?_, ?_⟩ <;> exact eq_error_of_failure? (by decide +kernel)

end LogQuery
