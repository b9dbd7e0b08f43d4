import LogQuery.Config.Shown
import LogQuery.Proofs.Steps
import LogQuery.Value.Access
/-!
# Values that are not what they should be

Taking a value apart, showing it and turning it into a number fails in few ways, and each of them says
something about the value.

* `table_eq_error_iff`, `elements_eq_error_iff`: what is no table, and what is no sequence.
* `shown_eq_error_iff`, `naming_eq_fault`: what cannot be shown, and what becomes of a report that names it.
* `toInteger_eq_overflow`, `toDecimal_eq_overflow`: what is too large.
-/
namespace LogQuery

theorem mapError_fault_iff {α : Type} {x : Except Fault α} {f : Fault} :
    x.mapError Failure.fault = .error (.fault f) ↔ x = .error f := by
  cases x <;> simp [Except.mapError]

theorem Failure.naming_eq_fault {v : Value} {e : Failure} {f : Fault} : naming v e = .fault f ↔
    e = .fault f ∨ (∃ cause, e = .config cause) ∧ v.isShowable = false ∧ f = Json.longInteger := by
  unfold naming
  split
  next cause => cases v.isShowable <;> simp [eq_comm]
  next hconfig =>
    refine (or_iff_left ?_).symm
    rintro ⟨⟨cause, rfl⟩, -⟩
    exact hconfig cause rfl

theorem Failure.naming_config {v : Value} (h : v.isShowable = false) (e : ConfigError) :
    naming v (.config e) = .fault Json.longInteger :=
  naming_eq_fault.mpr (Or.inr ⟨⟨e, rfl⟩, h, rfl⟩)

theorem mapError_naming_eq_fault {α : Type} {x : Except Failure α} {v : Value} {f : Fault} :
    x.mapError (Failure.naming v) = .error (.fault f) ↔ x = .error (.fault f) ∨
      (∃ cause, x = .error (.config cause)) ∧ v.isShowable = false ∧ f = Json.longInteger := by
  cases x with
  | ok a => exact iff_of_false nofun (by simp)
  | error e => simpa [Except.mapError] using Failure.naming_eq_fault

/-! ## Tables and sequences -/

namespace Value

def isTable : Value → Bool
  | map _ => true
  | _ => false

variable {v w : Value} {f : Fault} {key : String}

theorem entries_eq_error_iff : v.entries = .error f ↔ v.isTable = false ∧ f = .missingOperation := by
  cases v <;> simp [entries, isTable, eq_comm]

theorem entry_eq_error_iff :
    v.entry key = .error f ↔ v.isTable = false ∧ f = .missingOperation := by
  rw [entry, map_eq_error_iff, entry?, map_eq_error_iff, entries_eq_error_iff]

theorem entryOr_eq_error_iff {default : Value} :
    v.entryOr key default = .error f ↔ v.isTable = false ∧ f = .missingOperation := by
  rw [entryOr, map_eq_error_iff, entry?, map_eq_error_iff, entries_eq_error_iff]

theorem isTable_of_entry (h : v.entry key = .ok w) : v.isTable = true := by
  cases v <;> first | rfl | cases h

theorem isTable_of_entryOr {default : Value} (h : v.entryOr key default = .ok w) : v.isTable = true := by
  cases v <;> first | rfl | cases h

theorem exists_entry (h : v.isTable = true) (key : String) : ∃ w, v.entry key = .ok w := by
  cases v <;> first | exact ⟨_, rfl⟩ | cases h

theorem exists_entryOr (h : v.isTable = true) (key : String) (default : Value) :
    ∃ w, v.entryOr key default = .ok w := by
  cases v <;> first | exact ⟨_, rfl⟩ | cases h

/-- Where a table should be there is something else. -/
inductive HoldsNoTable (v : Value) (key : String) : Prop
  | mk {w : Value} (hw : v.entry key = .ok w) (htruthy : w.isTruthy = true) (h : w.isTable = false)

/-- There is no table in a table, or there is not even that. -/
inductive LacksTable (v : Value) (key : String) : Prop
  | outer (h : v.isTable = false)
  | inner (h : v.HoldsNoTable key)

theorem table_eq_error_iff : v.table key = .error f ↔ v.LacksTable key ∧ f = .missingOperation := by
  unfold table
  rw [bind_eq_error_iff]
  constructor
  · rintro (h | ⟨w, hw, h⟩)
    · obtain ⟨houter, rfl⟩ := entry_eq_error_iff.mp h
      exact ⟨.outer houter, rfl⟩
    · rw [orElse, entries_eq_error_iff] at h
      obtain ⟨h, rfl⟩ := h
      split at h
      next htruthy => exact ⟨.inner ⟨hw, htruthy, h⟩, rfl⟩
      next => cases h
  · rintro ⟨h | ⟨⟨hw, htruthy, h⟩⟩, rfl⟩
    · exact Or.inl (entry_eq_error_iff.mpr ⟨h, rfl⟩)
    · refine Or.inr ⟨_, hw, ?_⟩
      rw [orElse, if_pos htruthy]
      exact entries_eq_error_iff.mpr ⟨h, rfl⟩

/-- A value that is no sequence: a scalar other than a text and a byte string. -/
inductive NoSequence : Value → Fault → Prop
  | scalar {s : Scalar} (htext : ∀ t, s ≠ .string t) (hbytes : ∀ b, s ≠ .bytes b) :
    NoSequence (.scalar s) (.wrongType (s.kindName.quoted ++ " object is not iterable"))

theorem elements_eq_error_iff : v.elements = .error f ↔ v.NoSequence f := by
  constructor
  · intro h
    cases v with
    | scalar s =>
      cases s with
      | string | bytes => cases h
      | _ =>
        cases h
        exact .scalar nofun nofun
    | _ => cases h
  · intro h
    cases h with
    | @scalar s htext hbytes =>
      cases s with
      | string t => exact absurd rfl (htext t)
      | bytes b => exact absurd rfl (hbytes b)
      | _ => rfl

/-! ## What is shown -/

theorem shown_eq_error_iff : v.shown = .error f ↔ v.isShowable = false ∧ f = Json.longInteger := by
  unfold shown
  cases v.isShowable <;> simp [eq_comm]

theorem shown_eq_ok_iff {t : Text} : v.shown = .ok t ↔ v.isShowable = true ∧ t = v.display := by
  unfold shown
  cases v.isShowable <;> simp [eq_comm]

/-! ## Numbers -/

variable {message : Text}

theorem readBytes_eq_error {α : Type} {b : Bytes} {read : Text → Option α} {problem : Text} {f : Fault}
    (h : readBytes b read problem = .error f) : ∃ message, f = .badValue message := by
  unfold readBytes at h
  split at h <;> cases h
  exact ⟨_, rfl⟩

theorem nearest_eq_overflow {n : Int} : nearest n = .error (.overflow message) ↔
    Binary64.ofInt? n = none ∧ message = "int too large to convert to float" := by
  unfold nearest
  cases Binary64.ofInt? n <;> simp [eq_comm]

theorem toInteger_eq_overflow : v.toInteger = .error (.overflow message) ↔
    ∃ negative, v = .float (.infinite negative) ∧
      message = "cannot convert float infinity to integer" := by
  constructor
  · intro h
    unfold toInteger at h
    split at h
    next => cases h
    next => cases h
    next => cases h
    next negative =>
      cases h
      exact ⟨negative, rfl, rfl⟩
    next => cases h
    next =>
      obtain ⟨e, -, he⟩ := eq_error_of_mapError h
      cases he
    next =>
      obtain ⟨_, he⟩ := readBytes_eq_error h
      cases he
    next => cases h
  · rintro ⟨negative, rfl, rfl⟩
    rfl

theorem toDecimal_eq_overflow : v.toDecimal = .error (.overflow message) ↔
    ∃ n, v = .integer n ∧ Binary64.ofInt? n = none ∧ message = "int too large to convert to float" := by
  constructor
  · intro h
    unfold toDecimal at h
    split at h
    next b =>
      have hsmall : ∀ b : Bool, (Binary64.ofInt? (if b then 1 else 0)).isSome = true := by decide +kernel
      have hsome := hsmall b
      rw [(nearest_eq_overflow.mp h).1] at hsome
      cases hsome
    next n => exact ⟨n, rfl, nearest_eq_overflow.mp h⟩
    next => cases h
    next =>
      obtain ⟨e, -, he⟩ := eq_error_of_mapError h
      cases he
    next =>
      obtain ⟨_, he⟩ := readBytes_eq_error h
      cases he
    next => cases h
  · rintro ⟨n, rfl, h⟩
    rw [toDecimal]
    exact nearest_eq_overflow.mpr h

end Value

end LogQuery
