import Mathlib.Data.List.Perm.Basic
/-!
# Steps that may fail

What is known of a row of steps from its outcome: if it succeeds every step does, and if it fails one
step does. The programs of this library are such rows, and these lemmas take them apart from the outside,
one step at a time.
-/
namespace LogQuery

variable {ε ε' α β : Type} {x : Except ε α}

theorem eq_ok_of_map {f : α → β} {b : β} (h : x.map f = .ok b) : ∃ a, x = .ok a ∧ f a = b := by
  cases x with
  | error e => cases h
  | ok a => exact ⟨a, rfl, Except.ok.inj h⟩

theorem eq_ok_of_mapError {f : ε → ε'} {a : α} (h : x.mapError f = .ok a) : x = .ok a := by
  cases x with
  | error e => cases h
  | ok b => exact congrArg Except.ok (Except.ok.inj h)

theorem mapError_eq_ok_iff {f : ε → ε'} {a : α} : x.mapError f = .ok a ↔ x = .ok a := by
  refine ⟨eq_ok_of_mapError, fun h => ?_⟩
  rw [h]
  rfl

theorem eq_ok_of_toOption {a : α} (h : x.toOption = some a) : x = .ok a := by
  cases x with
  | error e => cases h
  | ok b => exact congrArg Except.ok (Option.some.inj h)

theorem eq_ok_of_bind {f : α → Except ε β} {b : β} (h : (x >>= f) = .ok b) :
    ∃ a, x = .ok a ∧ f a = .ok b := by
  cases x with
  | error e => cases h
  | ok a => exact ⟨a, rfl, h⟩

def failure? : Except ε α → Option ε
  | .error e => some e
  | .ok _ => none

theorem bind_of_eq_ok {f : α → Except ε β} {a : α} (hx : x = .ok a) : (x >>= f) = f a := by
  rw [hx]
  rfl

theorem eq_error_of_failure? {e : ε} (h : failure? x = some e) : x = .error e := by
  cases x with
  | error e' => exact congrArg Except.error (Option.some.inj h)
  | ok a => cases h

theorem eq_error_of_map {f : α → β} {e : ε} (h : x.map f = .error e) : x = .error e := by
  cases x with
  | error e' => exact congrArg Except.error (Except.error.inj h)
  | ok a => cases h

theorem map_eq_error_iff {f : α → β} {e : ε} : x.map f = .error e ↔ x = .error e := by
  refine ⟨eq_error_of_map, fun h => ?_⟩
  rw [h]
  rfl

theorem eq_error_of_mapError {f : ε → ε'} {e' : ε'} (h : x.mapError f = .error e') :
    ∃ e, x = .error e ∧ f e = e' := by
  cases x with
  | error e => exact ⟨e, rfl, Except.error.inj h⟩
  | ok a => cases h

theorem eq_error_of_bind {f : α → Except ε β} {e : ε} (h : (x >>= f) = .error e) :
    x = .error e ∨ ∃ a, x = .ok a ∧ f a = .error e := by
  cases x with
  | error e' => exact Or.inl (congrArg Except.error (Except.error.inj h))
  | ok a => exact Or.inr ⟨a, rfl, h⟩

theorem bind_eq_error_iff {f : α → Except ε β} {e : ε} :
    (x >>= f) = .error e ↔ x = .error e ∨ ∃ a, x = .ok a ∧ f a = .error e := by
  refine ⟨eq_error_of_bind, ?_⟩
  rintro (rfl | ⟨a, rfl, h⟩)
  · rfl
  · exact h

theorem mapM_congr {f g : α → Except ε β} : ∀ {xs : List α}, (∀ a ∈ xs, f a = g a) →
    xs.mapM f = xs.mapM g
  | [], _ => rfl
  | a :: xs, h => by
    obtain ⟨ha, hrest⟩ := List.forall_mem_cons.mp h
    rw [List.mapM_cons, List.mapM_cons, ha, mapM_congr hrest]

theorem eq_error_of_mapM {f : α → Except ε β} {e : ε} :
    ∀ {xs : List α}, xs.mapM f = .error e → ∃ a ∈ xs, f a = .error e
  | [], h => by cases h
  | a :: xs, h => by
    rw [List.mapM_cons] at h
    rcases eq_error_of_bind h with ha | ⟨b, -, h⟩
    · exact ⟨a, List.mem_cons_self, ha⟩
    rcases eq_error_of_bind h with hxs | ⟨bs, -, h⟩
    · obtain ⟨a', hmem, ha'⟩ := eq_error_of_mapM hxs
      exact ⟨a', List.mem_cons_of_mem a hmem, ha'⟩
    · cases h

theorem mapM_eq_error_iff {f : α → Except ε β} {e : ε} : ∀ {xs : List α},
    xs.mapM f = .error e ↔ ∃ before a after, xs = before ++ a :: after ∧
      (∀ b ∈ before, ∃ y, f b = .ok y) ∧ f a = .error e
  | [] => by
    refine ⟨fun h => (by cases h), ?_⟩
    rintro ⟨before, a, after, hxs, -⟩
    cases before <;> cases hxs
  | x :: xs => by
    rw [List.mapM_cons, bind_eq_error_iff]
    constructor
    · rintro (hx | ⟨y, hx, h⟩)
      · exact ⟨[], x, xs, rfl, nofun, hx⟩
      rcases eq_error_of_bind h with hxs | ⟨_, -, h⟩
      · obtain ⟨before, a, after, rfl, hbefore, ha⟩ := mapM_eq_error_iff.mp hxs
        refine ⟨x :: before, a, after, rfl, ?_, ha⟩
        rw [List.forall_mem_cons]
        exact ⟨⟨y, hx⟩, hbefore⟩
      · cases h
    · rintro ⟨before, a, after, hxs, hbefore, ha⟩
      cases before with
      | nil =>
        obtain ⟨rfl, rfl⟩ := List.cons.inj hxs
        exact Or.inl ha
      | cons b before =>
        obtain ⟨rfl, rfl⟩ := List.cons.inj hxs
        rw [List.forall_mem_cons] at hbefore
        obtain ⟨⟨y, hx⟩, hbefore⟩ := hbefore
        refine Or.inr ⟨y, hx, bind_eq_error_iff.mpr (Or.inl ?_)⟩
        exact mapM_eq_error_iff.mpr ⟨before, a, after, rfl, hbefore, ha⟩

theorem mapM_eq_error_iff_exists {f : α → Except ε β} {alike : ε} {xs : List α}
    (hf : ∀ a ∈ xs, ∀ e, f a = .error e → e = alike) {e : ε} :
    xs.mapM f = .error e ↔ e = alike ∧ ∃ a ∈ xs, f a = .error alike := by
  induction xs with
  | nil => exact iff_of_false nofun (by simp)
  | cons x xs ih =>
    obtain ⟨hfx, hfxs⟩ := List.forall_mem_cons.mp hf
    rw [List.mapM_cons]
    cases hx : f x with
    | error e' =>
      obtain rfl := hfx e' hx
      refine ⟨fun h => ?_, fun ⟨he, _⟩ => congrArg Except.error he.symm⟩
      cases h
      exact ⟨rfl, x, List.mem_cons_self, hx⟩
    | ok y =>
      have hrest : (Except.ok y >>= fun y => xs.mapM f >>= fun ys => .ok (y :: ys)) = .error e
          ↔ xs.mapM f = .error e := by
        cases xs.mapM f <;> simp [bind, Except.bind]
      have hmem : (∃ a ∈ x :: xs, f a = .error alike) ↔ ∃ a ∈ xs, f a = .error alike := by
        simp [hx]
      rw [hmem]
      exact hrest.trans (ih hfxs)

theorem getElem?_of_mapM {f : α → Except ε β} :
    ∀ {xs : List α} {ys : List β}, xs.mapM f = .ok ys →
      ∀ {i : Nat} {b : β}, ys[i]? = some b → ∃ a, xs[i]? = some a ∧ f a = .ok b
  | [], ys, h, i, b, hb => by
    cases h
    cases hb
  | a :: xs, ys, h, i, b, hb => by
    rw [List.mapM_cons] at h
    obtain ⟨b', hb', h⟩ := eq_ok_of_bind h
    obtain ⟨bs, hbs, h⟩ := eq_ok_of_bind h
    cases h
    cases i with
    | zero => exact ⟨a, rfl, hb'.trans (congrArg Except.ok (Option.some.inj hb))⟩
    | succ i => exact getElem?_of_mapM hbs hb

theorem mapM_eq_ok_iff {f : α → Except ε β} : ∀ {xs : List α} {ys : List β},
    xs.mapM f = .ok ys ↔ List.Forall₂ (fun x y => f x = .ok y) xs ys
  | [], ys => by
    rw [List.forall₂_nil_left_iff]
    exact ⟨fun h => (Except.ok.inj h).symm, fun h => congrArg Except.ok h.symm⟩
  | x :: xs, ys => by
    rw [List.mapM_cons]
    constructor
    · intro h
      obtain ⟨y, hy, h⟩ := eq_ok_of_bind h
      obtain ⟨rest, hrest, h⟩ := eq_ok_of_bind h
      cases h
      exact .cons hy (mapM_eq_ok_iff.mp hrest)
    · rintro (_ | ⟨hy, hrest⟩)
      rw [hy, mapM_eq_ok_iff.mpr hrest]
      rfl

theorem mapM_perm {f : α → Except ε β} {xs xs' : List α} {ys : List β} (hperm : xs.Perm xs')
    (h : xs.mapM f = .ok ys) : ∃ ys', xs'.mapM f = .ok ys' ∧ ys.Perm ys' := by
  obtain ⟨ys', hread, hys⟩ := List.perm_comp_forall₂ hperm.symm (mapM_eq_ok_iff.mp h)
  exact ⟨ys', mapM_eq_ok_iff.mpr hread, hys.symm⟩

end LogQuery
