import LogQuery.Value.Basic
import Mathlib.Data.List.Induction
/-!
# Keys of maps

Two scalars are the same key if they are equal as values, which makes the comparison of keys an equivalence
(`Scalar.sameKey_iff`). So it does not matter in which of its spellings a key is looked up. Of the pairs with
the same key `Value.ofPairs` keeps the place and the spelling of the first (`keys_ofPairs`) and the value of
the last (`lookup?_ofPairs`).
-/
namespace LogQuery

/-! ## The same key -/

namespace Scalar

/-- What a scalar is compared by as a key: numbers by their value, timestamps by their instant, and
everything else by itself. -/
def identity (s : Scalar) : Int ⊕ (Bool × Int) ⊕ Scalar :=
  match s.integer?, s with
  | some n, _ => .inl n
  | none, timestamp t => .inr (.inl (t.offset.isSome, t.micros))
  | none, s => .inr (.inr s)

theorem sameKey_iff (a b : Scalar) : a.sameKey b = true ↔ a.identity = b.identity := by
  unfold sameKey identity
  cases ha : a.integer? <;> cases hb : b.integer? <;> cases a <;> cases b <;> simp_all [integer?]
  -- What is left are two numbers of which just one is an integer.
  all_goals
    rintro rfl
    rw [ha] at hb
    cases hb

theorem sameKey_refl (a : Scalar) : a.sameKey a = true := (sameKey_iff a a).mpr rfl

theorem sameKey_comm (a b : Scalar) : a.sameKey b = b.sameKey a := by
  rw [Bool.eq_iff_iff, sameKey_iff, sameKey_iff, eq_comm]

theorem sameKey_congr {a b : Scalar} (h : a.sameKey b = true) (c : Scalar) :
    a.sameKey c = b.sameKey c := by
  rw [Bool.eq_iff_iff, sameKey_iff, sameKey_iff, (sameKey_iff a b).mp h]

end Scalar

namespace Value

variable {α : Type} {key name : Scalar} {value : α} {entries pairs : List (Scalar × α)}

/-! ## Looking up -/

theorem lookup?_congr (h : key.sameKey name = true) (entries : List (Scalar × α)) :
    lookup? key entries = lookup? name entries := by
  induction entries with
  | nil => rfl
  | cons e entries ih =>
    rw [lookup?, lookup?, Scalar.sameKey_comm e.1, Scalar.sameKey_congr h, Scalar.sameKey_comm name, ih]

theorem lookup?_insert (key : Scalar) (value : α) (name : Scalar) : ∀ entries : List (Scalar × α),
    lookup? name (insert key value entries)
      = if key.sameKey name then some value else lookup? name entries
  | [] => rfl
  | (k, v) :: entries => by
    unfold insert
    by_cases hk : k.sameKey key = true
    · rw [if_pos hk, lookup?, lookup?, Scalar.sameKey_congr hk]
      split <;> rfl
    · rw [if_neg hk, lookup?, lookup?, lookup?_insert key value name entries]
      split
      next hname =>
        rw [if_neg fun h => hk ?_]
        rw [Scalar.sameKey_congr hname, Scalar.sameKey_comm]
        exact h
      next => rfl

theorem lookup?_ofPairs (name : Scalar) (pairs : List (Scalar × α)) :
    lookup? name (ofPairs pairs) = lookup? name pairs.reverse := by
  induction pairs using List.reverseRecOn with
  | nil => rfl
  | append_singleton pairs pair ih =>
    have hconcat : ofPairs (pairs ++ [pair]) = insert pair.1 pair.2 (ofPairs pairs) := by
      rw [ofPairs, List.foldl_append]
      rfl
    rw [hconcat, lookup?_insert, ih, List.reverse_append]
    rfl

/-- A key among others finds what goes with it, if that does not depend on its spelling. -/
theorem lookup?_map_of_mem {g : Scalar → α} (hg : ∀ a b : Scalar, a.sameKey b = true → g a = g b)
    {keys : List Scalar} (h : name ∈ keys) :
    lookup? name (keys.map fun k => (k, g k)) = some (g name) := by
  induction keys with
  | nil => cases h
  | cons k keys ih =>
    rw [List.map_cons, lookup?]
    split
    next hk => rw [hg k name hk]
    next hk =>
      refine ih (List.mem_of_ne_of_mem ?_ h)
      rintro rfl
      exact hk (Scalar.sameKey_refl _)

/-! ## The keys of a map -/

theorem keys_insert (key : Scalar) (value : α) : ∀ entries : List (Scalar × α),
    (insert key value entries).map Prod.fst
      = if (entries.map Prod.fst).any key.sameKey then entries.map Prod.fst
        else entries.map Prod.fst ++ [key]
  | [] => rfl
  | (k, v) :: entries => by
    unfold insert
    rw [List.map_cons, List.any_cons, Scalar.sameKey_comm key]
    by_cases hk : k.sameKey key = true
    · rw [if_pos hk, hk, Bool.true_or, if_pos rfl]
      rfl
    · have hother : k.sameKey key = false := Bool.not_eq_true _ ▸ hk
      rw [if_neg hk, List.map_cons, keys_insert key value entries, hother, Bool.false_or]
      split <;> rfl

theorem keys_foldl_insert : ∀ {entries : List (Scalar × α)},
    (pairs.foldl (fun entries (k, v) => insert k v entries) entries).map Prod.fst
      = entries.map Prod.fst ++ ((pairs.map Prod.fst).filter fun k =>
          !(entries.map Prod.fst).any k.sameKey).eraseDupsBy Scalar.sameKey := by
  induction pairs with
  | nil => intro entries; simp
  | cons pair pairs ih =>
    intro entries
    rw [List.foldl_cons, ih, keys_insert, List.map_cons]
    by_cases hany : (entries.map Prod.fst).any pair.1.sameKey = true
    · rw [if_pos hany, List.filter_cons_of_neg (by simp [hany])]
    · have hfilter : ∀ keys : List Scalar,
          (keys.filter fun k => !(entries.map Prod.fst ++ [pair.1]).any k.sameKey)
            = (keys.filter fun k => !(entries.map Prod.fst).any k.sameKey).filter
              fun k => k.sameKey pair.1 = false := by
        intro keys
        rw [List.filter_filter]
        refine List.filter_congr fun k _ => ?_
        simp [Bool.and_comm]
      rw [if_neg hany, List.filter_cons_of_pos (by simpa using hany), List.eraseDupsBy_cons,
        hfilter, List.append_assoc, List.singleton_append]

theorem keys_ofPairs (pairs : List (Scalar × α)) :
    (ofPairs pairs).map Prod.fst = (pairs.map Prod.fst).eraseDupsBy Scalar.sameKey := by
  rw [ofPairs, keys_foldl_insert, List.filter_eq_self.mpr (by simp)]
  rfl

end Value
end LogQuery
