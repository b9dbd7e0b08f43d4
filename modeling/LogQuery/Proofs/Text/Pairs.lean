import LogQuery.Text.Basic
import Mathlib.Data.List.Induction
/-!
# Pairs with distinct keys

Of the pairs with one key `Text.ofPairs` keeps the place of the first and the value of the last
(`keys_ofPairs`, `lookup?_ofPairs`). So its keys are distinct, all its entries are among the pairs, and where
the keys are distinct already it changes nothing.
-/
namespace LogQuery.Text

variable {α : Type}

theorem mem_of_lookup? {key : Text} {value : α} : ∀ {entries : List (Text × α)},
    lookup? key entries = some value → (key, value) ∈ entries
  | (k, v) :: rest, h => by
    unfold lookup? at h
    split at h
    next hk =>
      obtain rfl := Option.some.inj h
      exact hk ▸ List.mem_cons_self
    next => exact List.mem_cons_of_mem _ (mem_of_lookup? h)

theorem mem_of_mem_insert {key : Text} {value : α} {e : Text × α} :
    ∀ {entries : List (Text × α)}, e ∈ insert key value entries → e = (key, value) ∨ e ∈ entries
  | [], h => Or.inl (List.mem_singleton.mp h)
  | (k, v) :: rest, h => by
    unfold insert at h
    split at h
    next hk =>
      rcases List.mem_cons.mp h with rfl | h
      · exact Or.inl (by rw [hk])
      · exact Or.inr (List.mem_cons_of_mem _ h)
    next =>
      rcases List.mem_cons.mp h with rfl | h
      · exact Or.inr List.mem_cons_self
      · exact (mem_of_mem_insert h).imp_right (List.mem_cons_of_mem _)

theorem keys_insert (key : Text) (value : α) : ∀ entries : List (Text × α),
    (insert key value entries).map Prod.fst
      = if key ∈ entries.map Prod.fst then entries.map Prod.fst else entries.map Prod.fst ++ [key]
  | [] => rfl
  | (k, v) :: rest => by
    unfold insert
    by_cases hk : k = key
    · simp [hk]
    · have hne : key ≠ k := fun h => hk h.symm
      rw [if_neg hk, List.map_cons, keys_insert key value rest]
      simp only [List.map_cons, List.mem_cons, hne, false_or]
      split <;> rfl

theorem nodup_insert {key : Text} {value : α} {entries : List (Text × α)}
    (h : (entries.map Prod.fst).Nodup) : ((insert key value entries).map Prod.fst).Nodup := by
  rw [keys_insert]
  split
  · exact h
  next hkey =>
    rw [List.nodup_append]
    refine ⟨h, List.nodup_cons.mpr ⟨List.not_mem_nil, List.nodup_nil⟩, ?_⟩
    rintro k hk _ hmem rfl
    exact hkey (List.mem_singleton.mp hmem ▸ hk)

theorem insert_of_not_mem {key : Text} {value : α} : ∀ {entries : List (Text × α)},
    key ∉ entries.map Prod.fst → insert key value entries = entries ++ [(key, value)]
  | [], _ => rfl
  | (k, v) :: rest, h => by
    rw [List.map_cons, List.mem_cons, not_or] at h
    rw [insert, if_neg (Ne.symm h.1), insert_of_not_mem h.2]
    rfl

section
variable {pairs : List (Text × α)}

theorem mem_foldl_insert {e : Text × α} : ∀ {entries : List (Text × α)},
    e ∈ pairs.foldl (fun entries (k, v) => insert k v entries) entries → e ∈ entries ∨ e ∈ pairs := by
  induction pairs with
  | nil => exact Or.inl
  | cons p pairs ih =>
    intro entries h
    rcases ih h with h | h
    · rcases mem_of_mem_insert h with rfl | h
      · exact Or.inr List.mem_cons_self
      · exact Or.inl h
    · exact Or.inr (List.mem_cons_of_mem p h)

theorem nodup_foldl_insert : ∀ {entries : List (Text × α)}, (entries.map Prod.fst).Nodup →
    ((pairs.foldl (fun entries (k, v) => insert k v entries) entries).map Prod.fst).Nodup := by
  induction pairs with
  | nil => exact id
  | cons p pairs ih => exact fun h => ih (nodup_insert h)

theorem foldl_insert_of_nodup : ∀ {entries : List (Text × α)},
    ((entries ++ pairs).map Prod.fst).Nodup →
    pairs.foldl (fun entries (k, v) => insert k v entries) entries = entries ++ pairs := by
  induction pairs with
  | nil => exact fun _ => (List.append_nil _).symm
  | cons p pairs ih =>
    obtain ⟨k, v⟩ := p
    intro entries h
    have hkey : k ∉ entries.map Prod.fst := by
      rw [List.map_append, List.map_cons, List.nodup_append] at h
      exact fun hk => h.2.2 k hk k List.mem_cons_self rfl
    simp only [List.foldl_cons, insert_of_not_mem hkey]
    rw [ih (by simpa using h), List.append_assoc]
    rfl

theorem mem_of_mem_ofPairs {e : Text × α} (h : e ∈ ofPairs pairs) : e ∈ pairs :=
  (mem_foldl_insert h).resolve_left List.not_mem_nil

theorem nodup_ofPairs (pairs : List (Text × α)) : ((ofPairs pairs).map Prod.fst).Nodup :=
  nodup_foldl_insert List.nodup_nil

theorem ofPairs_of_nodup (h : (pairs.map Prod.fst).Nodup) : ofPairs pairs = pairs :=
  foldl_insert_of_nodup h

end

/-! ## First places and last values -/

theorem lookup?_insert (key : Text) (value : α) (name : Text) : ∀ entries : List (Text × α),
    lookup? name (insert key value entries) = if key = name then some value else lookup? name entries
  | [] => rfl
  | (k, v) :: rest => by
    unfold insert
    by_cases hk : k = key
    · rw [if_pos hk, lookup?, lookup?, hk]
      split <;> rfl
    · rw [if_neg hk, lookup?, lookup?, lookup?_insert key value name rest]
      split
      next hname => rw [if_neg fun h => hk (hname.trans h.symm)]
      next => rfl

theorem ofPairs_concat (pairs : List (Text × α)) (key : Text) (value : α) :
    ofPairs (pairs ++ [(key, value)]) = insert key value (ofPairs pairs) := by
  rw [ofPairs, List.foldl_append]
  rfl

theorem keys_ofPairs (pairs : List (Text × α)) :
    (ofPairs pairs).map Prod.fst = (pairs.map Prod.fst).eraseDups := by
  induction pairs using List.reverseRecOn with
  | nil => rfl
  | append_singleton pairs pair ih =>
    obtain ⟨key, value⟩ := pair
    rw [ofPairs_concat, keys_insert, ih, List.map_append, List.eraseDups_append]
    by_cases hkey : key ∈ pairs.map Prod.fst
    · have hnone : List.removeAll [key] (pairs.map Prod.fst) = [] := by simp [List.removeAll, hkey]
      rw [if_pos (List.mem_eraseDups.mpr hkey), List.map_singleton, hnone, List.eraseDups_nil,
        List.append_nil]
    · have hone : List.removeAll [key] (pairs.map Prod.fst) = [key] := by simp [List.removeAll, hkey]
      rw [if_neg fun h => hkey (List.mem_eraseDups.mp h), List.map_singleton, hone]
      rfl

theorem lookup?_ofPairs (name : Text) (pairs : List (Text × α)) :
    lookup? name (ofPairs pairs) = lookup? name pairs.reverse := by
  induction pairs using List.reverseRecOn with
  | nil => rfl
  | append_singleton pairs pair ih =>
    obtain ⟨key, value⟩ := pair
    rw [ofPairs_concat, lookup?_insert, ih, List.reverse_append]
    rfl

end LogQuery.Text
