import LogQuery.Output.Decode
import LogQuery.Proofs.Steps
/-!
# The strings in a value

Strings are decoded where they are reached through maps and lists, as long as there are frames left. What
becomes of a value depends on what becomes of these strings and on nothing else (`mapStrings_congr`), its
strings afterwards are those of what took their places (`mem_strings_of_mapStrings`), and everything around
them stays as it was (`keeps_of_mapStrings`). A walk stops for want of frames or because of a string
(`mapStrings_eq_error`), and with as many frames it ends in the same way again (`mapStrings_again`).
-/
namespace LogQuery.Value

mutual

/-- The strings in a value that are reached through maps and lists. -/
def strings : Value → List Text
  | scalar (.string t) => [t]
  | list items => itemStrings items
  | map entries => entryStrings entries
  | _ => []

def itemStrings : List Value → List Text
  | [] => []
  | v :: rest => v.strings ++ itemStrings rest

def entryStrings : List (Scalar × Value) → List Text
  | [] => []
  | (_, v) :: rest => v.strings ++ entryStrings rest

end

mutual

/-- Whether one value is another but for strings, in whose places there is anything. Keys, their order,
the lengths of lists and all other scalars are the same. -/
def keeps : Value → Value → Prop
  | scalar (.string _), _ => True
  | list items, list items' => itemsKeep items items'
  | map entries, map entries' => entriesKeep entries entries'
  | v, w => v = w

def itemsKeep : List Value → List Value → Prop
  | [], [] => True
  | v :: rest, v' :: rest' => v.keeps v' ∧ itemsKeep rest rest'
  | _, _ => False

/-- Whether this is so of the values of some entries, one by one, with the same keys. -/
def entriesKeep : List (Scalar × Value) → List (Scalar × Value) → Prop
  | [], [] => True
  | (k, v) :: rest, (k', v') :: rest' => k = k' ∧ v.keeps v' ∧ entriesKeep rest rest'
  | _, _ => False

end

theorem mem_itemStrings {t : Text} : ∀ {items : List Value},
    t ∈ itemStrings items ↔ ∃ v ∈ items, t ∈ v.strings
  | [] => by simp [itemStrings]
  | v :: items => by
    rw [itemStrings, List.mem_append, mem_itemStrings]
    simp

theorem mem_entryStrings {t : Text} : ∀ {entries : List (Scalar × Value)},
    t ∈ entryStrings entries ↔ ∃ e ∈ entries, t ∈ e.2.strings
  | [] => by simp [entryStrings]
  | (k, v) :: entries => by
    rw [entryStrings, List.mem_append, mem_entryStrings]
    simp

section
variable [Runtime] {f g : Nat → Text → Except Fault Value}

/-! ## One part after the other -/

theorem mapStrings_zero (v : Value) : v.mapStrings f 0 = .error .tooDeep := by rw [mapStrings]

theorem mapStringsItems_eq_mapM (n : Nat) : ∀ items : List Value,
    mapStringsItems f n items = items.mapM (mapStrings f n)
  | [] => rfl
  | v :: items => by
    rw [mapStringsItems, mapStringsItems_eq_mapM, List.mapM_cons]
    rfl

theorem mapStringsEntries_eq_mapM (n : Nat) : ∀ entries : List (Scalar × Value),
    mapStringsEntries f n entries = entries.mapM fun e => (e.2.mapStrings f n).map (Prod.mk e.1)
  | [] => rfl
  | (k, v) :: entries => by
    rw [mapStringsEntries, mapStringsEntries_eq_mapM, List.mapM_cons]
    cases v.mapStrings f n <;> rfl

/-! ## Only the strings matter -/

mutual

theorem mapStrings_congr : ∀ {n : Nat} {v : Value}, (∀ m ≤ n, ∀ t ∈ v.strings, f m t = g m t) →
    v.mapStrings f n = v.mapStrings g n
  | 0, v, _ => by rw [mapStrings_zero, mapStrings_zero]
  | n + 1, .scalar s, h => by
    cases s with
    | string t => exact h (n + 1) (Nat.le_refl _) t List.mem_cons_self
    | _ => rfl
  | n + 1, .list _, h => congrArg (Except.map list) (mapStringsItems_congr
    fun m hm => h m (Nat.le_trans hm (Nat.sub_le _ _)))
  | n + 1, .map _, h => congrArg (Except.map map) (mapStringsEntries_congr
    fun m hm => h m (Nat.le_trans hm (Nat.sub_le _ _)))
  | _ + 1, .tuple _, _ | _ + 1, .set _, _ => rfl

theorem mapStringsItems_congr : ∀ {n : Nat} {items : List Value},
    (∀ m ≤ n, ∀ t ∈ itemStrings items, f m t = g m t) →
    mapStringsItems f n items = mapStringsItems g n items
  | _, [], _ => rfl
  | n, v :: items, h => by
    have hv := mapStrings_congr (n := n) fun m hm t ht => h m hm t (List.mem_append_left _ ht)
    have hrest := mapStringsItems_congr (n := n) fun m hm t ht => h m hm t (List.mem_append_right _ ht)
    rw [mapStringsItems, mapStringsItems, hv, hrest]

theorem mapStringsEntries_congr : ∀ {n : Nat} {entries : List (Scalar × Value)},
    (∀ m ≤ n, ∀ t ∈ entryStrings entries, f m t = g m t) →
    mapStringsEntries f n entries = mapStringsEntries g n entries
  | _, [], _ => rfl
  | n, (k, v) :: entries, h => by
    have hv := mapStrings_congr (n := n) fun m hm t ht => h m hm t (List.mem_append_left _ ht)
    have hrest := mapStringsEntries_congr (n := n) fun m hm t ht => h m hm t (List.mem_append_right _ ht)
    rw [mapStringsEntries, mapStringsEntries, hv, hrest]

end

mutual

theorem eq_of_mapStrings : ∀ {n : Nat} {v r : Value},
    (∀ m ≤ n, ∀ t ∈ v.strings, ∀ u, f m t = .ok u → u = .string t) → v.mapStrings f n = .ok r → r = v
  | 0, v, _, _, h => by
    rw [mapStrings_zero] at h
    cases h
  | n + 1, .scalar s, r, hs, h => by
    cases s with
    | string t => exact hs (n + 1) (Nat.le_refl _) t List.mem_cons_self r h
    | _ => exact (Except.ok.inj h).symm
  | n + 1, .list items, r, hs, h => by
    obtain ⟨items', hitems, rfl⟩ := eq_ok_of_map h
    rw [eq_of_mapStringsItems (fun m hm => hs m (Nat.le_trans hm (Nat.sub_le _ _))) hitems]
  | n + 1, .map entries, r, hs, h => by
    obtain ⟨entries', hentries, rfl⟩ := eq_ok_of_map h
    rw [eq_of_mapStringsEntries (fun m hm => hs m (Nat.le_trans hm (Nat.sub_le _ _))) hentries]
  | _ + 1, .tuple _, _, _, h | _ + 1, .set _, _, _, h => (Except.ok.inj h).symm

theorem eq_of_mapStringsItems : ∀ {n : Nat} {items items' : List Value},
    (∀ m ≤ n, ∀ t ∈ itemStrings items, ∀ u, f m t = .ok u → u = .string t) →
    mapStringsItems f n items = .ok items' → items' = items
  | _, [], _, _, h => (Except.ok.inj h).symm
  | n, v :: items, _, hs, h => by
    obtain ⟨v', hv, h⟩ := eq_ok_of_bind h
    obtain ⟨rest, hrest, h⟩ := eq_ok_of_bind h
    cases h
    rw [eq_of_mapStrings (fun m hm t ht => hs m hm t (List.mem_append_left _ ht)) hv,
      eq_of_mapStringsItems (fun m hm t ht => hs m hm t (List.mem_append_right _ ht)) hrest]

theorem eq_of_mapStringsEntries : ∀ {n : Nat} {entries entries' : List (Scalar × Value)},
    (∀ m ≤ n, ∀ t ∈ entryStrings entries, ∀ u, f m t = .ok u → u = .string t) →
    mapStringsEntries f n entries = .ok entries' → entries' = entries
  | _, [], _, _, h => (Except.ok.inj h).symm
  | n, (k, v) :: entries, _, hs, h => by
    obtain ⟨v', hv, h⟩ := eq_ok_of_bind h
    obtain ⟨rest, hrest, h⟩ := eq_ok_of_bind h
    cases h
    rw [eq_of_mapStrings (fun m hm t ht => hs m hm t (List.mem_append_left _ ht)) hv,
      eq_of_mapStringsEntries (fun m hm t ht => hs m hm t (List.mem_append_right _ ht)) hrest]

end

/-! ## Where strings and faults come from -/

mutual

theorem mem_strings_of_mapStrings {t : Text} : ∀ {n : Nat} {v w : Value}, v.mapStrings f n = .ok w →
    t ∈ w.strings → ∃ s ∈ v.strings, ∃ m ≤ n, ∃ u, f m s = .ok u ∧ t ∈ u.strings
  | 0, v, _, h, _ => by
    rw [mapStrings_zero] at h
    cases h
  | n + 1, .scalar s, w, h, ht => by
    cases s with
    | string s => exact ⟨s, List.mem_cons_self, n + 1, Nat.le_refl _, w, h, ht⟩
    | _ =>
      cases h
      cases ht
  | n + 1, .list items, w, h, ht => by
    obtain ⟨items', hitems, rfl⟩ := eq_ok_of_map h
    obtain ⟨s, hs, m, hm, hu⟩ := mem_itemStrings_of_mapStrings hitems ht
    exact ⟨s, hs, m, Nat.le_trans hm (Nat.sub_le _ _), hu⟩
  | n + 1, .map entries, w, h, ht => by
    obtain ⟨entries', hentries, rfl⟩ := eq_ok_of_map h
    obtain ⟨s, hs, m, hm, hu⟩ := mem_entryStrings_of_mapStrings hentries ht
    exact ⟨s, hs, m, Nat.le_trans hm (Nat.sub_le _ _), hu⟩
  | _ + 1, .tuple _, _, h, ht | _ + 1, .set _, _, h, ht => by
    cases h
    cases ht

theorem mem_itemStrings_of_mapStrings {t : Text} : ∀ {n : Nat} {items items' : List Value},
    mapStringsItems f n items = .ok items' → t ∈ itemStrings items' →
    ∃ s ∈ itemStrings items, ∃ m ≤ n, ∃ u, f m s = .ok u ∧ t ∈ u.strings
  | _, [], _, h, ht => by
    cases h
    cases ht
  | n, v :: items, _, h, ht => by
    obtain ⟨v', hv, h⟩ := eq_ok_of_bind h
    obtain ⟨rest, hrest, h⟩ := eq_ok_of_bind h
    cases h
    rcases List.mem_append.mp ht with ht | ht
    · obtain ⟨s, hs, hu⟩ := mem_strings_of_mapStrings hv ht
      exact ⟨s, List.mem_append_left _ hs, hu⟩
    · obtain ⟨s, hs, hu⟩ := mem_itemStrings_of_mapStrings hrest ht
      exact ⟨s, List.mem_append_right _ hs, hu⟩

theorem mem_entryStrings_of_mapStrings {t : Text} : ∀ {n : Nat} {entries entries' : List (Scalar × Value)},
    mapStringsEntries f n entries = .ok entries' → t ∈ entryStrings entries' →
    ∃ s ∈ entryStrings entries, ∃ m ≤ n, ∃ u, f m s = .ok u ∧ t ∈ u.strings
  | _, [], _, h, ht => by
    cases h
    cases ht
  | n, (k, v) :: entries, _, h, ht => by
    obtain ⟨v', hv, h⟩ := eq_ok_of_bind h
    obtain ⟨rest, hrest, h⟩ := eq_ok_of_bind h
    cases h
    rcases List.mem_append.mp ht with ht | ht
    · obtain ⟨s, hs, hu⟩ := mem_strings_of_mapStrings hv ht
      exact ⟨s, List.mem_append_left _ hs, hu⟩
    · obtain ⟨s, hs, hu⟩ := mem_entryStrings_of_mapStrings hrest ht
      exact ⟨s, List.mem_append_right _ hs, hu⟩

end

mutual

/-- Where a value cannot be walked to its end, one of its strings cannot be replaced or the frames do not
suffice. -/
theorem mapStrings_eq_error {e : Fault} : ∀ {n : Nat} {v : Value}, v.mapStrings f n = .error e →
    e = .tooDeep ∨ ∃ m ≤ n, ∃ t, f m t = .error e
  | 0, v, h => by
    rw [mapStrings_zero] at h
    exact Or.inl (Except.error.inj h).symm
  | n + 1, .scalar (.string t), h => Or.inr ⟨n + 1, Nat.le_refl _, t, h⟩
  | n + 1, .list _, h =>
    (mapStringsItems_eq_error (eq_error_of_map h)).imp_right fun ⟨m, hm, ht⟩ =>
      ⟨m, Nat.le_trans hm (Nat.sub_le _ _), ht⟩
  | n + 1, .map _, h =>
    (mapStringsEntries_eq_error (eq_error_of_map h)).imp_right fun ⟨m, hm, ht⟩ =>
      ⟨m, Nat.le_trans hm (Nat.sub_le _ _), ht⟩

theorem mapStringsItems_eq_error {e : Fault} : ∀ {n : Nat} {items : List Value},
    mapStringsItems f n items = .error e → e = .tooDeep ∨ ∃ m ≤ n, ∃ t, f m t = .error e
  | _, _ :: _, h => by
    rcases eq_error_of_bind h with hv | ⟨_, -, h⟩
    · exact mapStrings_eq_error hv
    rcases eq_error_of_bind h with hrest | ⟨_, -, h⟩
    · exact mapStringsItems_eq_error hrest
    · cases h

theorem mapStringsEntries_eq_error {e : Fault} : ∀ {n : Nat} {entries : List (Scalar × Value)},
    mapStringsEntries f n entries = .error e → e = .tooDeep ∨ ∃ m ≤ n, ∃ t, f m t = .error e
  | _, _ :: _, h => by
    rcases eq_error_of_bind h with hv | ⟨_, -, h⟩
    · exact mapStrings_eq_error hv
    rcases eq_error_of_bind h with hrest | ⟨_, -, h⟩
    · exact mapStringsEntries_eq_error hrest
    · cases h

end

/-! ## What stays -/

mutual

theorem keeps_of_mapStrings : ∀ {n : Nat} {v w : Value}, v.mapStrings f n = .ok w → v.keeps w
  | 0, v, _, h => by
    rw [mapStrings_zero] at h
    cases h
  | n + 1, .scalar s, _, h => by
    cases s with
    | string t => trivial
    | _ => exact Except.ok.inj h
  | n + 1, .list items, w, h => by
    obtain ⟨items', hitems, rfl⟩ := eq_ok_of_map h
    exact itemsKeep_of_mapStrings hitems
  | n + 1, .map entries, w, h => by
    obtain ⟨entries', hentries, rfl⟩ := eq_ok_of_map h
    exact entriesKeep_of_mapStrings hentries
  | _ + 1, .tuple _, _, h | _ + 1, .set _, _, h => Except.ok.inj h

theorem itemsKeep_of_mapStrings : ∀ {n : Nat} {items items' : List Value},
    mapStringsItems f n items = .ok items' → itemsKeep items items'
  | _, [], _, h => by
    cases h
    trivial
  | n, v :: items, _, h => by
    obtain ⟨v', hv, h⟩ := eq_ok_of_bind h
    obtain ⟨rest, hrest, h⟩ := eq_ok_of_bind h
    cases h
    exact ⟨keeps_of_mapStrings hv, itemsKeep_of_mapStrings hrest⟩

theorem entriesKeep_of_mapStrings : ∀ {n : Nat} {entries entries' : List (Scalar × Value)},
    mapStringsEntries f n entries = .ok entries' → entriesKeep entries entries'
  | _, [], _, h => by
    cases h
    trivial
  | n, (k, v) :: entries, _, h => by
    obtain ⟨v', hv, h⟩ := eq_ok_of_bind h
    obtain ⟨rest, hrest, h⟩ := eq_ok_of_bind h
    cases h
    exact ⟨rfl, keeps_of_mapStrings hv, entriesKeep_of_mapStrings hrest⟩

end

/-! ## Walking again -/

mutual

/-- A result is walked to itself with as many frames or more, if whatever took the place of a string is. -/
theorem mapStrings_again {P : Text → Prop} : ∀ {n n' : Nat} {v r : Value}, n ≤ n' →
    (∀ t ∈ v.strings, ∀ m ≤ n, ∀ m', m ≤ m' → m' ≤ n' → ∀ u, f m t = .ok u →
      (∀ s ∈ u.strings, P s) → u.mapStrings g m' = .ok u) →
    v.mapStrings f n = .ok r → (∀ s ∈ r.strings, P s) → r.mapStrings g n' = .ok r
  | 0, _, v, _, _, _, h, _ => by
    rw [mapStrings_zero] at h
    cases h
  | n + 1, n', .scalar s, r, hn, hu, h, hr => by
    obtain ⟨n', rfl⟩ : ∃ k, n' = k + 1 := ⟨n' - 1, by omega⟩
    cases s with
    | string t => exact hu t List.mem_cons_self (n + 1) (Nat.le_refl _) (n' + 1) hn (Nat.le_refl _) r h hr
    | _ =>
      cases h
      rfl
  | n + 1, n', .list items, r, hn, hu, h, hr => by
    obtain ⟨n', rfl⟩ : ∃ k, n' = k + 1 := ⟨n' - 1, by omega⟩
    obtain ⟨items', hitems, rfl⟩ := eq_ok_of_map h
    have hagain := mapStringsItems_again (Nat.sub_le_sub_right hn _) (fun t ht m hm m' hmm hm' =>
      hu t ht m (Nat.le_trans hm (Nat.sub_le _ _)) m' hmm (Nat.le_trans hm' (Nat.sub_le _ _))) hitems hr
    rw [mapStrings, hagain]
    rfl
  | n + 1, n', .map entries, r, hn, hu, h, hr => by
    obtain ⟨n', rfl⟩ : ∃ k, n' = k + 1 := ⟨n' - 1, by omega⟩
    obtain ⟨entries', hentries, rfl⟩ := eq_ok_of_map h
    have hagain := mapStringsEntries_again (Nat.sub_le_sub_right hn _) (fun t ht m hm m' hmm hm' =>
      hu t ht m (Nat.le_trans hm (Nat.sub_le _ _)) m' hmm (Nat.le_trans hm' (Nat.sub_le _ _))) hentries hr
    rw [mapStrings, hagain]
    rfl
  | n + 1, n', .tuple _, _, hn, _, h, _ | n + 1, n', .set _, _, hn, _, h, _ => by
    obtain ⟨n', rfl⟩ : ∃ k, n' = k + 1 := ⟨n' - 1, by omega⟩
    cases h
    rfl

theorem mapStringsItems_again {P : Text → Prop} : ∀ {n n' : Nat} {items items' : List Value}, n ≤ n' →
    (∀ t ∈ itemStrings items, ∀ m ≤ n, ∀ m', m ≤ m' → m' ≤ n' → ∀ u, f m t = .ok u →
      (∀ s ∈ u.strings, P s) → u.mapStrings g m' = .ok u) →
    mapStringsItems f n items = .ok items' → (∀ s ∈ itemStrings items', P s) →
    mapStringsItems g n' items' = .ok items'
  | _, _, [], _, _, _, h, _ => by
    cases h
    rfl
  | n, n', v :: items, _, hn, hu, h, hr => by
    obtain ⟨v', hv, h⟩ := eq_ok_of_bind h
    obtain ⟨rest, hrest, h⟩ := eq_ok_of_bind h
    cases h
    obtain ⟨hrv, hrrest⟩ := List.forall_mem_append.mp hr
    have hvagain := mapStrings_again hn (fun t ht => hu t (List.mem_append_left _ ht)) hv hrv
    have hagain := mapStringsItems_again hn (fun t ht => hu t (List.mem_append_right _ ht)) hrest hrrest
    rw [mapStringsItems, hvagain, hagain]
    rfl

theorem mapStringsEntries_again {P : Text → Prop} : ∀ {n n' : Nat}
    {entries entries' : List (Scalar × Value)}, n ≤ n' →
    (∀ t ∈ entryStrings entries, ∀ m ≤ n, ∀ m', m ≤ m' → m' ≤ n' → ∀ u, f m t = .ok u →
      (∀ s ∈ u.strings, P s) → u.mapStrings g m' = .ok u) →
    mapStringsEntries f n entries = .ok entries' → (∀ s ∈ entryStrings entries', P s) →
    mapStringsEntries g n' entries' = .ok entries'
  | _, _, [], _, _, _, h, _ => by
    cases h
    rfl
  | n, n', (k, v) :: entries, _, hn, hu, h, hr => by
    obtain ⟨v', hv, h⟩ := eq_ok_of_bind h
    obtain ⟨rest, hrest, h⟩ := eq_ok_of_bind h
    cases h
    obtain ⟨hrv, hrrest⟩ := List.forall_mem_append.mp hr
    have hvagain := mapStrings_again hn (fun t ht => hu t (List.mem_append_left _ ht)) hv hrv
    have hagain := mapStringsEntries_again hn (fun t ht => hu t (List.mem_append_right _ ht)) hrest hrrest
    rw [mapStringsEntries, hvagain, hagain]
    rfl

end

end

end LogQuery.Value
