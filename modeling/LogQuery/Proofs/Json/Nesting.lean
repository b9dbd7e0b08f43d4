import LogQuery.Proofs.Json.ReadWrite
/-!
# Writing with limited nesting

Where levels of nesting count, a value that could be written otherwise is written or refused as too deep
(`refusalWithin?_cases`). It is written if it has no more levels than there are
(`refusalWithin?_of_isReadable`),
and more levels make no other difference than that (`refusalWithin?_eq_of_le`).
-/
namespace LogQuery.Json

/-! ## Nothing but nesting -/

theorem or_cases {a b : Option Fault} (ha : a = none ∨ a = some .tooDeep)
    (hb : b = none ∨ b = some .tooDeep) : a.or b = none ∨ a.or b = some .tooDeep := by
  rcases ha with rfl | rfl
  · exact hb
  · exact Or.inr rfl

theorem nestRefusal?_cases (levels : Option Nat) :
    nestRefusal? levels = none ∨ nestRefusal? levels = some .tooDeep := by
  unfold nestRefusal?
  split
  · exact Or.inr rfl
  · exact Or.inl rfl

mutual

theorem refusalWithin?_cases : ∀ {levels : Option Nat} {v : Value}, refusal? v = none →
    refusalWithin? levels v = none ∨ refusalWithin? levels v = some .tooDeep
  | _, .scalar _, h => Or.inl h
  | _, .set _, h => Or.inl h
  | _, .list _, h => or_cases (nestRefusal?_cases _) (itemRefusalWithin?_cases h)
  | _, .tuple _, h => or_cases (nestRefusal?_cases _) (itemRefusalWithin?_cases h)
  | _, .map _, h => or_cases (nestRefusal?_cases _) (entryRefusalWithin?_cases h)

theorem itemRefusalWithin?_cases : ∀ {levels : Option Nat} {items : List Value},
    itemRefusalWithin? none items = none →
    itemRefusalWithin? levels items = none ∨ itemRefusalWithin? levels items = some .tooDeep
  | _, [], _ => Or.inl rfl
  | _, v :: items, h => by
    obtain ⟨hv, hrest⟩ := Option.or_eq_none_iff.mp h
    exact or_cases (refusalWithin?_cases hv) (itemRefusalWithin?_cases hrest)

theorem entryRefusalWithin?_cases : ∀ {levels : Option Nat} {entries : List (Scalar × Value)},
    entryRefusalWithin? none entries = none →
    entryRefusalWithin? levels entries = none ∨ entryRefusalWithin? levels entries = some .tooDeep
  | _, [], _ => Or.inl rfl
  | _, (k, v) :: entries, h => by
    obtain ⟨hk, h⟩ := Option.or_eq_none_iff.mp h
    obtain ⟨hv, hrest⟩ := Option.or_eq_none_iff.mp h
    exact or_cases (Or.inl hk) (or_cases (refusalWithin?_cases hv) (entryRefusalWithin?_cases hrest))

end

/-! ## Enough levels -/

mutual

theorem refusalWithin?_of_isReadable {constants : Bool} : ∀ {depth : Nat} {v : Value},
    v.isReadable constants depth = true → refusal? v = none → refusalWithin? (some depth) v = none
  | _, .scalar _, _, h => h
  | _, .set _, _, h => h
  | depth + 1, .list _, hr, h =>
    itemRefusalWithin?_of_areReadable (show Value.areReadable constants depth _ = true from hr) h
  | depth + 1, .tuple _, hr, h =>
    itemRefusalWithin?_of_areReadable (show Value.areReadable constants depth _ = true from hr) h
  | depth + 1, .map _, hr, h =>
    entryRefusalWithin?_of_readable (show Value.entriesReadable constants depth _ = true from hr) h

theorem itemRefusalWithin?_of_areReadable {constants : Bool} : ∀ {depth : Nat} {items : List Value},
    Value.areReadable constants depth items = true → itemRefusalWithin? none items = none →
    itemRefusalWithin? (some depth) items = none
  | _, [], _, _ => rfl
  | _, v :: items, hr, h => by
    obtain ⟨hv, hrest⟩ := Option.or_eq_none_iff.mp h
    obtain ⟨hrv, hrrest⟩ := (Bool.and_eq_true _ _).mp hr
    exact Option.or_eq_none_iff.mpr
      ⟨refusalWithin?_of_isReadable hrv hv, itemRefusalWithin?_of_areReadable hrrest hrest⟩

theorem entryRefusalWithin?_of_readable {constants : Bool} : ∀ {depth : Nat}
    {entries : List (Scalar × Value)}, Value.entriesReadable constants depth entries = true →
    entryRefusalWithin? none entries = none → entryRefusalWithin? (some depth) entries = none
  | _, [], _, _ => rfl
  | _, (k, v) :: entries, hr, h => by
    obtain ⟨hk, h⟩ := Option.or_eq_none_iff.mp h
    obtain ⟨hv, hrest⟩ := Option.or_eq_none_iff.mp h
    obtain ⟨hrv, hrrest⟩ := (Bool.and_eq_true _ _).mp hr
    exact Option.or_eq_none_iff.mpr ⟨hk, Option.or_eq_none_iff.mpr
      ⟨refusalWithin?_of_isReadable hrv hv, entryRefusalWithin?_of_readable hrrest hrest⟩⟩

end

theorem or_eq_of_not_tooDeep {a a' b b' : Option Fault} (ha : a ≠ some .tooDeep → a' = a)
    (hb : b ≠ some .tooDeep → b' = b) (h : a.or b ≠ some .tooDeep) : a'.or b' = a.or b := by
  cases a with
  | none =>
    rw [ha nofun]
    exact hb h
  | some f =>
    rw [ha h]
    rfl

theorem nestRefusal?_of_le {m n : Nat} (hle : m ≤ n) (h : nestRefusal? (some m) ≠ some .tooDeep) :
    nestRefusal? (some n) = nestRefusal? (some m) := by
  have hm : some m ≠ some 0 := fun hzero => h (if_pos hzero)
  have hn : some n ≠ some 0 := fun hzero => hm (congrArg some (by have := Option.some.inj hzero; omega))
  rw [nestRefusal?, nestRefusal?, if_neg hm, if_neg hn]

mutual

/-- What is not too deep with some levels of nesting is refused or not in the same way with more. -/
theorem refusalWithin?_eq_of_le : ∀ {m n : Nat} {v : Value}, m ≤ n →
    refusalWithin? (some m) v ≠ some .tooDeep →
    refusalWithin? (some n) v = refusalWithin? (some m) v
  | _, _, .scalar _, _, _ => rfl
  | _, _, .set _, _, _ => rfl
  | _, _, .list _, hle, h | _, _, .tuple _, hle, h =>
    or_eq_of_not_tooDeep (nestRefusal?_of_le hle) (itemRefusalWithin?_eq_of_le (Nat.pred_le_pred hle)) h
  | _, _, .map _, hle, h =>
    or_eq_of_not_tooDeep (nestRefusal?_of_le hle) (entryRefusalWithin?_eq_of_le (Nat.pred_le_pred hle)) h

theorem itemRefusalWithin?_eq_of_le : ∀ {m n : Nat} {items : List Value}, m ≤ n →
    itemRefusalWithin? (some m) items ≠ some .tooDeep →
    itemRefusalWithin? (some n) items = itemRefusalWithin? (some m) items
  | _, _, [], _, _ => rfl
  | _, _, _ :: _, hle, h =>
    or_eq_of_not_tooDeep (refusalWithin?_eq_of_le hle) (itemRefusalWithin?_eq_of_le hle) h

theorem entryRefusalWithin?_eq_of_le : ∀ {m n : Nat} {entries : List (Scalar × Value)}, m ≤ n →
    entryRefusalWithin? (some m) entries ≠ some .tooDeep →
    entryRefusalWithin? (some n) entries = entryRefusalWithin? (some m) entries
  | _, _, [], _, _ => rfl
  | _, _, (_, _) :: _, hle, h =>
    or_eq_of_not_tooDeep (fun _ => rfl) (or_eq_of_not_tooDeep (refusalWithin?_eq_of_le hle)
      (entryRefusalWithin?_eq_of_le hle)) h

end

theorem refusalWithin?_of_le {m n : Nat} {v : Value} (hle : m ≤ n)
    (h : refusalWithin? (some m) v = none) : refusalWithin? (some n) v = none :=
  (refusalWithin?_eq_of_le hle (by rw [h]; nofun)).trans h

end LogQuery.Json
