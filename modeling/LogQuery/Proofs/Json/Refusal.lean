import LogQuery.Config.Shown
/-!
# Values that can be written

A value is refused for a key that no JSON name stands for or for an integer of too many digits. If all its
keys are names, the second is the only reason, and then the value can be written just if it can be shown
(`refusal?_eq`).
-/
namespace LogQuery.Json

/-- A scalar that can be the name of a member. -/
def isName : Scalar → Bool
  | .date _ | .timestamp _ | .bytes _ => false
  | _ => true

mutual

/-- Whether every key in a value can be the name of a member. -/
def hasNames : Value → Bool
  | .scalar _ => true
  | .list items => haveNames items
  | .tuple items => haveNames items
  | .map entries => entriesHaveNames entries
  | .set _ => true

/-- Whether every key in some values can be the name of a member. -/
def haveNames : List Value → Bool
  | [] => true
  | v :: rest => hasNames v && haveNames rest

/-- Whether every key of some entries, and in their values, can be the name of a member. -/
def entriesHaveNames : List (Scalar × Value) → Bool
  | [] => true
  | (k, v) :: rest => isName k && hasNames v && entriesHaveNames rest

end

theorem scalarRefusal?_eq (s : Scalar) :
    scalarRefusal? s = if s.isShowable then none else some longInteger := by
  cases s with
  | integer n =>
    simp only [Scalar.isShowable, scalarRefusal?]
    split <;> simp
  | _ => rfl

theorem keyRefusal?_eq {s : Scalar} (h : isName s = true) :
    keyRefusal? s = if s.isShowable then none else some longInteger := by
  rw [← scalarRefusal?_eq]
  cases s <;> first | rfl | cases h

theorem findSome?_scalarRefusal? (items : List Scalar) :
    items.findSome? scalarRefusal? = if items.all Scalar.isShowable then none else some longInteger := by
  induction items with
  | nil => rfl
  | cons s items ih =>
    rw [List.findSome?_cons, scalarRefusal?_eq, ih, List.all_cons]
    cases s.isShowable <;> rfl

theorem or_refusal (a b : Bool) :
    (if a then none else some longInteger).or (if b then none else some longInteger)
      = if a && b then none else some longInteger := by
  cases a <;> rfl

mutual

theorem refusal?_eq : ∀ {v : Value}, hasNames v = true →
    refusal? v = if v.isShowable then none else some longInteger
  | .scalar s, _ => by rw [refusal?, refusalWithin?, Value.isShowable, scalarRefusal?_eq]
  | .list items, h => by
    rw [refusal?, refusalWithin?, Value.isShowable]
    exact itemRefusal?_eq h
  | .tuple items, h => by
    rw [refusal?, refusalWithin?, Value.isShowable]
    exact itemRefusal?_eq h
  | .map entries, h => by
    rw [refusal?, refusalWithin?, Value.isShowable]
    exact entryRefusal?_eq h
  | .set items, _ => by rw [refusal?, refusalWithin?, Value.isShowable, findSome?_scalarRefusal?]

theorem itemRefusal?_eq : ∀ {items : List Value}, haveNames items = true →
    itemRefusalWithin? none items = if Value.areShowable items then none else some longInteger
  | [], _ => rfl
  | v :: items, h => by
    rw [haveNames, Bool.and_eq_true] at h
    rw [itemRefusalWithin?, refusalWithin?_none, refusal?_eq h.1, itemRefusal?_eq h.2, or_refusal,
      Value.areShowable]

theorem entryRefusal?_eq : ∀ {entries : List (Scalar × Value)}, entriesHaveNames entries = true →
    entryRefusalWithin? none entries = if Value.haveShowable entries then none else some longInteger
  | [], _ => rfl
  | (k, v) :: entries, h => by
    rw [entriesHaveNames, Bool.and_eq_true, Bool.and_eq_true] at h
    rw [entryRefusalWithin?, refusalWithin?_none, keyRefusal?_eq h.1.1, refusal?_eq h.1.2,
      entryRefusal?_eq h.2, or_refusal, or_refusal,
      Value.haveShowable, Bool.and_assoc]

end

end LogQuery.Json
