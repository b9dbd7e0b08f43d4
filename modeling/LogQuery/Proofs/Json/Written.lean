import LogQuery.Proofs.Json.Tagging
import LogQuery.Proofs.Number.Numeral
/-!
# What is read can be written

The tags keep the integers of a document small: what has more than 64 bits becomes a double-precision
number. So whatever was read can be written back without its tags (`refusal?_ofTree`), though a document
may well hold integers that are too long to be written.
-/
namespace LogQuery.Tagged

open Json (Tree)

theorem isWritable_of_inRange {n : Int} (hmin : minInteger64 ≤ n) (hmax : n ≤ maxInteger64) :
    Integer.isWritable n = true := by
  refine Integer.isWritable_of_lt ?_
  simp only [minInteger64, maxInteger64, Nat.pow_eq] at hmin hmax
  omega

theorem refusal?_inRange {n : Int} (hmin : minInteger64 ≤ n) (hmax : n ≤ maxInteger64) :
    Json.refusal? (.integer n) = none := by
  simp only [Json.refusal?, Json.refusalWithin?, Json.scalarRefusal?, isWritable_of_inRange hmin hmax,
    if_true]

theorem refusal?_ofLiteral (literal : Text) : Json.refusal? (ofLiteral literal).plain = none := by
  unfold ofLiteral ofDigits
  split
  next hsafe =>
    refine refusal?_inRange ?_ ?_ <;>
      simp only [maxSafeInteger, minInteger64, maxInteger64, Nat.pow_eq] at hsafe ⊢ <;> omega
  next =>
    split
    next hrange => exact refusal?_inRange hrange.1 hrange.2
    next => rfl

mutual

/-- **What is read can be written.** -/
theorem refusal?_ofTree : ∀ tree : Tree, Json.refusal? (ofTree tree).plain = none
  | .null => rfl
  | .bool _ => rfl
  | .integer literal => refusal?_ofLiteral literal
  | .decimal _ => rfl
  | .constant _ => rfl
  | .string _ => rfl
  | .list items => itemRefusal?_ofTrees items
  | .map members => entryRefusal?_ofTreeMembers members

theorem itemRefusal?_ofTrees :
    ∀ trees : List Tree, Json.itemRefusalWithin? none (plainItems (ofTrees trees)) = none
  | [] => rfl
  | tree :: rest => by
    simp only [ofTrees, plainItems, Json.itemRefusalWithin?, Json.refusalWithin?_none, refusal?_ofTree tree,
      itemRefusal?_ofTrees rest, Option.none_or]

theorem entryRefusal?_ofTreeMembers :
    ∀ members : List (Text × Tree),
      Json.entryRefusalWithin? none (plainMembers (ofTreeMembers members)) = none
  | [] => rfl
  | (k, tree) :: rest => by
    simp only [ofTreeMembers, plainMembers, Json.entryRefusalWithin?, Json.refusalWithin?_none,
      Json.keyRefusal?,
      Json.scalarRefusal?, refusal?_ofTree tree, entryRefusal?_ofTreeMembers rest, Option.none_or]

end

/-! ## Parts of what is read -/

/-- A property that the parts of a document have if the document has it. -/
structure Inherited (P : Tagged → Prop) : Prop where
  member : ∀ {x y : Tagged}, P x → ∀ {key : Text}, x.member? key = some y → P y
  item : ∀ {items : List Tagged} {y : Tagged}, P (list items) → y ∈ items → P y

/-- A part of a document that was read. -/
def IsRead (x : Tagged) : Prop := ∃ tree, x = ofTree tree

variable {x y : Tagged}

theorem IsRead.refusal?_plain (h : x.IsRead) : Json.refusal? x.plain = none := by
  obtain ⟨tree, rfl⟩ := h
  exact refusal?_ofTree tree

theorem IsRead.of_member (h : x.IsRead) {key : Text} (hy : x.member? key = some y) : y.IsRead := by
  obtain ⟨tree, rfl⟩ := h
  rw [member?_ofTree] at hy
  obtain ⟨member, -, rfl⟩ := Option.map_eq_some_iff.mp hy
  exact ⟨member, rfl⟩

theorem IsRead.of_item {items : List Tagged} (h : (list items).IsRead) (hy : y ∈ items) :
    y.IsRead := by
  obtain ⟨tree, htree⟩ := h
  cases tree with
  | list trees =>
    rw [ofTree, ofTrees_eq_map] at htree
    cases htree
    obtain ⟨item, -, rfl⟩ := List.mem_map.mp hy
    exact ⟨item, rfl⟩
  | integer literal =>
    rcases ofLiteral_cases literal with h | h | h <;> rw [ofTree, h] at htree <;> cases htree
  | _ => cases htree

theorem inherited_isRead : Inherited IsRead := ⟨IsRead.of_member, IsRead.of_item⟩

end LogQuery.Tagged
