import LogQuery.Proofs.Json.Constants
import LogQuery.Proofs.Json.Standard
/-!
# Tags by literals and by numbers

The numbers of a document can be tagged by their literals while it is read, or by their values once it has
been read as a plain value. Both ways come to the same tags (`ofValue_toValue`), because the literal of an
integer in a document is the way in which the integer is written, unless the integer is zero.

`decode_eq_ok_iff`: reading with tags is reading a plain value and tagging it, for exactly the texts that
have no names of numbers outside of their strings.
-/
namespace LogQuery

namespace Json.Tree

theorem itemValues_eq_map (items : List Tree) : itemValues items = items.map toValue := by
  induction items with
  | nil => rfl
  | cons x items ih => exact congrArg (x.toValue :: ·) ih

theorem memberValues_eq_map (members : List (Text × Tree)) :
    memberValues members = members.map fun e => (.string e.1, e.2.toValue) := by
  induction members with
  | nil => rfl
  | cons e members ih => exact congrArg ((Scalar.string e.1, e.2.toValue) :: ·) ih

/-- A text is read with the names of numbers or without them, in the same way if it has none. -/
theorem read_false_eq_ok_iff {depth : Nat} {t : Text} {tree : Tree} :
    read false depth t = .ok tree ↔ read true depth t = .ok tree ∧ ¬ HasConstant t := by
  unfold read
  split
  next => exact ⟨nofun, fun h => nomatch h.1⟩
  next =>
    constructor
    · intro h
      obtain ⟨hsame, -⟩ := readDocument_strict (eq_ok_of_mapError h)
      rcases readDocument_agrees hsame with ⟨-, hnone⟩ | ⟨c, hnamed, -⟩
      · exact ⟨by rw [hsame]; rfl, hnone⟩
      · rw [hnamed] at h
        cases h
    · rintro ⟨h, hnone⟩
      rcases readDocument_agrees (eq_ok_of_mapError h) with ⟨hsame, -⟩ | ⟨c, -, hc⟩
      · rw [hsame]
        rfl
      · exact absurd ⟨c, hc⟩ hnone

end Json.Tree

namespace Tagged

open Json (Tree)

/-- **By its literals or by its numbers.** The value of a document that was read has the tags of the
document. -/
theorem ofValue_toValue {depth size : Nat} {tree : Tree} (h : tree.Fits depth size) :
    ofValue tree.toValue = ofTree tree := by
  induction h with
  | null | bool | decimal | constant | string => rfl
  | integer h => exact (ofLiteral_eq h).symm
  | @list _ _ items _ ih =>
    rw [Tree.toValue, Tree.itemValues_eq_map, ofValue, ofValues_eq_map, ofTree, ofTrees_eq_map,
      List.map_map]
    exact congrArg Tagged.list (List.map_congr_left ih)
  | @map _ _ members hnames _ ih =>
    have hkeys : ((members.map fun e => (e.1, e.2.toValue)).map Prod.fst).Nodup := by
      rw [List.map_map]
      exact hnames
    have hvalue := ofValue_members hkeys
    rw [List.map_map, List.map_map] at hvalue
    rw [Tree.toValue, Tree.memberValues_eq_map, ofTree, ofTreeMembers_eq_map]
    refine hvalue.trans (congrArg Tagged.map (List.map_congr_left fun e he => ?_))
    exact congrArg (Prod.mk e.1) (ih e he)

/-- **Tagging while reading and after it.** A text is decoded to a tagged document exactly if it is read
as a plain value with these tags and no name of a number without digits stands in it outside of its
strings. -/
theorem decode_eq_ok_iff {depth : Nat} {t : Text} {x : Tagged} :
    decode depth t = .ok x ↔ ∃ v, Json.parse depth t = .ok v ∧ ¬ Json.HasConstant t ∧ ofValue v = x := by
  constructor
  · intro h
    obtain ⟨tree, hread, rfl⟩ := eq_ok_of_map h
    obtain ⟨hlenient, hnone⟩ := Tree.read_false_eq_ok_iff.mp hread
    refine ⟨tree.toValue, ?_, hnone, ofValue_toValue (Json.fits_of_read hread)⟩
    rw [Json.parse, hlenient]
    rfl
  · rintro ⟨v, hparse, hnone, rfl⟩
    obtain ⟨tree, hread, rfl⟩ := eq_ok_of_map hparse
    rw [decode, Tree.read_false_eq_ok_iff.mpr ⟨hread, hnone⟩, ofValue_toValue (Json.fits_of_read hread)]
    rfl

end Tagged
end LogQuery
