import LogQuery.Json.Tagged
/-!
# What tagging keeps

Tagging changes numbers only, so a tagged document has the members and the items of the document, tagged
(`member?_ofTree`, `ofTrees_eq_map`, `ofTreeMembers_eq_map`).
-/
namespace LogQuery

/-- The member of a map; other documents have none. -/
def Json.Tree.member? (key : Text) : Json.Tree → Option Json.Tree
  | map members => Text.lookup? key members
  | _ => none

namespace Tagged

open Json (Tree)

theorem ofLiteral_cases (literal : Text) :
    ofLiteral literal = .integer (Json.integerOf literal) ∨
      ofLiteral literal = .bigInteger literal ∨
      ofLiteral literal = .float (Json.decimalOf literal) := by
  unfold ofLiteral ofDigits
  split
  · exact Or.inl rfl
  · split
    · exact Or.inr (Or.inl rfl)
    · exact Or.inr (Or.inr rfl)

theorem lookup?_ofTreeMembers (key : Text) : ∀ members : List (Text × Tree),
    Text.lookup? key (ofTreeMembers members) = (Text.lookup? key members).map ofTree
  | [] => rfl
  | (k, x) :: rest => by
    simp only [ofTreeMembers, Text.lookup?]
    split
    · rfl
    · exact lookup?_ofTreeMembers key rest

theorem member?_ofTree (key : Text) (t : Tree) :
    (ofTree t).member? key = (t.member? key).map ofTree := by
  cases t with
  | map members => exact lookup?_ofTreeMembers key members
  | integer literal => obtain h | h | h := ofLiteral_cases literal <;> rw [ofTree, h] <;> rfl
  | _ => rfl

theorem ofTrees_eq_map : ∀ ts : List Tree, ofTrees ts = ts.map ofTree
  | [] => rfl
  | t :: ts => congrArg (ofTree t :: ·) (ofTrees_eq_map ts)

theorem plainItems_eq_map : ∀ xs : List Tagged, plainItems xs = xs.map plain
  | [] => rfl
  | x :: xs => congrArg (x.plain :: ·) (plainItems_eq_map xs)

theorem ofTreeMembers_eq_map : ∀ members : List (Text × Tree),
    ofTreeMembers members = members.map fun e => (e.1, ofTree e.2)
  | [] => rfl
  | (k, x) :: members => congrArg ((k, ofTree x) :: ·) (ofTreeMembers_eq_map members)

theorem plainMembers_eq_map : ∀ members : List (Text × Tagged),
    plainMembers members = members.map fun e => (.string e.1, e.2.plain)
  | [] => rfl
  | (k, x) :: members => congrArg ((Scalar.string k, x.plain) :: ·) (plainMembers_eq_map members)

end Tagged
end LogQuery
