import LogQuery.Proofs.Json.Tagging
import LogQuery.Proofs.Json.WriteBytes
import LogQuery.Search.Event
/-!
# Requests as a service receives them

A request carries its body as a JSON text. A service reads that text; what it then has is a document,
in which it looks for the members that it knows. If nothing in the body stops it from being written,
the document is the one that the body denotes (`document?_of_body`).

The bodies of both services are maps with texts for keys, whose only scalars are texts and integers.
So the only thing that can stop such a body is an integer of too many digits.
-/
namespace LogQuery

namespace Json.Tree

def integer? : Tree → Option Int
  | integer literal => some (integerOf literal)
  | _ => none

end Json.Tree

/-- The document that a service reads from the body of a request. Services refuse bodies of more than a
thousand levels of nesting, and no request has as many. -/
def Request.document? (r : Request) : Option Json.Tree :=
  match r.bodyText? with
  | .ok (some t) => (Json.Tree.read false 1000 t).toOption
  | _ => none

theorem Request.document?_of_body {r : Request} {v : Value} (hbody : r.body = some v)
    (hw : Json.refusal? v = none) (hr : v.readsBack 1000 = true) :
    r.document? = some (Json.Tree.ofValue v) := by
  unfold document? bodyText?
  rw [hbody]
  simp only [Json.encode_eq, hw, Except.map,
    Json.read_write Json.Style.isPlain_compact false hw hr, Except.toOption]

/-! ## Bodies -/

namespace Json

theorem refusal?_integer (n : Int) :
    refusal? (.integer n) = if Integer.isWritable n then none else some longInteger := rfl

theorem refusal?_string (t : Text) : refusal? (.string t) = none := rfl

theorem refusal?_list : ∀ vs : List Value, refusal? (.list vs) = vs.findSome? refusal?
  | [] => rfl
  | v :: vs => by
    have h := refusal?_list vs
    simp only [refusal?, refusalWithin?, nestRefusal?_none, Option.none_or, Option.map_none] at h
    simp only [refusal?, refusalWithin?, nestRefusal?_none, Option.none_or, Option.map_none,
      itemRefusalWithin?, h, List.findSome?_cons]
    cases refusalWithin? none v <;> rfl

theorem refusal?_ofMembers : ∀ ms : List (Text × Value),
    refusal? (Value.ofMembers ms) = ms.findSome? fun m => refusal? m.2
  | [] => rfl
  | (k, v) :: ms => by
    have h := refusal?_ofMembers ms
    simp only [Value.ofMembers, refusal?, refusalWithin?, nestRefusal?_none, Option.none_or,
      Option.map_none] at h
    simp only [Value.ofMembers, refusal?, refusalWithin?, nestRefusal?_none, Option.none_or,
      Option.map_none, List.map_cons, entryRefusalWithin?, h, List.findSome?_cons, keyRefusal?,
      scalarRefusal?]
    cases refusalWithin? none v <;> rfl

theorem refusal?_object (ms : List (String × Value)) :
    refusal? (IndexSearch.object ms) = ms.findSome? fun m => refusal? m.2 := by
  rw [IndexSearch.object, refusal?_ofMembers, List.findSome?_map]
  rfl

theorem refusal?_single (k : Text) (v : Value) : refusal? (IndexSearch.single k v) = refusal? v := by
  rw [IndexSearch.single, refusal?_ofMembers, List.findSome?_cons]
  cases refusal? v <;> rfl

end Json

namespace Value

theorem readsBack_list {depth : Nat} : ∀ vs : List Value,
    (Value.list vs).readsBack (depth + 1) = vs.all (·.readsBack depth)
  | [] => rfl
  | v :: vs => by
    have h : (Value.list vs).readsBack (depth + 1) = _ := readsBack_list vs
    simp only [readsBack] at h
    simp only [readsBack, itemsReadBack, h, List.all_cons]

theorem readsBack_ofMembers {depth : Nat} : ∀ ms : List (Text × Value),
    (ofMembers ms).readsBack (depth + 1) = ms.all (·.2.readsBack depth)
  | [] => rfl
  | (k, v) :: ms => by
    have h : (ofMembers ms).readsBack (depth + 1) = _ := readsBack_ofMembers ms
    simp only [ofMembers, readsBack] at h
    simp only [ofMembers, readsBack, List.map_cons, entriesReadBack, h, List.all_cons]

theorem readsBack_object {depth : Nat} (ms : List (String × Value)) :
    (IndexSearch.object ms).readsBack (depth + 1) = ms.all (·.2.readsBack depth) := by
  rw [IndexSearch.object, readsBack_ofMembers, List.all_map]
  rfl

theorem readsBack_single {depth : Nat} (k : Text) (v : Value) :
    (IndexSearch.single k v).readsBack (depth + 1) = v.readsBack depth := by
  rw [IndexSearch.single, readsBack_ofMembers, List.all_cons, List.all_nil, Bool.and_true]

theorem isUnicode_list : ∀ vs : List Value, (Value.list vs).isUnicode = vs.all isUnicode
  | [] => rfl
  | v :: vs => by
    have h := isUnicode_list vs
    simp only [isUnicode] at h
    simp only [isUnicode, areUnicode, h, List.all_cons]

theorem isUnicode_ofMembers : ∀ ms : List (Text × Value),
    (ofMembers ms).isUnicode = ms.all fun m => m.1.all CodePoint.isScalar && m.2.isUnicode
  | [] => rfl
  | (k, v) :: ms => by
    have h := isUnicode_ofMembers ms
    simp only [ofMembers, isUnicode] at h
    simp only [ofMembers, isUnicode, List.map_cons, entriesUnicode, h, List.all_cons,
      Json.nameOfKey]

theorem isUnicode_object (ms : List (String × Value)) :
    (IndexSearch.object ms).isUnicode = ms.all (·.2.isUnicode) := by
  rw [IndexSearch.object, isUnicode_ofMembers, List.all_map]
  congr 1
  funext m
  simp only [Function.comp_apply, Text.all_isScalar_ofString, Bool.true_and]

theorem isUnicode_integer (n : Int) : (Value.integer n).isUnicode = true :=
  Text.all_isScalar_of_isLegible (Json.all_isLegible_ofInt n)

end Value
end LogQuery
