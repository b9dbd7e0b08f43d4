import LogQuery.Proofs.Search.Received
/-!
# The body of an index search

What a service finds in the body of a search. The body is nested at most nine levels deep, and of the
numbers in it only two have no bound: the size of the page and the number of alternatives.

* `refusal?_search`: what can stop a search from being written.
* `readsBack_search`: a search that is written can be read.
* `member?_size`, `member?_searchAfter`: the members that a service looks for.
-/
namespace LogQuery.IndexSearch

theorem toValue_range (key : Text) (bounds : List (Bound × Text)) :
    (Clause.range key bounds).toValue = object [("range",
      single key (.ofMembers (bounds.map fun b => (b.1.name, .string b.2))))] := rfl

theorem refusal?_clause (c : Clause) : Json.refusal? c.toValue = none := by
  have hone : Integer.isWritable 1 = true := Integer.isWritable_of_lt (by decide)
  have hstring : ∀ t, Json.refusal? (.string t) = none := Json.refusal?_string
  cases c with
  | matchPhrase key value => rfl
  | term key value => rfl
  | exist key => rfl
  | range key bounds =>
    have hbounds : bounds.findSome? (fun b => Json.refusal? (.string b.2)) = none := by
      rw [List.findSome?_eq_none_iff]
      exact fun b _ => hstring b.2
    rw [toValue_range, Json.refusal?_object, List.findSome?_singleton, Json.refusal?_single,
      Json.refusal?_ofMembers, List.findSome?_map]
    exact hbounds
  | anyPhrase key values =>
    have hphrases : (values.map (phrase key)).findSome? Json.refusal? = none := by
      rw [List.findSome?_map, List.findSome?_eq_none_iff]
      intro v _
      rfl
    simp only [Clause.toValue, Json.refusal?_object, Json.refusal?_list, Json.refusal?_integer,
      List.findSome?_cons, List.findSome?_nil, hphrases, hone, if_true]

theorem refusal?_clauses (cs : List Clause) :
    Json.refusal? (.list (cs.map Clause.toValue)) = none := by
  rw [Json.refusal?_list, List.findSome?_map, List.findSome?_eq_none_iff]
  intro c _
  exact refusal?_clause c

theorem refusal?_query (q : BoolQuery) :
    Json.refusal? q.toValue = Json.refusal? (.integer q.minimumShouldMatch) := by
  simp only [BoolQuery.toValue, Json.refusal?_object, List.findSome?_cons, List.findSome?_nil,
    refusal?_clauses]
  cases Json.refusal? (.integer q.minimumShouldMatch) <;> rfl

theorem refusal?_search (s : Search) (h : ∀ v, s.searchAfter = some v → Json.refusal? v = none) :
    Json.refusal? s.toValue
      = (Json.refusal? (.integer s.size)).or (Json.refusal? (.integer s.query.minimumShouldMatch)) := by
  obtain ⟨size, after, order, query⟩ := s
  have hsort : Json.refusal? (.list [single order.field
      (object [("order", .string (directionName order.ascending))])]) = none := rfl
  cases after with
  | none =>
    simp only [Search.toValue, List.append_nil, List.cons_append, List.nil_append,
      Json.refusal?_object, List.findSome?_cons, List.findSome?_nil, hsort, refusal?_query]
    cases Json.refusal? (.integer size) <;>
      cases Json.refusal? (.integer query.minimumShouldMatch) <;> rfl
  | some v =>
    simp only [Search.toValue, List.cons_append, List.nil_append, h v rfl,
      Json.refusal?_object, List.findSome?_cons, List.findSome?_nil, hsort, refusal?_query]
    cases Json.refusal? (.integer size) <;>
      cases Json.refusal? (.integer query.minimumShouldMatch) <;> rfl

theorem readsBack_clause (c : Clause) (depth : Nat) : c.toValue.readsBack (depth + 5) = true := by
  cases c with
  | matchPhrase key value => rfl
  | term key value => rfl
  | exist key => rfl
  | range key bounds =>
    have hbounds : bounds.all (fun b => (Value.string b.2).readsBack (depth + 2)) = true := by
      rw [List.all_eq_true]
      exact fun b _ => rfl
    rw [toValue_range, Value.readsBack_object, List.all_cons, List.all_nil, Bool.and_true,
      Value.readsBack_single, Value.readsBack_ofMembers, List.all_map]
    exact hbounds
  | anyPhrase key values =>
    have hphrases : (Value.list (values.map (phrase key))).readsBack (depth + 3) = true := by
      rw [Value.readsBack_list, List.all_map, List.all_eq_true]
      intro v _
      rfl
    simp only [Clause.toValue, Value.readsBack_object, List.all_cons, List.all_nil, hphrases,
      Bool.and_true]
    rfl

theorem readsBack_query (q : BoolQuery) (depth : Nat) : q.toValue.readsBack (depth + 8) = true := by
  have hclauses : ∀ cs : List Clause,
      (Value.list (cs.map Clause.toValue)).readsBack (depth + 6) = true := by
    intro cs
    rw [Value.readsBack_list, List.all_map, List.all_eq_true]
    intro c _
    exact readsBack_clause c depth
  simp only [BoolQuery.toValue, Value.readsBack_object, List.all_cons, List.all_nil, hclauses,
    Bool.and_true]
  rfl

theorem readsBack_search (s : Search) (depth : Nat)
    (h : ∀ v, s.searchAfter = some v → v.readsBack (depth + 8) = true) :
    s.toValue.readsBack (depth + 9) = true := by
  obtain ⟨size, after, order, query⟩ := s
  cases after with
  | none =>
    simp only [Search.toValue, List.append_nil, List.cons_append, List.nil_append,
      Value.readsBack_object, List.all_cons, List.all_nil, readsBack_query, Bool.and_true]
    rfl
  | some v =>
    simp only [Search.toValue, List.cons_append, List.nil_append, h v rfl,
      Value.readsBack_object, List.all_cons, List.all_nil, readsBack_query, Bool.and_true]
    rfl

theorem member?_size (s : Search) :
    (Json.Tree.ofValue s.toValue).member? "size" = some (.integer (Text.ofInt s.size)) := by
  obtain ⟨size, after, order, query⟩ := s
  cases after <;> rfl

theorem member?_searchAfter (s : Search) :
    (Json.Tree.ofValue s.toValue).member? "search_after" = s.searchAfter.map Json.Tree.ofValue := by
  obtain ⟨size, after, order, query⟩ := s
  cases after <;> rfl

/-! ## Numbered hits -/

/-- A hit that holds a number and is sorted by it. -/
def numberedHit (n : Int) : Value :=
  object [("_source", object [("n", .integer n)]), ("sort", .list [.integer n])]

def numberedResponse (numbers : List Int) : Value :=
  object [("hits", object [("hits", .list (numbers.map numberedHit))])]

def numberedHits (numbers : List Int) : Bytes :=
  (Utf8.encode? (Json.write .compact (numberedResponse numbers))).getD []

theorem refusal?_numberedResponse {numbers : List Int}
    (h : ∀ n ∈ numbers, Integer.isWritable n = true) :
    Json.refusal? (numberedResponse numbers) = none := by
  have hhits : numbers.findSome? (Json.refusal? ∘ numberedHit) = none := by
    rw [List.findSome?_eq_none_iff]
    intro n hn
    simp only [Function.comp_apply, numberedHit, Json.refusal?_object, Json.refusal?_list,
      Json.refusal?_integer, List.findSome?_cons, List.findSome?_nil, if_pos (h n hn)]
  simp only [numberedResponse, Json.refusal?_object, List.findSome?_cons, List.findSome?_nil,
    Json.refusal?_list, List.findSome?_map, hhits]

theorem readsBack_numberedResponse (numbers : List Int) (depth : Nat) :
    (numberedResponse numbers).readsBack (depth + 5) = true := by
  have hhits : (Value.list (numbers.map numberedHit)).readsBack (depth + 3) = true := by
    rw [Value.readsBack_list, List.all_map, List.all_eq_true]
    intro n _
    rfl
  simp only [numberedResponse, Value.readsBack_object, List.all_cons, List.all_nil,
    hhits, Bool.and_self]

theorem isUnicode_numberedResponse (numbers : List Int) :
    (numberedResponse numbers).isUnicode = true := by
  have hhits : (Value.list (numbers.map numberedHit)).isUnicode = true := by
    rw [Value.isUnicode_list, List.all_map, List.all_eq_true]
    intro n _
    simp only [Function.comp_apply, numberedHit, Value.isUnicode_object, Value.isUnicode_list,
      Value.isUnicode_integer, List.all_cons, List.all_nil, Bool.and_self]
  simp only [numberedResponse, Value.isUnicode_object, List.all_cons, List.all_nil, hhits,
    Bool.and_self]

theorem readBytes_numberedHits {numbers : List Int} (depth : Nat)
    (h : ∀ n ∈ numbers, Integer.isWritable n = true) :
    Json.Tree.readBytes false (depth + 5) (numberedHits numbers)
      = .ok (Json.Tree.ofValue (numberedResponse numbers)) := by
  obtain ⟨bytes, hbytes, hread⟩ :=
    Json.readBytes_write Json.Style.isPlain_compact false (refusal?_numberedResponse h)
      (readsBack_numberedResponse numbers depth) (isUnicode_numberedResponse numbers)
  rw [numberedHits, hbytes]
  exact hread

end LogQuery.IndexSearch
