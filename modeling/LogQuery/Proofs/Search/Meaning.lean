import LogQuery.Search.Index
import Mathlib.Data.List.Basic
/-!
# What an index search asks

A query of the index search is a JSON value. `Document.holds?` reads it as the service does: a leaf
clause holds or not as the document has it, and a `bool` clause holds if all of `filter` hold, none of
`must_not` does, and at least `minimum_should_match` of `should` do. Nothing is assumed of a document:
it is any assignment of truth values to leaf clauses.

Against it stands the meaning of a filter (`Document.meets`), which knows nothing of roles and counts.

* `holds?_toValue`: a query in the language of the service means what its clauses mean in their roles.
* `compile_meets`: every filter that the compiler adds narrows the query by what the filter means.
  The invariant is that all alternatives have to hold (`BoolQuery.IsStrict`).
* `payload_holds`: the compiled query is the conjunction of the filters, in any order.
-/
namespace LogQuery

/-! ## Complete filters -/

/-- Whether an operation can be asked with some number of values. -/
def Operation.admits (o : Operation) (values : Nat) : Bool :=
  match o with
  | .between | .during => values = 2
  | .oneOf => 1 ≤ values
  | .exist | .absent => values = 0
  | .other _ => false
  | _ => values = 1

/-- A filter has as many values as its operation needs. -/
def Filter.IsComplete (f : Filter) : Prop := f.operation.admits f.values.length = true

instance (f : Filter) : Decidable f.IsComplete := by unfold Filter.IsComplete; infer_instance

/-! ## Members of values with string keys -/

theorem Text.ofString_inj {a b : String} : Text.ofString a = Text.ofString b ↔ a = b := by
  constructor
  · intro h
    have hinj : Function.Injective CodePoint.scalar := fun _ _ h => CodePoint.scalar.inj h
    exact String.toList_inj.mp (hinj.list_map h)
  · rintro rfl; rfl

theorem Value.sameKey_string (a b : Text) :
    (Scalar.string a).sameKey (.string b) = decide (a = b) := by
  simp [Scalar.sameKey, Scalar.integer?]

theorem Value.lookup?_string {α : Type} (key : Text) : ∀ members : List (Text × α),
    lookup? (.string key) (members.map fun (k, v) => (.string k, v)) = Text.lookup? key members
  | [] => rfl
  | (k, v) :: rest => by
    simp only [List.map_cons, lookup?, Text.lookup?, sameKey_string, decide_eq_true_eq,
      lookup?_string key rest]

theorem Value.member?_ofMembers (members : List (Text × Value)) (key : Text) :
    (ofMembers members).member? key = Text.lookup? key members := lookup?_string key members

namespace IndexSearch

theorem member?_object (key : String) : ∀ members : List (String × Value),
    (object members).member? key = members.lookup key
  | [] => rfl
  | (k, v) :: rest => by
    have ih := member?_object key rest
    simp only [object, Value.member?_ofMembers, List.map_cons, Text.lookup?, Text.ofString_inj,
      List.lookup_cons] at ih ⊢
    by_cases h : k = key
    · simp [h]
    · rw [if_neg h, ih]; simp [beq_eq_false_iff_ne.mpr (Ne.symm h)]

/-! ## Documents -/

/-- A document, by the leaf clauses that hold of it. -/
structure Document where
  phrase : Text → Text → Bool
  term : Text → Text → Bool
  range : Text → List (Bound × Text) → Bool
  exist : Text → Bool

/-- The bound of a name, as the service knows it. -/
def Bound.ofName? (t : Text) : Option Bound :=
  if t.isString "gt" then some gt
  else if t.isString "gte" then some gte
  else if t.isString "lt" then some lt
  else if t.isString "lte" then some lte
  else none

/-- The bounds of a range in the language of the service. -/
def bounds? : List (Scalar × Value) → Option (List (Bound × Text))
  | [] => some []
  | (.string name, .string v) :: rest => do
    let b ← Bound.ofName? name
    let bs ← bounds? rest
    some ((b, v) :: bs)
  | _ => none

/-- The clauses of a `bool` clause by their roles, each with its truth value. -/
structure Roles where
  filter : List Bool := []
  should : List Bool := []
  mustNot : List Bool := []
  minimumShouldMatch : Int := 0

/-- Whether a `bool` clause holds. -/
def Roles.verdict (r : Roles) : Bool :=
  r.filter.all id && r.mustNot.all (!·) && r.minimumShouldMatch ≤ r.should.count true

def Roles.assign? (r : Roles) (name : Text) (held : List Bool) : Option Roles :=
  if name = "filter" then some { r with filter := held }
  else if name = "should" then some { r with should := held }
  else if name = "must_not" then some { r with mustNot := held }
  else none

namespace Document

/-- Whether a leaf clause holds, given its name and its body. -/
def leaf? (d : Document) (name : Text) (body : List (Scalar × Value)) : Option Bool :=
  if name = "match_phrase" then
    match body with
    | [(.string key, .string v)] => some (d.phrase key v)
    | _ => none
  else if name = "term" then
    match body with
    | [(.string key, .map [(.string label, .string v)])] =>
      if label = "value" then some (d.term key v) else none
    | _ => none
  else if name = "range" then
    match body with
    | [(.string key, .map bounds)] => (bounds? bounds).map (d.range key)
    | _ => none
  else if name = "exists" then
    match body with
    | [(.string label, .string key)] =>
      if label = "field" then some (d.exist key) else none
    | _ => none
  else none

mutual

/-- Whether a clause in the language of the service holds; nothing if the value is no clause. -/
def holds? (d : Document) : Value → Option Bool
  | .map [(.string name, .map body)] =>
    if name = "bool" then (d.roles? body).map Roles.verdict else d.leaf? name body
  | _ => none

/-- The members of the body of a `bool` clause. -/
def roles? (d : Document) : List (Scalar × Value) → Option Roles
  | [] => some {}
  | (.string name, .list clauses) :: rest => do
    let held ← d.holdAll? clauses
    let roles ← d.roles? rest
    roles.assign? name held
  | (.string name, .integer n) :: rest => do
    let roles ← d.roles? rest
    if name = "minimum_should_match" then some { roles with minimumShouldMatch := n }
    else none
  | _ => none

def holdAll? (d : Document) : List Value → Option (List Bool)
  | [] => some []
  | v :: rest => do
    let b ← d.holds? v
    let bs ← d.holdAll? rest
    some (b :: bs)

end

def meets (d : Document) (f : Filter) : Bool :=
  match f.operation, f.values with
  | .eq, [v] => d.phrase f.key v
  | .teq, [v] => d.term f.key v
  | .neq, [v] => !d.phrase f.key v
  | .gt, [v] => d.range f.key [(.gt, v)]
  | .gte, [v] => d.range f.key [(.gte, v)]
  | .lt, [v] => d.range f.key [(.lt, v)]
  | .lte, [v] => d.range f.key [(.lte, v)]
  | .between, [a, b] => d.range f.key [(.gte, a), (.lte, b)]
  | .during, [a, b] => d.range f.key [(.gte, a), (.lte, b)]
  | .oneOf, values => values.any (d.phrase f.key)
  | .exist, _ => d.exist f.key
  | .absent, _ => !d.exist f.key
  | _, _ => false

def satisfies (d : Document) : Clause → Bool
  | .matchPhrase key v => d.phrase key v
  | .term key v => d.term key v
  | .range key bounds => d.range key bounds
  | .exist key => d.exist key
  | .anyPhrase key values => values.any (d.phrase key)

/-- Whether a query holds, each clause in its role. -/
def accepts (d : Document) (q : BoolQuery) : Bool :=
  q.filter.all d.satisfies && q.mustNot.all (!d.satisfies ·)
    && q.minimumShouldMatch ≤ q.should.countP d.satisfies

/-! ## Reading a compiled query -/

theorem bound_ofName? (b : Bound) : Bound.ofName? b.name = some b := by
  cases b <;> decide

theorem bounds?_map : ∀ bounds : List (Bound × Text),
    bounds? (bounds.map fun (b, v) => (.string b.name, .string v)) = some bounds
  | [] => rfl
  | (b, v) :: rest => by
    simp only [List.map_cons, bounds?, bound_ofName?, bounds?_map rest, Option.bind_eq_bind,
      Option.bind_some]

theorem leaf?_phrase (d : Document) (key v : Text) :
    d.leaf? "match_phrase" [(.string key, .string v)] = some (d.phrase key v) := by
  simp [leaf?]

theorem leaf?_term (d : Document) (key v : Text) :
    d.leaf? "term" [(.string key, object [("value", .string v)])] = some (d.term key v) := by
  simp [leaf?, object, Value.ofMembers, Text.ofString_inj]

theorem leaf?_range (d : Document) (key : Text) (bounds : List (Bound × Text)) :
    d.leaf? "range" [(.string key, Value.ofMembers (bounds.map fun (b, v) => (b.name, .string v)))]
      = some (d.range key bounds) := by
  have h := bounds?_map bounds
  simp only [leaf?, Value.ofMembers, Text.ofString_inj, List.map_map]
  simpa [Function.comp_def] using congrArg (Option.map (d.range key)) h

theorem leaf?_exist (d : Document) (key : Text) :
    d.leaf? "exists" [(.string "field", .string key)] = some (d.exist key) := by
  simp [leaf?, Text.ofString_inj]

theorem holds?_leaf (d : Document) (name : String) (body : List (Scalar × Value))
    (h : name ≠ "bool") : d.holds? (.map [(.string name, .map body)]) = d.leaf? name body := by
  simp [holds?, Text.ofString_inj, h]

theorem holds?_bool (d : Document) (body : List (Scalar × Value)) :
    d.holds? (.map [(.string "bool", .map body)]) = (d.roles? body).map Roles.verdict := by
  simp [holds?]

theorem holdAll?_map {α : Type} (d : Document) (f : α → Value) (g : α → Bool)
    (h : ∀ a, d.holds? (f a) = some (g a)) : ∀ as : List α,
    d.holdAll? (as.map f) = some (as.map g)
  | [] => by simp [holdAll?]
  | a :: as => by simp [holdAll?, h, holdAll?_map d f g h as]

theorem verdict_map {α : Type} (g : α → Bool) (filter should mustNot : List α) (n : Nat) :
    Roles.verdict ⟨filter.map g, should.map g, mustNot.map g, n⟩
      = (filter.all g && mustNot.all (!g ·) && n ≤ should.countP g) := by
  have h : (should.map g).count true = should.countP g := by
    rw [List.count, List.countP_map]
    exact List.countP_congr fun a _ => by simp
  simp [Roles.verdict, h, Function.comp_def]

theorem holds?_phrase (d : Document) (key v : Text) :
    d.holds? (IndexSearch.phrase key v) = some (d.phrase key v) :=
  (holds?_leaf d "match_phrase" _ (by decide)).trans (leaf?_phrase d key v)

theorem holds?_anyPhrase (d : Document) (key : Text) (values : List Text) :
    d.holds? (Clause.anyPhrase key values).toValue = some (values.any (d.phrase key)) := by
  have hs := holdAll?_map d (IndexSearch.phrase key) (d.phrase key) (holds?_phrase d key) values
  refine (holds?_bool d _).trans ?_
  simp only [List.map_cons, List.map_nil, roles?, hs, Roles.assign?, Text.ofString_inj,
    Option.bind_eq_bind, Option.bind_some]
  refine congrArg some ((verdict_map (d.phrase key) [] values [] 1).trans ?_)
  rw [Bool.eq_iff_iff]
  simp [List.one_le_countP_iff]

theorem holds?_clause (d : Document) (c : Clause) : d.holds? c.toValue = some (d.satisfies c) := by
  cases c with
  | matchPhrase key v => exact holds?_phrase d key v
  | term key v => exact (holds?_leaf d "term" _ (by decide)).trans (leaf?_term d key v)
  | range key bounds => exact (holds?_leaf d "range" _ (by decide)).trans (leaf?_range d key bounds)
  | exist key => exact (holds?_leaf d "exists" _ (by decide)).trans (leaf?_exist d key)
  | anyPhrase key values => exact holds?_anyPhrase d key values

/-- A query in the language of the service means what its clauses mean in their roles. -/
theorem holds?_toValue (d : Document) (q : BoolQuery) : d.holds? q.toValue = some (d.accepts q) := by
  have h := fun cs => holdAll?_map d Clause.toValue d.satisfies (holds?_clause d) cs
  refine (holds?_bool d _).trans ?_
  simp only [List.map_cons, List.map_nil, roles?, h, Roles.assign?, Text.ofString_inj,
    Option.bind_eq_bind, Option.bind_some]
  exact congrArg some (verdict_map d.satisfies q.filter q.should q.mustNot q.minimumShouldMatch)

end Document

/-! ## Compiling filters -/

/-- All alternatives of a query have to hold. -/
def BoolQuery.IsStrict (q : BoolQuery) : Prop := q.minimumShouldMatch = q.should.length

theorem BoolQuery.IsStrict.add {q : BoolQuery} (h : q.IsStrict) (o : Operation) (c : Clause) :
    (q.add o c).IsStrict := by
  unfold BoolQuery.IsStrict at h ⊢
  cases o <;> simp [BoolQuery.add, h]

/-- The part of a clause in a query, given whether it holds: under a negative operation it must not. -/
def inRole (o : Operation) (held : Bool) : Bool :=
  match o with
  | .neq | .absent => !held
  | _ => held

theorem accepts_add (d : Document) {q : BoolQuery} (h : q.IsStrict) (o : Operation) (c : Clause) :
    d.accepts (q.add o c) = (d.accepts q && inRole o (d.satisfies c)) := by
  cases o with
  | oneOf =>
    have hle : q.should.countP d.satisfies ≤ q.minimumShouldMatch := h ▸ List.countP_le_length
    rw [Bool.eq_iff_iff]
    simp only [Document.accepts, BoolQuery.add, inRole, List.countP_append, List.countP_singleton,
      Bool.and_eq_true, decide_eq_true_eq]
    cases d.satisfies c
    · simp; omega
    · simp
  | _ =>
    simp only [Document.accepts, BoolQuery.add, inRole, List.all_append, List.all_cons, List.all_nil,
      Bool.and_true]
    ac_rfl

theorem clause_meets {f : Filter} (h : f.IsComplete) :
    ∃ c, clause f = .ok c ∧ ∀ d : Document, inRole f.operation (d.satisfies c) = d.meets f := by
  obtain ⟨key, o, values⟩ := f
  unfold Filter.IsComplete at h
  cases o with
  | other name => simp [Operation.admits] at h
  | oneOf => exact ⟨_, rfl, fun d => by simp [inRole, Document.satisfies, Document.meets]⟩
  | exist => exact ⟨_, rfl, fun d => by simp [inRole, Document.satisfies, Document.meets]⟩
  | absent => exact ⟨_, rfl, fun d => by simp [inRole, Document.satisfies, Document.meets]⟩
  | between | during =>
    simp only [Operation.admits, decide_eq_true_eq, List.length_eq_two] at h
    obtain ⟨a, b, rfl⟩ := h
    exact ⟨_, rfl, fun d => rfl⟩
  | _ =>
    simp only [Operation.admits, decide_eq_true_eq, List.length_eq_one_iff] at h
    obtain ⟨v, rfl⟩ := h
    exact ⟨_, rfl, fun d => rfl⟩

theorem compile_meets : ∀ (filters : List Filter) {q : BoolQuery}, q.IsStrict →
    (∀ f ∈ filters, f.IsComplete) → ∃ q', compile filters q = .ok q' ∧
      ∀ d : Document, d.accepts q' = (d.accepts q && filters.all d.meets)
  | [], q, _, _ => ⟨q, rfl, fun d => by simp⟩
  | f :: rest, q, hq, h => by
    obtain ⟨c, hc, hmeets⟩ := clause_meets (h f (by simp))
    obtain ⟨q', hq', haccepts⟩ :=
      compile_meets rest (hq.add f.operation c) fun g hg => h g (by simp [hg])
    refine ⟨q', ?_, fun d => ?_⟩
    · rw [compile, hc]; exact hq'
    · rw [haccepts, accepts_add d hq, hmeets, List.all_cons, Bool.and_assoc]

theorem member?_query (s : Search) : s.toValue.member? "query" = some s.query.toValue := by
  unfold Search.toValue
  rw [member?_object]
  cases s.searchAfter <;> simp [List.lookup_cons]

theorem payload_meets (q : Query) (cursor : Option Value) (pageSize : Option Int)
    (h : ∀ f ∈ q.filters, f.IsComplete) :
    ∃ body query, payload q cursor pageSize = .ok body ∧ body.member? "query" = some query ∧
      ∀ d : Document, d.holds? query = some (q.filters.all d.meets) := by
  obtain ⟨b, hb, haccepts⟩ := compile_meets q.filters (q := {}) rfl h
  let s : Search := { size := pageSize.getD (defaultPageSize q), searchAfter := usable cursor,
                      order := q.effectiveOrder, query := b }
  have hs : payload q cursor pageSize = .ok s.toValue := by rw [payload, search, hb]; rfl
  refine ⟨s.toValue, b.toValue, hs, member?_query s, fun d => ?_⟩
  rw [d.holds?_toValue, haccepts]
  simp [Document.accepts]

/-- **Compiled filters.** If every filter has the values that its operation needs, the search
compiles whatever cursor and page size it is given, and a document passes its query iff it meets every
filter. Filters in another order ask for the same. -/
theorem payload_holds (q : Query) (cursor : Option Value) (pageSize : Option Int)
    (h : ∀ f ∈ q.filters, f.IsComplete) :
    ∃ body query, payload q cursor pageSize = .ok body ∧ body.member? "query" = some query ∧
      (∀ d : Document, d.holds? query = some (q.filters.all d.meets)) ∧
      ∀ filters : List Filter, filters.Perm q.filters →
        ∃ body' query', payload { q with filters } cursor pageSize = .ok body' ∧
          body'.member? "query" = some query' ∧ ∀ d : Document, d.holds? query' = d.holds? query := by
  obtain ⟨body, query, hbody, hquery, hholds⟩ := payload_meets q cursor pageSize h
  refine ⟨body, query, hbody, hquery, hholds, fun filters hperm => ?_⟩
  obtain ⟨body', query', hbody', hquery', hholds'⟩ :=
    payload_meets { q with filters } cursor pageSize fun f hf => h f (hperm.mem_iff.mp hf)
  refine ⟨body', query', hbody', hquery', fun d => ?_⟩
  rw [hholds', hholds, hperm.all_eq]

def mixedQuery : Query where
  filters :=
    [⟨"app", .oneOf, ["shop", "till"]⟩, ⟨"code", .neq, ["200"]⟩, ⟨"host", .oneOf, ["a"]⟩,
      ⟨"@timestamp", .during, ["1", "2"]⟩, ⟨"trace", .absent, []⟩, ⟨"code", .gte, ["500"]⟩]

theorem payload_holds_mixed : (∀ f ∈ mixedQuery.filters, f.IsComplete) ∧
    ∃ body query, payload mixedQuery none (some 10) = .ok body ∧ body.member? "query" = some query ∧
      (∀ d : Document, d.holds? query = some (mixedQuery.filters.all d.meets)) ∧
      ∀ filters : List Filter, filters.Perm mixedQuery.filters →
        ∃ body' query', payload { mixedQuery with filters } none (some 10) = .ok body' ∧
          body'.member? "query" = some query' ∧ ∀ d : Document, d.holds? query' = d.holds? query :=
  ⟨by decide, payload_holds mixedQuery none (some 10) (by decide)⟩

end IndexSearch
end LogQuery
