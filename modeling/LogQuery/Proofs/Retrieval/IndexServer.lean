import LogQuery.Proofs.Retrieval.Paged
import LogQuery.Proofs.Retrieval.Pages
import LogQuery.Proofs.Search.IndexBody
import LogQuery.Runtime.Standard
/-!
# The index search against an honest server

A server of the index search holds a list of hits, each with sort values that no other hit has
(`Hit`). It reads from a request how many hits are asked for and behind which sort values
(`Demand`), and an honest one answers with just these hits (`IsHonest`).

The sort values of the last hit of a page go through the client and come back in the next request: they
are read, tagged, stripped of their tags, written and read again. `demand_of_request` says that they
come back as they were, so that every page begins where the last one ended.

* `retrieves_hits`: a retrieval from an honest server delivers the first hits, none of them left out and
  none twice.
-/
namespace LogQuery.IndexSearch

open Json (Tree)

/-! ## Sort values -/

/-- A value by which hits are sorted. -/
inductive SortKey where
  | string (t : Text)
  | integer (n : Int)
  deriving DecidableEq

namespace SortKey

/-- Integers have 64 bits, with a sign or without one. -/
def InRange : SortKey → Prop
  | string _ => True
  | integer n => Tagged.minInteger64 ≤ n ∧ n ≤ Tagged.maxInteger64

/-- The sort value that a document spells. -/
def ofTree? : Tree → Option SortKey
  | .string t => some (string t)
  | .integer literal => some (integer (Json.integerOf literal))
  | _ => none

def list? : Tree → Option (List SortKey)
  | .list items => items.mapM ofTree?
  | _ => none

def toValue : SortKey → Value
  | string t => .string t
  | integer n => .integer n

theorem isWritable_of_inRange {n : Int} (h : (integer n).InRange) : Integer.isWritable n = true := by
  refine Integer.isWritable_of_lt ?_
  simp only [InRange, Tagged.minInteger64, Tagged.maxInteger64, Nat.pow_eq] at h
  omega

theorem refusal?_toValue {k : SortKey} (h : k.InRange) : Json.refusal? k.toValue = none := by
  cases k with
  | string t => rfl
  | integer n => rw [toValue, Json.refusal?_integer, if_pos (isWritable_of_inRange h)]

theorem readsBack_toValue (k : SortKey) (depth : Nat) : k.toValue.readsBack depth = true := by
  cases k <;> cases depth <;> rfl

theorem ofTree?_ofValue (k : SortKey) : ofTree? (Tree.ofValue k.toValue) = some k := by
  cases k with
  | string t => rfl
  | integer n => exact congrArg (some ∘ integer) (Json.integerOf_ofInt n)

theorem plain_ofTree {k : SortKey} (h : k.InRange) {x : Tree} (hx : ofTree? x = some k) :
    (Tagged.ofTree x).plain = k.toValue := by
  cases x with
  | string t => cases hx; rfl
  | integer literal =>
    cases hx
    have hrange : Tagged.minInteger64 ≤ Json.integerOf literal ∧
        Json.integerOf literal ≤ Tagged.maxInteger64 := h
    simp only [Tagged.ofTree, Tagged.ofLiteral, Tagged.ofDigits, if_pos hrange]
    split <;> rfl
  | _ => cases hx

end SortKey

/-! ## The server -/

/-- A hit: a document, and the sort values that are written in it. -/
structure Hit where
  document : Tree
  sort : List SortKey
  isSort : (document.member? "sort").bind SortKey.list? = some sort
  ne_nil : sort ≠ []
  inRange : ∀ k ∈ sort, k.InRange

def Hit.record (h : Hit) : TaggedRecord := members ((Tagged.ofTree h.document).member? "_source")

def Hit.cursor (h : Hit) : Value := .list (h.sort.map SortKey.toValue)

/-- What a request asks for: a number of hits, from the beginning or behind some sort values. -/
structure Demand where
  size : Int
  behind : Option (List SortKey)

/-- What the body of a request asks for. -/
def Demand.ofTree? (t : Tree) : Option Demand := do
  let size ← (t.member? "size").bind Tree.integer?
  match t.member? "search_after" with
  | none => some ⟨size, none⟩
  | some x => (SortKey.list? x).map fun keys => ⟨size, some keys⟩

/-- The hits behind the one with some sort values. -/
def hitsBehind (hits : List Hit) : Option (List SortKey) → List Hit
  | none => hits
  | some keys => (hits.dropWhile fun h => h.sort ≠ keys).drop 1

/-- The bytes of a response that lists some hits. What bytes hold is what can be read of them: an answer
with more levels of nesting than a page may have holds nothing, so it is no honest one. -/
def Holds [Runtime] (body : Bytes) (hits : List Hit) : Prop :=
  ∃ tree, Tree.readBytes false (Runtime.pageDepth Runtime.frames) body = .ok tree ∧
    (tree.member? "hits").bind (·.member? "hits") = some (.list (hits.map Hit.document))

/-- An honest server answers every request with the hits that it asks for. -/
def IsHonest [Runtime] (hits : List Hit) (service : Service) : Prop :=
  ∀ sent request body demand, request.document? = some body → Demand.ofTree? body = some demand →
    ∃ status response, service sent request = .response status response ∧
      isSuccess status = true ∧
      Holds response ((hitsBehind hits demand.behind).take demand.size.toNat)

/-! ## Reading its pages -/

/-- The items of a list that spells some sort values have these values without their tags. -/
theorem plain_ofTree_of_mapM : ∀ {items : List Tree} {keys : List SortKey},
    items.mapM SortKey.ofTree? = some keys → (∀ k ∈ keys, k.InRange) →
    (items.map Tagged.ofTree).map Tagged.plain = keys.map SortKey.toValue
  | [], keys, h, _ => by
    cases h
    rfl
  | x :: items, keys, h, hr => by
    rw [List.mapM_cons] at h
    obtain ⟨k, hk, h⟩ := Option.bind_eq_some_iff.mp h
    obtain ⟨rest, hrest, h⟩ := Option.bind_eq_some_iff.mp h
    cases h
    have hx := SortKey.plain_ofTree (hr k List.mem_cons_self) hk
    have hitems := plain_ofTree_of_mapM hrest fun k hk => hr k (List.mem_cons_of_mem _ hk)
    simp only [List.map_cons, hx, hitems]

theorem Hit.sort_eq (h : Hit) : ∃ v vs, (Tagged.ofTree h.document).member? "sort"
    = some (.list (v :: vs)) ∧ (Tagged.list (v :: vs)).plain = h.cursor := by
  obtain ⟨x, hx, hkeys⟩ := Option.bind_eq_some_iff.mp h.isSort
  cases x with
  | list items =>
    have hplain := plain_ofTree_of_mapM hkeys h.inRange
    cases items with
    | nil => exact absurd (Option.some.inj hkeys).symm h.ne_nil
    | cons item items =>
      refine ⟨Tagged.ofTree item, Tagged.ofTrees items, ?_, ?_⟩
      · rw [Tagged.member?_ofTree, hx]; rfl
      · simp only [Hit.cursor, ← hplain, Tagged.plain, Tagged.plainItems_eq_map, Tagged.ofTrees_eq_map,
          List.map_cons]
  | _ => cases hkeys

/-- What the last of some hits leaves as a cursor. -/
def cursorBehind (hits : List Hit) : Option Value := hits.getLast?.map Hit.cursor

theorem page_of_holds [Runtime] {response : Bytes} {hits : List Hit} {status : Int}
    (hs : isSuccess status = true) (h : Holds response hits) :
    (Reply.response status response).page .indexSearch
      = .ok { records := hits.map Hit.record, cursor := cursorBehind hits } := by
  obtain ⟨tree, hread, hhits⟩ := h
  obtain ⟨outer, houter, hinner⟩ := Option.bind_eq_some_iff.mp hhits
  have hfound : IndexSearch.hits (Tagged.ofTree tree)
      = .ok ((hits.map Hit.document).map Tagged.ofTree) := by
    rw [IndexSearch.hits, Tagged.member?_ofTree, houter]
    simp only [Option.map_some, Option.bind_some, Tagged.member?_ofTree, hinner, Tagged.ofTree,
      Tagged.ofTrees_eq_map]
  have hrecords : records (Tagged.ofTree tree) = .ok (hits.map Hit.record) := by
    cases tree with
    | map ms =>
      simp only [Tagged.ofTree] at hfound
      simp only [Tagged.ofTree, records, hfound, Except.map, List.map_map]
      rfl
    | _ => cases houter
  have hcursor : cursor (Tagged.ofTree tree) = .ok (cursorBehind hits) := by
    simp only [cursor, hfound, Except.map, cursorBehind, List.getLast?_map]
    cases hits.getLast? with
    | none => rfl
    | some hit =>
      obtain ⟨v, vs, hsort, hplain⟩ := hit.sort_eq
      simp only [Option.map_some, Option.bind_some, hsort, hplain]
  exact Reply.page_response hs hread hrecords hcursor

/-! ## Reading its requests -/

theorem list?_ofValue : ∀ keys : List SortKey,
    SortKey.list? (Tree.ofValue (.list (keys.map SortKey.toValue))) = some keys
  | [] => rfl
  | k :: keys => by
    have h := list?_ofValue keys
    simp only [Tree.ofValue, SortKey.list?] at h
    simp only [List.map_cons, Tree.ofValue, Tree.ofValues, SortKey.list?, List.mapM_cons,
      SortKey.ofTree?_ofValue, h, Option.bind_eq_bind, Option.bind_some, Option.pure_def]

theorem usable_cursorBehind (hits : List Hit) : usable (cursorBehind hits) = cursorBehind hits := by
  unfold cursorBehind usable
  cases hits.getLast? with
  | none => rfl
  | some h =>
    have htruthy : h.cursor.isTruthy = true := by
      obtain ⟨k, keys, hk⟩ := List.exists_cons_of_ne_nil h.ne_nil
      rw [Hit.cursor, hk]
      rfl
    simp [Option.filter, htruthy]

/-- **The cursor comes back.** A search behind some hits asks for what is behind the sort values of the
last of them. -/
theorem demand_of_request (s : Search) (hits : List Hit) (h : s.searchAfter = cursorBehind hits) :
    Demand.ofTree? (Tree.ofValue s.toValue) = some ⟨s.size, hits.getLast?.map Hit.sort⟩ := by
  unfold Demand.ofTree?
  rw [member?_size, member?_searchAfter, h]
  simp only [Option.bind_some, Tree.integer?, Json.integerOf_ofInt, cursorBehind, Option.map_map,
    Option.bind_eq_bind]
  cases hits.getLast? with
  | none => rfl
  | some hit => simp only [Option.map_some, Function.comp_apply, Hit.cursor, list?_ofValue]

theorem hitsBehind_take {hits : List Hit} (hnodup : (hits.map Hit.sort).Nodup) {place : Nat}
    (hplace : place ≤ hits.length) :
    hitsBehind hits ((hits.take place).getLast?.map Hit.sort) = hits.drop place := by
  cases place with
  | zero => rfl
  | succ k =>
    have hsplit : hits = hits.take k ++ hits[k] :: hits.drop (k + 1) := by
      rw [List.getElem_cons_drop, List.take_append_drop]
    have hlast : (hits.take (k + 1)).getLast? = some hits[k] := by
      rw [List.take_succ_eq_append_getElem hplace, List.getLast?_concat]
    have hother : ∀ h ∈ hits.take k, decide (h.sort ≠ hits[k].sort) = true := by
      intro h hmem
      have hdisjoint : ((hits.take k ++ hits[k] :: hits.drop (k + 1)).map Hit.sort).Nodup :=
        hsplit ▸ hnodup
      rw [List.map_append, List.map_cons, List.nodup_append] at hdisjoint
      exact decide_eq_true
        (hdisjoint.2.2 h.sort (List.mem_map_of_mem hmem) hits[k].sort List.mem_cons_self)
    have hfound : (hits.dropWhile fun h => h.sort ≠ hits[k].sort) = hits[k] :: hits.drop (k + 1) :=
      calc (hits.dropWhile fun h => h.sort ≠ hits[k].sort)
          = (hits.take k ++ hits[k] :: hits.drop (k + 1)).dropWhile
              fun h => h.sort ≠ hits[k].sort := by rw [← hsplit]
        _ = (hits[k] :: hits.drop (k + 1)).dropWhile fun h => h.sort ≠ hits[k].sort :=
            List.dropWhile_append_of_pos hother
        _ = hits[k] :: hits.drop (k + 1) := List.dropWhile_cons_of_neg (by simp)
    rw [hlast, Option.map_some, hitsBehind, hfound, List.drop_one, List.tail_cons]

theorem Hit.refusal?_cursor (h : Hit) : Json.refusal? h.cursor = none := by
  rw [cursor, Json.refusal?_list, List.findSome?_map, List.findSome?_eq_none_iff]
  exact fun k hk => SortKey.refusal?_toValue (h.inRange k hk)

theorem refusal?_cursorBehind (hits : List Hit) (v : Value) (h : cursorBehind hits = some v) :
    Json.refusal? v = none := by
  obtain ⟨hit, -, rfl⟩ := Option.map_eq_some_iff.mp h
  exact hit.refusal?_cursor

theorem Hit.readsBack_cursor (h : Hit) (depth : Nat) : h.cursor.readsBack (depth + 1) = true := by
  rw [cursor, Value.readsBack_list, List.all_map, List.all_eq_true]
  exact fun k _ => SortKey.readsBack_toValue k depth

theorem honest_page [Runtime] {hits : List Hit} {service : Service} (hhonest : IsHonest hits service)
    (hnodup : (hits.map Hit.sort).Nodup) {place : Nat} (hplace : place ≤ hits.length) (s : Search)
    (hafter : s.searchAfter = cursorBehind (hits.take place))
    (hwritten : Json.refusal? s.toValue = none) (sent : Nat) {request : Request}
    (hbody : request.body = some s.toValue) :
    (service sent request).page .indexSearch =
      .ok { records := ((hits.drop place).take s.size.toNat).map Hit.record,
            cursor := cursorBehind ((hits.drop place).take s.size.toNat) } := by
  have hreads : s.toValue.readsBack 1000 = true := by
    refine readsBack_search s 991 fun v hv => ?_
    rw [hafter] at hv
    obtain ⟨hit, -, rfl⟩ := Option.map_eq_some_iff.mp hv
    exact hit.readsBack_cursor _
  obtain ⟨status, response, hreply, hsuccess, hholds⟩ := hhonest sent request _ _
    (Request.document?_of_body hbody hwritten hreads) (demand_of_request s (hits.take place) hafter)
  rw [hitsBehind_take hnodup hplace] at hholds
  rw [hreply]
  exact page_of_holds hsuccess hholds

theorem cursorBehind_page {hits : List Hit} {place count : Nat} (hcount : 0 < count)
    (hroom : place + count ≤ hits.length) :
    cursorBehind ((hits.drop place).take count) = cursorBehind (hits.take (place + count)) ∧
      (cursorBehind ((hits.drop place).take count)).isSome = true := by
  have hne : (hits.drop place).take count ≠ [] := by
    refine List.ne_nil_of_length_pos ?_
    rw [List.length_take, List.length_drop]
    omega
  unfold cursorBehind
  rw [List.take_add, List.getLast?_append_of_ne_nil _ hne, Option.isSome_map]
  exact ⟨rfl, List.getLast?_isSome.mpr hne⟩

/-! ## The retrieval -/

section
variable {job : Job} {q : BoolQuery}

/-- The search that a job sends at some progress. -/
def searchAt (job : Job) (q : BoolQuery) (p : Progress) : Search :=
  { size := job.pageSize p, searchAfter := usable p.cursor, order := job.query.effectiveOrder,
    query := q }

theorem ask_eq (job : Job) (hbackend : job.backend = .indexSearch)
    (hcompile : compile job.query.filters {} = .ok q) (p : Progress) :
    ∃ request, job.ask p = .ok request ∧ request.body = some (searchAt job q p).toValue := by
  simp only [Job.ask, hbackend, Backend.request, request, payload, search, hcompile, Option.getD_some,
    Except.map, bind, Except.bind]
  exact ⟨_, rfl, rfl⟩

theorem isServed [Runtime] {hits : List Hit} {service : Service} (hhonest : IsHonest hits service)
    (hnodup : (hits.map Hit.sort).Nodup) (hbackend : job.backend = .indexSearch)
    (hcompile : compile job.query.filters {} = .ok q) {size : Nat} (hpos : 0 < size)
    (hsize : job.maxPageSize = size)
    (hlimit : Integer.isWritable (min job.query.effectiveLimit size : Nat) = true)
    (hcount : Integer.isWritable q.minimumShouldMatch = true) :
    job.IsServed service (hits.map Hit.record) (fun place => cursorBehind (hits.take place)) size := by
  intro p hat hp
  have hplace : p.sent * size ≤ hits.length := by simpa using hat.place
  have hafter : (searchAt job q p).searchAfter = cursorBehind (hits.take (p.sent * size)) := by
    rw [searchAt, hat.cursor, usable_cursorBehind]
  have hpage : (searchAt job q p).size = (min p.remaining size : Nat) := by
    show min (p.remaining : Int) job.maxPageSize = _
    omega
  have hwritten : Json.refusal? (searchAt job q p).toValue = none := by
    have hlast : ((min p.remaining size : Nat) : Int).natAbs
        ≤ ((min job.query.effectiveLimit size : Nat) : Int).natAbs := by
      have := hat.remaining
      omega
    rw [refusal?_search _ (hafter ▸ refusal?_cursorBehind _), hpage, Json.refusal?_integer,
      if_pos (Integer.isWritable_mono hlimit hlast), Json.refusal?_integer, Option.none_or]
    exact if_pos hcount
  obtain ⟨request, hask, hbody⟩ := ask_eq job hbackend hcompile p
  have hread := honest_page hhonest hnodup hplace _ hafter hwritten p.sent hbody
  rw [hpage, Int.toNat_natCast, ← hbackend] at hread
  have hasked := Job.pageAsked_eq p hbody
  rw [hwritten] at hasked
  refine ⟨request, _, _, min p.remaining size, hask, hasked, hread, ⟨?_, fun hroom => ?_⟩,
    Nat.le_refl _, Nat.min_le_right _ _⟩
  · simp only [List.map_take, List.map_drop]
  · exact Or.inl (cursorBehind_page (by omega) (by simpa using hroom))

theorem pageAsked_start {request : Request} {size : Nat} (hsize : job.maxPageSize = size)
    (hbody : request.body = some (searchAt job q job.start).toValue)
    (hlong : ¬ (Integer.isWritable (min job.query.effectiveLimit size : Nat) = true ∧
      Integer.isWritable q.minimumShouldMatch = true)) :
    Job.pageAsked job.start request = .error (.fault Json.longInteger) := by
  have hpage : (searchAt job q job.start).size = (min job.query.effectiveLimit size : Nat) := by
    show min (job.query.effectiveLimit : Int) job.maxPageSize = _
    omega
  have hrefusal : Json.refusal? (searchAt job q job.start).toValue = some Json.longInteger := by
    rw [refusal?_search _ (fun v hv => by cases hv), hpage, Json.refusal?_integer,
      Json.refusal?_integer]
    by_cases hlimit : Integer.isWritable (min job.query.effectiveLimit size : Nat) = true
    · have hcount : ¬ Integer.isWritable q.minimumShouldMatch = true := fun h => hlong ⟨hlimit, h⟩
      rw [if_pos hlimit, Option.none_or]
      exact if_neg hcount
    · rw [if_neg hlimit]
      rfl
  rw [Job.pageAsked_eq _ hbody, hrefusal]

end

/-- **All records, in order, once.** A plain retrieval from an honest server delivers the records of
the first hits: as many as are wanted, as there are, and as all requests together can bring. It fails
just if the size of a page or the number of alternatives has too many digits to be written. -/
theorem retrieves_hits [Runtime] (t : Task) (service : Service) (stored : Bytes) (hits : List Hit) (size : Nat)
    (q : BoolQuery) (profile : Profile) (bytes : Bytes) (hplain : t.IsPlain)
    (hsource : t.env.source = .backend .indexSearch)
    (hindex : (indexOf t.env t.query).isTruthy = true) (hendpoint : t.env.endpoints ≠ [])
    (hsize : t.maxPageSizeOf .indexSearch = size) (hpos : 1 ≤ size)
    (hcompile : compile t.query.filters {} = .ok q) (hhonest : IsHonest hits service)
    (hnodup : (hits.map Hit.sort).Nodup) (hprofile : t.profileFor = .ok profile)
    (hshown : render profile ((hits.take (min (min t.query.effectiveLimit hits.length)
      (maxRequests * size))).map fun h => TaggedRecord.plain h.record) = .ok bytes) :
    (t.run service stored).outcome =
      if Integer.isWritable (min t.query.effectiveLimit size : Nat) ∧
        Integer.isWritable q.minimumShouldMatch then .ok bytes
      else .error (.fault Json.longInteger) := by
  have hf : profile.hasFormat = true := ((render_eq_ok _ _ _).mp hshown).1
  have hvalid : Backend.indexSearch.validate t.env t.query = .ok () := by
    simp only [Backend.validate, validate, hindex, if_true]
  obtain ⟨endpoint, hrun⟩ :=
    t.run_eq_job hplain hprofile hf hsource hvalid hendpoint service stored
  rw [hrun]
  split
  next hwritable =>
    have hserved : (t.jobWith profile .indexSearch endpoint).IsServed service (hits.map Hit.record)
        (fun place => cursorBehind (hits.take place)) size :=
      isServed hhonest hnodup rfl hcompile hpos hsize hwritable.1 hwritable.2
    refine Job.run_served hserved rfl hsize hpos
      (Task.isCancelled_jobWith hplain profile _ endpoint) ?_
    rw [List.length_map, ← List.map_take, List.map_map]
    exact hshown
  next hlong =>
    obtain ⟨request, hask, hbody⟩ := ask_eq (t.jobWith profile .indexSearch endpoint) rfl hcompile
      (t.jobWith profile .indexSearch endpoint).start
    exact (Job.run_unwritten service t.query.effectiveLimit_ne_zero
      (Task.isCancelled_jobWith hplain profile _ endpoint 0) hask
      (pageAsked_start hsize hbody hlong)).1

/-! ## A server of numbered hits -/

attribute [local instance] Runtime.standard

def Hit.numbered (n : UInt64) : Hit where
  document := Tree.ofValue (numberedHit n.toNat)
  sort := [.integer n.toNat]
  isSort := list?_ofValue [.integer n.toNat]
  ne_nil := List.cons_ne_nil _ _
  inRange := by
    have hn := n.toNat_lt
    intro k hk
    rw [List.mem_singleton] at hk
    rw [hk]
    show Tagged.minInteger64 ≤ (n.toNat : Int) ∧ (n.toNat : Int) ≤ Tagged.maxInteger64
    simp only [Tagged.minInteger64, Tagged.maxInteger64, Nat.pow_eq]
    omega

/-- The numbers behind the one with some sort values. -/
def numbersBehind (numbers : List UInt64) : Option (List SortKey) → List UInt64
  | none => numbers
  | some keys => (numbers.dropWhile fun n => (Hit.numbered n).sort ≠ keys).drop 1

/-- The response with the numbers that are asked for. -/
def numberResponse (numbers : List UInt64) (demand : Demand) : Bytes :=
  numberedHits
    (((numbersBehind numbers demand.behind).take demand.size.toNat).map fun n => (n.toNat : Int))

def numberServer (numbers : List UInt64) : Service := fun _ request =>
  match request.document?.bind Demand.ofTree? with
  | some demand => .response 200 (numberResponse numbers demand)
  | none => .response 400 []

theorem map_numbersBehind (numbers : List UInt64) (behind : Option (List SortKey)) :
    (numbersBehind numbers behind).map Hit.numbered
      = hitsBehind (numbers.map Hit.numbered) behind := by
  cases behind with
  | none => rfl
  | some keys =>
    rw [numbersBehind, hitsBehind, List.dropWhile_map, List.map_drop]
    rfl

theorem holds_numberedHits (numbers : List UInt64) :
    Holds (numberedHits (numbers.map fun n => (n.toNat : Int))) (numbers.map Hit.numbered) := by
  refine ⟨_, readBytes_numberedHits 486 ?_, ?_⟩
  · intro n hn
    obtain ⟨m, -, rfl⟩ := List.mem_map.mp hn
    exact Integer.isWritable_of_lt (by have := m.toNat_lt; simpa using this)
  · show some (Tree.list (Tree.ofValues _)) = _
    rw [Tree.ofValues_eq_map, List.map_map, List.map_map, List.map_map]
    rfl

theorem isHonest_numberServer (numbers : List UInt64) :
    IsHonest (numbers.map Hit.numbered) (numberServer numbers) := by
  intro sent request body demand hbody hdemand
  refine ⟨200, numberResponse numbers demand, ?_, rfl, ?_⟩
  · simp only [numberServer, hbody, Option.bind_some, hdemand]
  · rw [← map_numbersBehind, ← List.map_take]
    exact holds_numberedHits _

/-- Everything is wanted of three hits, in pages of two. -/
def threeHits : Task where
  env := { name := .null, endpoints := ["http://es"], index := .string "logs" }
  query := { filters := [{ key := "level", operation := .oneOf, values := ["info", "warn"] }] }
  maxPageSize := some 2

theorem retrieves_three_hits :
    (threeHits.run (numberServer [1, 2, 3]) []).outcome = .ok threeShown :=
  (retrieves_hits threeHits (numberServer [1, 2, 3]) [] ([1, 2, 3].map Hit.numbered) 2
    { should := [.anyPhrase "level" ["info", "warn"]], minimumShouldMatch := 1 } {} threeShown
    ⟨rfl, rfl, rfl, rfl⟩ rfl (by decide) (by decide) rfl (by decide) rfl
    (isHonest_numberServer [1, 2, 3]) (by decide) rfl (eq_ok_of_toOption (by decide +kernel))).trans
    (if_pos ⟨Integer.isWritable_of_lt (by decide), Integer.isWritable_of_lt (by decide)⟩)

end LogQuery.IndexSearch
