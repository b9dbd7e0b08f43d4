import LogQuery.Proofs.Json.Written
import LogQuery.Proofs.Output.Failure
import LogQuery.Proofs.Retrieval.EventServer
import LogQuery.Proofs.Retrieval.IndexServer
import LogQuery.Proofs.Retrieval.Requests
/-!
# Requests that cannot be sent

A task may ask for what no service can be asked, and then the first request cannot be composed; or there
may be a number in it that is too long to be written. But once the first request has been sent all
others can be: they hold what the first one held, a smaller number of records, and a cursor that was
read from a response (`Reaches.canAsk`).

* `plan_eq_error`, `ask_start_eq_error`, `pageAsked_eq_error`: what can go wrong before a request is
  sent.
-/
namespace LogQuery

/-! ## Before a request is sent -/

/-- A failure to put filters to a service. -/
def Failure.IsOfQuery (e : Failure) : Prop :=
  (∃ cause, e = .unsupported cause) ∨ (∃ cause, e = .parse cause) ∨ e = .fault .missingElement

namespace IndexSearch

theorem clause_eq_error {f : Filter} {e : Failure} (h : clause f = .error e) :
    (∃ cause, e = .unsupported cause) ∨ e = .fault .missingElement := by
  unfold clause at h
  split at h <;> cases h
  · exact Or.inl ⟨_, rfl⟩
  · exact Or.inr rfl

theorem compile_eq_error {e : Failure} : ∀ {filters : List Filter} {q : BoolQuery},
    compile filters q = .error e → e.IsOfQuery
  | f :: rest, q, h => by
    rcases eq_error_of_bind h with hclause | ⟨c, -, h⟩
    · obtain ⟨e', he', rfl⟩ := eq_error_of_mapError hclause
      rcases clause_eq_error he' with ⟨cause, rfl⟩ | rfl
      · cases cause with
        | unknown => exact Or.inl ⟨_, rfl⟩
        | unknownIn => exact Or.inl ⟨_, rfl⟩
        | notInEvents => exact Or.inl ⟨_, rfl⟩
      · exact Or.inr (Or.inr rfl)
    · exact compile_eq_error h

end IndexSearch

namespace EventSearch

theorem milliseconds_eq_error {value : Text} {e : Failure} (h : milliseconds value = .error e) :
    e.IsOfQuery := by
  unfold milliseconds at h
  split at h <;> cases h
  exact Or.inr (Or.inl ⟨_, rfl⟩)

theorem add_eq_error {q : EventQuery} {f : Filter} {e : Failure} (h : q.add f = .error e) :
    e.IsOfQuery := by
  unfold EventQuery.add at h
  simp only at h
  have hmissing : (Failure.fault .missingElement).IsOfQuery := Or.inr (Or.inr rfl)
  split at h
  · cases h
  · cases h
  · cases h
  · cases h
  · rcases eq_error_of_bind h with hstart | ⟨start, -, h⟩
    · exact milliseconds_eq_error hstart
    split at h
    · rcases eq_error_of_bind h with hstop | ⟨stop, -, h⟩
      · exact milliseconds_eq_error hstop
      · cases h
    · cases h
      exact hmissing
  all_goals cases h
  · exact hmissing
  · exact hmissing
  · exact hmissing
  · exact hmissing
  · exact hmissing
  · exact Or.inl ⟨_, rfl⟩

theorem compileFrom_eq_error {e : Failure} : ∀ {filters : List Filter} {q : EventQuery},
    compileFrom q filters = .error e → e.IsOfQuery
  | f :: rest, q, h => by
    rcases eq_error_of_bind h with hadd | ⟨next, -, h⟩
    · exact add_eq_error hadd
    · exact compileFrom_eq_error h

end EventSearch

namespace Task

theorem plan_eq_error {t : Task} {e : Failure} (h : t.plan = .error e) :
    (∃ name, e = .format name) ∨ ∃ cause, e = .config cause := by
  rcases eq_error_of_bind h with hsettle | ⟨⟨profile, backend⟩, -, h⟩
  · rcases eq_error_of_bind hsettle with hprofile | ⟨profile, -, h⟩
    · unfold profileFor at hprofile
      split at hprofile
      · cases hprofile
      · obtain ⟨cause, -, hcause⟩ := eq_error_of_mapError (eq_error_of_map hprofile)
        exact Or.inr ⟨_, hcause.symm⟩
    split at h
    · cases h
      exact Or.inl ⟨_, rfl⟩
    rcases eq_error_of_bind h with hsource | ⟨backend, -, h⟩
    · unfold Backend.ofSource at hsource
      split at hsource <;> cases hsource
      exact Or.inr ⟨_, rfl⟩
    · cases h
  · rcases eq_error_of_bind h with hvalidate | ⟨_, -, h⟩
    · cases backend with
      | indexSearch =>
        simp only [Backend.validate, IndexSearch.validate] at hvalidate
        split at hvalidate <;> cases hvalidate
        exact Or.inr ⟨_, rfl⟩
      | eventSearch => cases hvalidate
    rcases eq_error_of_bind h with hendpoint | ⟨endpoint, -, h⟩
    · obtain ⟨cause, -, rfl⟩ := eq_error_of_mapError hendpoint
      exact Or.inr ⟨cause, rfl⟩
    · cases h

end Task

namespace Job

variable {job : Job} {p : Progress} {request : Request} {e : Failure}

theorem ask_start_eq_error (h : job.ask job.start = .error e) : e.IsOfQuery := by
  unfold ask Backend.request at h
  split at h
  · rcases eq_error_of_bind h with hpayload | ⟨_, -, h⟩
    · rcases eq_error_of_bind (eq_error_of_map hpayload) with hcompile | ⟨_, -, h⟩
      · exact IndexSearch.compile_eq_error hcompile
      · cases h
    · cases h
  · have hfirst : EventSearch.request job.env job.endpoint job.query none (job.pageSize job.start)
        = .error e := h
    unfold EventSearch.request at hfirst
    simp only [IndexSearch.usable, Option.filter_none] at hfirst
    rcases eq_error_of_bind hfirst with hpayload | ⟨_, -, h⟩
    · rcases eq_error_of_bind hpayload with hcompile | ⟨_, -, h⟩
      · exact EventSearch.compileFrom_eq_error hcompile
      · cases h
    · cases h

theorem pageAsked_eq_error (h : pageAsked p request = .error e) :
    ∃ f, e = .fault f ∧ Json.IsRefusal f := by
  have hbody := eq_error_of_map h
  unfold accountBody at hbody
  split at hbody
  · obtain ⟨f, hf, rfl⟩ := eq_error_of_mapError hbody
    exact ⟨f, rfl, Json.encode_eq_error hf⟩
  · cases hbody

end Job

/-! ## What was read -/

variable [Runtime]

theorem Reply.document_eq_ok {r : Reply} {document : Tagged} (h : r.document = .ok document) :
    ∃ status body, r = .response status body ∧ isSuccess status = true ∧
      Page.decodeBody body = .ok document := by
  cases r with
  | failed reason => cases h
  | interrupted => cases h
  | response status body =>
    unfold Reply.document at h
    by_cases hs : isSuccess status = true
    · rw [Reply.body, if_pos hs] at h
      exact ⟨status, body, rfl, hs, h⟩
    · rw [Reply.body, if_neg hs] at h
      cases h

theorem Reply.isRead_document {r : Reply} {document : Tagged} (h : r.document = .ok document) :
    document.IsRead := by
  obtain ⟨status, body, -, -, hdocument⟩ := Reply.document_eq_ok h
  obtain ⟨tree, -, hread⟩ := eq_ok_of_map (eq_ok_of_mapError hdocument)
  exact ⟨tree, hread.symm⟩

namespace IndexSearch

omit [Runtime] in
theorem inherited_hits {P : Tagged → Prop} (hP : Tagged.Inherited P) {document : Tagged}
    {found : List Tagged} (h : P document) (hhits : hits document = .ok found) {hit : Tagged}
    (hmem : hit ∈ found) : P hit := by
  unfold hits at hhits
  split at hhits
  next =>
    cases hhits
    cases hmem
  next =>
    cases hhits
    cases hmem
  next items hfound =>
    cases hhits
    obtain ⟨outer, houter, hinner⟩ := Option.bind_eq_some_iff.mp hfound
    exact hP.item (hP.member (hP.member h houter) hinner) hmem
  next => cases hhits

omit [Runtime] in
theorem refusal?_cursor {reading : Reading .indexSearch} (h : reading.document.IsRead) {v : Value}
    (hv : reading.page.cursor = some v) : Json.refusal? v = none := by
  obtain ⟨found, hit, sort, hhits, hlast, hsort, -, rfl, -⟩ := exists_lastHit hv
  have hhit := inherited_hits Tagged.inherited_isRead h hhits (List.mem_of_getLast? hlast)
  exact (hhit.of_member hsort).refusal?_plain

end IndexSearch

/-! ## Behind a response -/

namespace Job

variable {job : Job} {service : Service} {b : Backend} {requests : List Request}
  {readings : List (Reading b)} {p : Progress}

theorem Reaches.isRead (h : job.Reaches service requests readings p) {reading : Reading b}
    (hmem : reading ∈ readings) : reading.document.IsRead := by
  obtain ⟨i, hi⟩ := List.mem_iff_getElem?.mp hmem
  obtain ⟨request, -, hdocument⟩ := h.answered i reading hi
  exact Reply.isRead_document hdocument

omit [Runtime] in
theorem pageAsked_of_body_none {request : Request} (p : Progress) (h : request.body = none) :
    pageAsked p request = .ok (.pageAsked (p.sent + 1) request.method request.url []) := by
  simp only [pageAsked, accountBody, h]
  rfl

omit [Runtime] in
theorem refusal?_pageSize (hremaining : p.remaining ≤ job.query.effectiveLimit)
    (h : Json.refusal? (.integer (job.pageSize job.start)) = none) :
    Json.refusal? (.integer (job.pageSize p)) = none := by
  have hstart : job.pageSize job.start = min (job.query.effectiveLimit : Int) job.maxPageSize := rfl
  have hpage : job.pageSize p = min (p.remaining : Int) job.maxPageSize := rfl
  have hwritable : Integer.isWritable (job.pageSize job.start) = true := by
    rw [Json.refusal?_integer] at h
    split at h
    next hw => exact hw
    next => cases h
  rw [Json.refusal?_integer, Integer.isWritable_mono hwritable (by omega), if_pos rfl]

end Job

omit [Runtime] in
theorem IndexSearch.canAsk_iff {job : Job} {found : BoolQuery} (hb : job.backend = .indexSearch)
    (hcompile : compile job.query.filters {} = .ok found) (p : Progress) :
    job.CanAsk p ↔ Json.refusal? (searchAt job found p).toValue = none := by
  obtain ⟨request, hask, hbody⟩ := ask_eq job hb hcompile p
  constructor
  · rintro ⟨_, asked, hask', hasked⟩
    obtain rfl := Except.ok.inj (hask.symm.trans hask')
    rw [Job.pageAsked_eq p hbody] at hasked
    split at hasked
    next => cases hasked
    next hnone => exact hnone
  · intro hnone
    have hasked := Job.pageAsked_eq p hbody
    rw [hnone] at hasked
    exact ⟨request, _, hask, hasked⟩

theorem IndexSearch.canAsk {job : Job} {service : Service} {requests : List Request}
    {readings : List (Reading .indexSearch)} {p : Progress} (hb : job.backend = .indexSearch)
    (hf : job.profile.hasFormat = true) (h : job.Reaches service requests readings p)
    (hne : readings ≠ []) : job.CanAsk p := by
  obtain ⟨first, -, hfirst, -⟩ := h.canAsk_start hne
  have hsearch : IndexSearch.request job.env job.endpoint job.query none (job.pageSize job.start)
      = .ok first := by
    rw [Job.ask, hb] at hfirst
    exact hfirst
  obtain ⟨found, hcompile, -⟩ := request_eq_ok hsearch
  have hstart := (canAsk_iff hb hcompile job.start).mp (h.canAsk_start hne)
  rw [canAsk_iff hb hcompile]
  -- The first search is refused for its size or for its number of conditions. No later search has a
  -- greater size, and the cursor that it has besides was read from a response.
  rw [refusal?_search _ (fun v hv => by cases hv), Option.or_eq_none_iff] at hstart
  obtain ⟨hsize, hcount⟩ := hstart
  have hafter : ∀ v, (searchAt job found p).searchAfter = some v → Json.refusal? v = none := by
    intro v hv
    obtain ⟨last, v', hmem, hlast, hcursor⟩ := h.exists_cursor hne
    have husable : usable p.cursor = some v := hv
    rw [hcursor, usable, Option.filter_eq_some_iff] at husable
    obtain ⟨rfl⟩ := husable.1
    exact refusal?_cursor (h.isRead (List.mem_of_getLast? hmem)) hlast
  have hpage : Json.refusal? (.integer (searchAt job found p).size) = none := by
    refine Job.refusal?_pageSize ?_ hsize
    have hremaining := (h.hasRead hf).remaining
    omega
  rw [refusal?_search _ hafter, hpage, Option.none_or]
  exact hcount

theorem EventSearch.canAsk {job : Job} {service : Service} {requests : List Request}
    {readings : List (Reading .eventSearch)} {p : Progress} (hb : job.backend = .eventSearch)
    (h : job.Reaches service requests readings p) (hne : readings ≠ []) : job.CanAsk p := by
  obtain ⟨last, v, -, hlast, hcursor⟩ := h.exists_cursor hne
  obtain ⟨url, -, hurl, rfl⟩ := exists_link hlast
  obtain ⟨request, hrequest, -, -, hbody⟩ := ask_next job hb hurl hcursor
  exact ⟨request, _, hrequest, Job.pageAsked_of_body_none p hbody⟩

/-- **Behind a response every request can be sent.** -/
theorem Job.Reaches.canAsk {job : Job} {service : Service} {b : Backend} {requests : List Request}
    {readings : List (Reading b)} {p : Progress} (hb : job.backend = b)
    (hf : job.profile.hasFormat = true) (h : job.Reaches service requests readings p)
    (hne : readings ≠ []) : job.CanAsk p := by
  cases b with
  | indexSearch => exact IndexSearch.canAsk hb hf h hne
  | eventSearch => exact EventSearch.canAsk hb h hne

theorem Job.requests_of_canAsk {job : Job} (service : Service) {p : Progress}
    (hcancel : ∀ sent, job.isCancelled sent = false) (hask : job.CanAsk p) (hp : p.remaining ≠ 0)
    (left : Nat) : 0 < (job.runFrom service (left + 1) p).requests.length := by
  obtain ⟨request, asked, ha, hw⟩ := hask
  have hturn : job.turn service p = job.turnSent service p request := by
    simp only [turn, hcancel, ha, hw, Bool.false_eq_true, if_false]
  have hrequest : (job.turnSent service p request).request? = some request := request?_turnSent request
  rw [runFrom_succ job service p left hp, hturn]
  cases ht : job.turnSent service p request with
  | refused e =>
    rw [ht] at hrequest
    cases hrequest
  | failed | last | more => exact Nat.succ_pos _

theorem Job.Reaches.eq_start_of_refused {job : Job} {service : Service} {b : Backend}
    {requests : List Request} {readings : List (Reading b)} {p : Progress} {e : Failure}
    (hb : job.backend = b) (hf : job.profile.hasFormat = true)
    (hcancel : ∀ sent, job.isCancelled sent = false)
    (h : job.Reaches service requests readings p) (ht : job.IsTurn service p (.refused e)) :
    readings = [] := by
  by_contra hne
  obtain ⟨request, asked, hask, hasked⟩ := h.canAsk hb hf hne
  cases ht with
  | cancelled hc =>
    rw [hcancel] at hc
    cases hc
  | unasked _ ha =>
    rw [hask] at ha
    cases ha
  | unwritten _ ha hw =>
    rw [hask] at ha
    cases ha
    rw [hasked] at hw
    cases hw

/-- **Why a retrieval fails before its first request.** -/
theorem Job.refused_start {job : Job} {service : Service} {e : Failure}
    (hcancel : ∀ sent, job.isCancelled sent = false)
    (ht : job.IsTurn service job.start (.refused e)) :
    e.IsOfQuery ∨ ∃ f, e = .fault f ∧ Json.IsRefusal f := by
  cases ht with
  | cancelled hc =>
    rw [hcancel] at hc
    cases hc
  | unasked _ ha => exact Or.inl (ask_start_eq_error ha)
  | unwritten _ _ hw => exact Or.inr (pageAsked_eq_error hw)

end LogQuery
