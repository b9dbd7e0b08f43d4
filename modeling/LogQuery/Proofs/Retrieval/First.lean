import LogQuery.Proofs.Retrieval.Refusal
/-!
# The first request and its response

The first request of a retrieval is composed from the query alone, so the query says whether it can be sent
(`Backend.Compiles`, `ask_start`). What the response to it leads to is decided by its body, and a
retrieval that sends no other request shows the first records of that body and does nothing else
(`run_first`).
-/
namespace LogQuery

/-- A query whose filters can be put to a service, with the numbers of any size that they bring into the
body of the first request: how many alternatives have to hold, or the ends of the window. -/
inductive Backend.Compiles : Backend → Query → List Int → Prop
  | index {q : Query} {found : IndexSearch.BoolQuery}
    (h : IndexSearch.compile q.filters {} = .ok found) :
    Compiles .indexSearch q [(found.minimumShouldMatch : Int)]
  | event {q : Query} {found : EventSearch.EventQuery} (h : EventSearch.compile q.filters = .ok found) :
    Compiles .eventSearch q (found.window.toList.flatMap fun w => [w.start, w.stop])

theorem Backend.compiles_unfiltered {q : Query} (h : q.filters = []) : indexSearch.Compiles q [0] :=
  .index (show IndexSearch.compile q.filters {} = .ok {} by rw [h]; rfl)

variable [Runtime]

/-- Show the first records of a response. -/
def renderFirst (b : Backend) (profile : Profile) (limit : Nat) (body : Bytes) :
    Except Failure Bytes := do
  let document ← Page.decodeBody body
  let records ← b.records document
  render profile ((records.take limit).map TaggedRecord.plain)

omit [Runtime] in
theorem Backend.exists_cursor {b : Backend} {document : Tagged} {records : List TaggedRecord}
    (h : b.records document = .ok records) : ∃ cursor, b.cursor document = .ok cursor := by
  cases b with
  | indexSearch =>
    cases document with
    | map members =>
      obtain ⟨hits, hhits, -⟩ := eq_ok_of_map (show (IndexSearch.hits (.map members)).map _ = _ from h)
      exact ⟨_, by rw [Backend.cursor, IndexSearch.cursor, hhits]; rfl⟩
    | _ => cases h
  | eventSearch =>
    simp only [Backend.cursor, EventSearch.cursor]
    split
    · exact ⟨_, rfl⟩
    · exact ⟨_, rfl⟩

theorem Page.read_eq (b : Backend) (body : Bytes) :
    (∃ e, Page.read b body = .error e ∧ (Page.decodeBody body >>= b.records) = .error e) ∨
      ∃ page, Page.read b body = .ok page ∧ (Page.decodeBody body >>= b.records) = .ok page.records := by
  unfold Page.read
  cases Page.decodeBody body with
  | error e => exact Or.inl ⟨e, rfl, rfl⟩
  | ok document =>
    cases hrecords : b.records document with
    | error e =>
      refine Or.inl ⟨e, ?_, hrecords⟩
      simp only [bind, Except.bind, Page.ofResponse, hrecords]
    | ok records =>
      obtain ⟨cursor, hcursor⟩ := Backend.exists_cursor hrecords
      refine Or.inr ⟨⟨records, cursor⟩, ?_, hrecords⟩
      simp only [bind, Except.bind, Page.ofResponse, hrecords, hcursor]

theorem renderFirst_eq (b : Backend) (profile : Profile) (limit : Nat) (body : Bytes) :
    renderFirst b profile limit body = (Page.decodeBody body >>= b.records) >>= fun records =>
      render profile ((records.take limit).map TaggedRecord.plain) := by
  unfold renderFirst
  cases Page.decodeBody body <;> rfl

namespace Job

variable {job : Job} {service : Service} {b : Backend} {numbers : List Int}

omit [Runtime] in
/-- The first request is composed, and only its numbers can stop it from being written. -/
theorem ask_start (hb : job.backend = b) (hcompile : b.Compiles job.query numbers) :
    ∃ request v, job.ask job.start = .ok request ∧ request.body = some v ∧
      Json.refusal? v = if (job.pageSize job.start :: numbers).all Integer.isWritable then none
        else some Json.longInteger := by
  cases hcompile with
  | @index _ found h =>
    obtain ⟨request, hask, hbody⟩ := IndexSearch.ask_eq job hb h job.start
    refine ⟨request, _, hask, hbody, ?_⟩
    rw [IndexSearch.refusal?_search _ (fun v hv => by cases hv), Json.refusal?_integer,
      Json.refusal?_integer]
    simp only [IndexSearch.searchAt, List.all_cons, List.all_nil, Bool.and_true, Bool.and_eq_true]
    by_cases hsize : Integer.isWritable (job.pageSize job.start) = true <;>
      by_cases hcount : Integer.isWritable found.minimumShouldMatch = true <;> simp [hsize, hcount]
  | @event _ found h =>
    obtain ⟨request, hask, -, hbody⟩ := EventSearch.ask_first job hb h (p := job.start) rfl
    refine ⟨request, _, hask, hbody, ?_⟩
    rw [EventSearch.refusal?_body]
    obtain ⟨window, terms⟩ := found
    cases window with
    | none => simp [EventSearch.EventQuery.isWritable]
    | some w => simp [EventSearch.EventQuery.isWritable, EventSearch.Window.isWritable]

omit [Runtime] in
theorem canAsk_start (hb : job.backend = b) (hcompile : b.Compiles job.query numbers)
    (hwritable : (job.pageSize job.start :: numbers).all Integer.isWritable = true) :
    job.CanAsk job.start := by
  obtain ⟨request, v, hask, hbody, hrefusal⟩ := ask_start hb hcompile
  rw [if_pos hwritable] at hrefusal
  have hasked := pageAsked_eq job.start hbody
  rw [hrefusal] at hasked
  exact ⟨request, _, hask, hasked⟩

omit [Runtime] in
theorem unwritten_start (hb : job.backend = b) (hcompile : b.Compiles job.query numbers)
    (hlong : ¬ (job.pageSize job.start :: numbers).all Integer.isWritable = true) :
    ∃ request, job.ask job.start = .ok request ∧
      pageAsked job.start request = .error (.fault Json.longInteger) := by
  obtain ⟨request, v, hask, hbody, hrefusal⟩ := ask_start hb hcompile
  rw [if_neg hlong] at hrefusal
  have hasked := pageAsked_eq job.start hbody
  rw [hrefusal] at hasked
  exact ⟨request, hask, hasked⟩

section
variable {status : Int} {body : Bytes} {request : Request}

theorem turnSent_start (hf : job.profile.hasFormat = true) (hs : isSuccess status = true)
    (hreply : service 0 request = .response status body) :
    (∃ e, job.turnSent service job.start request = .failed request e ∧
      renderFirst job.backend job.profile job.query.effectiveLimit body = .error e) ∨
    (∃ next, job.turnSent service job.start request = .last request next ∧
      renderFirst job.backend job.profile job.query.effectiveLimit body = .ok next.shown) ∨
    (∃ page next, job.turnSent service job.start request = .more request next ∧
      Page.read job.backend body = .ok page ∧ page.records ≠ [] ∧
      job.accept job.start page = .ok next ∧ job.hasNext job.start page = true ∧
      renderFirst job.backend job.profile job.query.effectiveLimit body = .ok next.shown) := by
  have hpage : (service job.start.sent request).page job.backend = Page.read job.backend body := by
    rw [show job.start.sent = 0 from rfl, hreply, Reply.page, Reply.body, if_pos hs]
    rfl
  unfold turnSent
  rw [hpage, renderFirst_eq]
  rcases Page.read_eq job.backend body with ⟨e, hread, hrecords⟩ | ⟨page, hread, hrecords⟩
  · rw [hread, hrecords]
    exact Or.inl ⟨e, rfl, rfl⟩
  rw [hread, hrecords]
  simp only [turnPage]
  by_cases hnil : page.records = []
  · rw [if_pos hnil, hnil]
    refine Or.inr (Or.inl ⟨_, rfl, ?_⟩)
    show render job.profile ((List.take _ []).map TaggedRecord.plain) = .ok []
    rw [List.take_nil]
    exact render_nil hf
  rw [if_neg hnil]
  cases haccept : job.accept job.start page with
  | error e => exact Or.inl ⟨e, rfl, eq_error_of_map haccept⟩
  | ok next =>
    obtain ⟨shown, hshown, hnext⟩ := eq_ok_of_map haccept
    have hsame : next.shown = shown := by rw [← hnext]; rfl
    have hrender : render job.profile ((page.records.take job.query.effectiveLimit).map
        TaggedRecord.plain) = .ok next.shown := hsame ▸ hshown
    cases hmore : job.hasNext job.start page with
    | true => exact Or.inr (Or.inr ⟨page, next, rfl, rfl, hnil, haccept, hmore, hrender⟩)
    | false => exact Or.inr (Or.inl ⟨next, rfl, hrender⟩)

end

/-- **What the first response leads to.** A retrieval whose first request can be sent shows the first
records of the response and sends no other request, or it sends another one because records are still
wanted. -/
theorem run_first {status : Int} {body : Bytes} (hf : job.profile.hasFormat = true)
    (hcancel : ∀ sent, job.isCancelled sent = false) (hask : job.CanAsk job.start)
    (hs : isSuccess status = true) (hreply : ∀ request, service 0 request = .response status body) :
    ((job.run service).requests.length = 1 ∧ (job.run service).outcome
      = renderFirst job.backend job.profile job.query.effectiveLimit body) ∨
    (1 < (job.run service).requests.length ∧ ∃ page, Page.read job.backend body = .ok page ∧
      page.records.length < job.query.effectiveLimit) := by
  obtain ⟨request, asked, ha, hw⟩ := hask
  have hturn : job.turn service job.start = job.turnSent service job.start request := by
    simp only [turn, hcancel, ha, hw, Bool.false_eq_true, if_false]
  have hrun : (job.run service).outcome = ((job.turnSent service job.start request).conclude
        (job.runFrom service (maxRequests - 1))).outcome ∧
      (job.run service).requests = ((job.turnSent service job.start request).conclude
        (job.runFrom service (maxRequests - 1))).requests := by
    rw [run, show maxRequests = (maxRequests - 1) + 1 from rfl,
      runFrom_succ job service job.start (maxRequests - 1) job.query.effectiveLimit_ne_zero, hturn]
    exact ⟨rfl, rfl⟩
  rw [hrun.1, hrun.2]
  rcases turnSent_start hf hs (hreply request) with
    ⟨e, ht, hshown⟩ | ⟨next, ht, hshown⟩ | ⟨page, next, ht, hread, hne, haccept, hnext, hshown⟩
  · rw [ht, hshown]
    exact Or.inl ⟨rfl, rfl⟩
  · rw [ht, hshown]
    exact Or.inl ⟨rfl, rfl⟩
  rw [ht, hshown]
  by_cases hdone : next.remaining = 0
  · rw [Turn.conclude, runFrom_done _ _ _ _ (Or.inr hdone)]
    exact Or.inl ⟨rfl, rfl⟩
  · -- Records are still wanted, and behind a response every request can be sent.
    have hpage : (service job.start.sent request).page job.backend = .ok page := by
      rw [show job.start.sent = 0 from rfl, hreply, Reply.page, Reply.body, if_pos hs]
      exact hread
    obtain ⟨reading, hdocument, rfl⟩ := Reply.exists_reading hpage
    have hreaches : job.Reaches service [request] [reading] next :=
      Reaches.next (.start (b := job.backend)) job.query.effectiveLimit_ne_zero (Nat.succ_pos _) ha
        ⟨asked, hw⟩ hdocument hne haccept hnext
    have hpos := requests_of_canAsk service hcancel
      (hreaches.canAsk rfl hf (List.cons_ne_nil _ _)) hdone 98
    refine Or.inr ⟨Nat.succ_lt_succ hpos, reading.page, hread, ?_⟩
    obtain ⟨shown, rfl⟩ := exists_after haccept
    simp only [after, start, wanted, List.length_take] at hdone
    omega

end Job
end LogQuery
