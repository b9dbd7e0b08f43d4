import LogQuery.Retrieval.Basic
/-!
# One turn of a retrieval

A retrieval is a loop: ask, receive, show, go on or end. `Job.turn` is one pass through it, without
the rest of the retrieval, and `runFrom_succ` says that a retrieval is a turn and what the turn leads
to. Everything that is said of whole retrievals is an induction over turns, so the loop itself is
opened here and nowhere else.

* `runFrom_succ`: a retrieval is a turn and what it leads to.
* `isTurn_turn`: the turns that there are, each with what led to it (`IsTurn`).
-/
namespace LogQuery

variable [Runtime]

/-- The page that a reply brings to a backend. -/
def Reply.page (r : Reply) (b : Backend) : Except Failure Page := r.body.bind (Page.read b)

theorem Reply.page_response {b : Backend} {status : Int} {response : Bytes} {tree : Json.Tree}
    {records : List TaggedRecord} {cursor : Option Value} (hs : isSuccess status = true)
    (hread : Json.Tree.readBytes false (Runtime.pageDepth Runtime.frames) response = .ok tree)
    (hrecords : b.records (Tagged.ofTree tree) = .ok records)
    (hcursor : b.cursor (Tagged.ofTree tree) = .ok cursor) :
    (Reply.response status response).page b = .ok { records, cursor } := by
  have hdecoded : Page.decodeBody response = .ok (Tagged.ofTree tree) := by
    rw [Page.decodeBody, Tagged.decodeBytes, hread]
    rfl
  have hpage : Page.ofResponse b (Tagged.ofTree tree) = .ok { records, cursor } := by
    rw [Page.ofResponse, hrecords, hcursor]
    rfl
  rw [Reply.page, Reply.body, if_pos hs]
  show Page.read b response = _
  rw [Page.read, hdecoded]
  exact hpage

/-- What comes of one turn of a retrieval. -/
inductive Turn where
  /-- No request is sent. -/
  | refused (e : Failure)
  /-- A request is sent, and the retrieval fails on its reply. -/
  | failed (request : Request) (e : Failure)
  /-- A request brings the last page. -/
  | last (request : Request) (next : Progress)
  /-- A request brings a page that others may follow. -/
  | more (request : Request) (next : Progress)

namespace Job

/-- The turn that a page leads to, once its request is sent. -/
def turnPage (job : Job) (p : Progress) (request : Request) (page : Page) : Turn :=
  if page.records = [] then .last request { p with sent := p.sent + 1 }
  else
    match job.accept p page with
    | .error e => .failed request e
    | .ok next => if job.hasNext p page then .more request next else .last request next

def turnSent (job : Job) (service : Service) (p : Progress) (request : Request) : Turn :=
  match (service p.sent request).page job.backend with
  | .error e => .failed request e
  | .ok page => job.turnPage p request page

def turn (job : Job) (service : Service) (p : Progress) : Turn :=
  if job.isCancelled p.sent then .refused (.cancelled p.sent)
  else
    match job.ask p with
    | .error e => .refused e
    | .ok request =>
      match pageAsked p request with
      | .error e => .refused e
      | .ok _ => job.turnSent service p request

/-- The notices of a page once its request is sent. -/
def pageNotices (job : Job) (p : Progress) (page : Page) : List Notice :=
  if page.records = [] then job.account (.pageEmpty (p.sent + 1))
  else
    match job.accept p page with
    | .error _ => []
    | .ok next => job.account (.pageRead next.sent (wanted p page).length next.remaining)

def turnNotices (job : Job) (service : Service) (p : Progress) : List Notice :=
  if job.isCancelled p.sent then []
  else
    job.askNotices p ++
      match job.ask p with
      | .error _ => []
      | .ok request =>
        match pageAsked p request with
        | .error _ => []
        | .ok asked =>
          job.account asked ++
            match (service p.sent request).page job.backend with
            | .error _ => []
            | .ok page => job.pageNotices p page

end Job

def Turn.conclude (goOn : Progress → Run) : Turn → Run
  | refused e => .failed e
  | failed request e => (Run.failed e).afterRequest request
  | last request next => (Job.finish next).afterRequest request
  | more request next => (goOn next).afterRequest request

omit [Runtime] in
theorem Run.afterNotices_append (a b : List Notice) (r : Run) :
    afterNotices (a ++ b) r = afterNotices a (afterNotices b r) := by
  simp [afterNotices]

namespace Job

section
variable (job : Job) (service : Service) (p : Progress)

theorem receive_eq (reply : Reply) (goOn : Progress → Run) :
    job.receive p reply goOn = match reply.page job.backend with
      | .error e => .failed e
      | .ok page => job.follow p page goOn := by
  unfold receive Reply.page
  cases reply.body <;> rfl

theorem follow_afterRequest (request : Request) (page : Page) (goOn : Progress → Run) :
    (job.follow p page goOn).afterRequest request
      = ((job.turnPage p request page).conclude goOn).afterNotices (job.pageNotices p page) := by
  unfold follow turnPage pageNotices
  by_cases h : page.records = []
  · simp only [if_pos h]; rfl
  · simp only [if_neg h]
    cases job.accept p page with
    | error e => rfl
    | ok next => cases job.hasNext p page <;> rfl

/-- **One turn.** A retrieval that still wants records is a turn and what it leads to. -/
theorem runFrom_succ (left : Nat) (h : p.remaining ≠ 0) :
    job.runFrom service (left + 1) p =
      ((job.turn service p).conclude (job.runFrom service left)).afterNotices
        (job.turnNotices service p) := by
  rw [runFrom, if_neg h]
  unfold compose turn turnNotices
  cases job.isCancelled p.sent with
  | true => rfl
  | false =>
    simp only [Bool.false_eq_true, if_false]
    cases job.ask p with
    | error e => rw [List.append_nil]; rfl
    | ok request =>
      simp only [send]
      cases pageAsked p request with
      | error e => rw [List.append_nil]; rfl
      | ok asked =>
        simp only [turnSent, receive_eq, Run.afterNotices_append]
        cases (service p.sent request).page job.backend with
        | error e => rfl
        | ok page => simp only [follow_afterRequest]

theorem runFrom_done (left : Nat) (h : left = 0 ∨ p.remaining = 0) :
    job.runFrom service left p = finish p := by
  cases left with
  | zero => rfl
  | succ left => rw [runFrom, if_pos (h.resolve_left (Nat.succ_ne_zero left))]

end

/-! ## What is known of a turn -/

variable {job : Job} {service : Service} {p : Progress}

/-- The turns that a job can take with a service at some progress, each with what led to it. -/
inductive IsTurn (job : Job) (service : Service) (p : Progress) : Turn → Prop
  | cancelled (hc : job.isCancelled p.sent = true) :
    IsTurn job service p (.refused (.cancelled p.sent))
  | unasked {e : Failure} (hc : job.isCancelled p.sent = false) (ha : job.ask p = .error e) :
    IsTurn job service p (.refused e)
  | unwritten {request : Request} {e : Failure} (hc : job.isCancelled p.sent = false)
    (ha : job.ask p = .ok request) (hw : pageAsked p request = .error e) :
    IsTurn job service p (.refused e)
  | unread {request : Request} {e : Failure} (ha : job.ask p = .ok request)
    (hr : (service p.sent request).page job.backend = .error e) :
    IsTurn job service p (.failed request e)
  | unshown {request : Request} {page : Page} {e : Failure} (ha : job.ask p = .ok request)
    (hr : (service p.sent request).page job.backend = .ok page) (hne : page.records ≠ [])
    (hs : job.accept p page = .error e) :
    IsTurn job service p (.failed request e)
  | empty {request : Request} {page : Page} (ha : job.ask p = .ok request)
    (hr : (service p.sent request).page job.backend = .ok page) (hnil : page.records = []) :
    IsTurn job service p (.last request { p with sent := p.sent + 1 })
  | final {request : Request} {page : Page} {next : Progress} (ha : job.ask p = .ok request)
    (hr : (service p.sent request).page job.backend = .ok page) (hne : page.records ≠ [])
    (hs : job.accept p page = .ok next) (hn : job.hasNext p page = false) :
    IsTurn job service p (.last request next)
  | more {request : Request} {page : Page} {next : Progress} (ha : job.ask p = .ok request)
    (hr : (service p.sent request).page job.backend = .ok page) (hne : page.records ≠ [])
    (hs : job.accept p page = .ok next) (hn : job.hasNext p page = true) :
    IsTurn job service p (.more request next)

theorem isTurn_turnPage {request : Request} {page : Page} (ha : job.ask p = .ok request)
    (hr : (service p.sent request).page job.backend = .ok page) :
    IsTurn job service p (job.turnPage p request page) := by
  unfold turnPage
  by_cases hnil : page.records = []
  · rw [if_pos hnil]
    exact .empty ha hr hnil
  · rw [if_neg hnil]
    cases hs : job.accept p page with
    | error e => exact .unshown ha hr hnil hs
    | ok next =>
      cases hn : job.hasNext p page with
      | true => exact .more ha hr hnil hs hn
      | false => exact .final ha hr hnil hs hn

theorem isTurn_turn (job : Job) (service : Service) (p : Progress) :
    IsTurn job service p (job.turn service p) := by
  unfold turn
  cases hc : job.isCancelled p.sent with
  | true => exact .cancelled hc
  | false =>
    simp only [Bool.false_eq_true, if_false]
    cases ha : job.ask p with
    | error e => exact .unasked hc ha
    | ok request =>
      simp only
      cases hw : pageAsked p request with
      | error e => exact .unwritten hc ha hw
      | ok asked =>
        simp only [turnSent]
        cases hr : (service p.sent request).page job.backend with
        | error e => exact .unread ha hr
        | ok page => exact isTurn_turnPage ha hr

theorem turn_eq_turnPage {request : Request} {asked : Notice} {page : Page}
    (hc : job.isCancelled p.sent = false) (ha : job.ask p = .ok request)
    (hw : pageAsked p request = .ok asked)
    (hr : (service p.sent request).page job.backend = .ok page) :
    job.turn service p = job.turnPage p request page := by
  simp [turn, turnSent, hc, ha, hw, hr]

end Job
end LogQuery
