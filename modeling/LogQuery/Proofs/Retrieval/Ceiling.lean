import LogQuery.Proofs.Retrieval.Refusal
import LogQuery.Runtime.Standard
/-!
# The warning about too many requests

A retrieval that delivers something leaves its loop in one of three ways (`Job.Exit`): nothing more is
wanted, the requests are used up, or a page comes that is the last one whatever is allowed. Only in the
second way does it matter how many requests are allowed. The warning, however, is given for what the
counters say after the loop, and they say the same when the last request that is allowed brings a last
page.

* `Reaches.runFrom_eq`: what a retrieval does with any number of requests allowed is what it does behind
  each place that it reaches.
* `Exit.ended`: the three ways, each with the pages that were read and with what more requests would have
  changed.
* `ceiling_notices`: when the warning is given, and when it tells the truth.
-/
namespace LogQuery

namespace Notice

/-- A notice that there have been too many requests. -/
def isCeiling : Notice → Bool
  | ceilingReached _ _ => true
  | _ => false

theorem isCeiling_iff (n : Notice) :
    n.isCeiling = true ↔ ("stopped after " : Text) <+: n.message := by
  have hhead : ∀ {c : CodePoint} {rest : Text}, c ≠ .scalar 's' →
      ¬ ("stopped after " : Text) <+: c :: rest := by
    rintro c rest hc ⟨later, h⟩
    exact hc (List.cons.inj h).1.symm
  cases n with
  | ceilingReached requests remaining =>
    refine ⟨fun _ => ?_, fun _ => rfl⟩
    simp only [message, List.append_assoc]
    exact List.prefix_append _ _
  | orderIgnored field => exact ⟨nofun, fun h => absurd h (hhead (c := .scalar 'd') (by decide))⟩
  | pageAsked page method url body =>
    exact ⟨nofun, fun h => absurd h (hhead (c := .scalar 'p') (by decide))⟩
  | pageEmpty page => exact ⟨nofun, fun h => absurd h (hhead (c := .scalar 'p') (by decide))⟩
  | pageRead page records remaining =>
    exact ⟨nofun, fun h => absurd h (hhead (c := .scalar 'p') (by decide))⟩

end Notice

namespace Page

/-- The number of requests that are allowed stopped a retrieval: its last page used them up, records are
still wanted, and the page ends no retrieval. -/
structure Stopped (q : Query) (maxPageSize : Int) (before : List Page) (last : Page) : Prop where
  usedUp : before.length + 1 = maxRequests
  wanted : (allRecords (before ++ [last])).length < q.effectiveLimit
  goesOn : last.GoesOn q maxPageSize before

end Page

/-- A run in which the operator was told that there have been too many requests. -/
def Run.Warned (r : Run) : Prop := ∃ notice ∈ r.notices, notice.isCeiling = true

theorem Run.warned_iff (r : Run) : r.Warned ↔ r.notices.filter Notice.isCeiling ≠ [] := by
  simp only [Warned, ne_eq, List.filter_eq_nil_iff, not_forall, Bool.not_eq_true, Bool.not_eq_false,
    exists_prop]

def Run.behind (requests : List Request) (notices : List Notice) (r : Run) : Run :=
  { r with requests := requests ++ r.requests, notices := notices ++ r.notices }

theorem Run.behind_behind (a b : List Request) (m n : List Notice) (r : Run) :
    (r.behind b n).behind a m = r.behind (a ++ b) (m ++ n) := by
  simp only [behind, List.append_assoc]

section

variable [Runtime]

theorem Reply.page_of_document {r : Reply} {b : Backend} {reading : Reading b}
    (h : r.document = .ok reading.document) : r.page b = .ok reading.page := by
  obtain ⟨body, hbody, hdocument⟩ := eq_ok_of_bind h
  rw [Reply.page, hbody]
  show Page.read b body = _
  rw [Page.read, hdocument]
  exact reading.isPage

namespace Job

variable {job : Job} {service : Service} {b : Backend} {requests : List Request}
  {readings : List (Reading b)} {p final : Progress} {page : Page}

/-! ## Turns give no warning -/

omit [Runtime] in
theorem filter_account {notice : Notice} (h : notice.isCeiling = false) :
    (job.account notice).filter Notice.isCeiling = [] := by
  unfold account
  split <;> simp [h]

omit [Runtime] in
theorem filter_askNotices (job : Job) (p : Progress) :
    (job.askNotices p).filter Notice.isCeiling = [] := by
  unfold askNotices Backend.notices EventSearch.notices
  split
  · rfl
  · split
    · rfl
    · split <;> rfl

theorem filter_pageNotices (job : Job) (p : Progress) (page : Page) :
    (job.pageNotices p page).filter Notice.isCeiling = [] := by
  unfold pageNotices
  split
  · exact filter_account rfl
  · split
    · rfl
    · exact filter_account rfl

/-- **One turn** gives no warning about too many requests. -/
theorem filter_turnNotices (job : Job) (service : Service) (p : Progress) :
    (job.turnNotices service p).filter Notice.isCeiling = [] := by
  unfold turnNotices
  split
  · rfl
  rw [List.filter_append, filter_askNotices, List.nil_append]
  split
  · rfl
  split
  · rfl
  next asked hasked =>
    obtain ⟨body, -, rfl⟩ := eq_ok_of_map hasked
    rw [List.filter_append, filter_account rfl, List.nil_append]
    split
    · rfl
    · exact filter_pageNotices job p _

omit [Runtime] in
theorem filter_finish (p : Progress) :
    (finish p).notices.filter Notice.isCeiling = (finish p).notices := by
  unfold finish
  simp only [Run.afterNotices, Run.ended, List.append_nil]
  split <;> rfl

/-! ## Places that a retrieval reaches -/

/-- A retrieval with some number of requests allowed. -/
def runAllowing (job : Job) (service : Service) (allowed : Nat) : Run :=
  job.runFrom service allowed job.start

theorem Reaches.sent_le (h : job.Reaches service requests readings p) : p.sent ≤ maxRequests := by
  cases h with
  | start => exact Nat.zero_le _
  | next _ _ hsent _ _ _ _ hs _ =>
    rw [accept_sent hs]
    exact hsent

/-- **However many requests are allowed**, a retrieval that gets to a place does there what is done from
that place on. -/
theorem Reaches.runFrom_eq (hb : job.backend = b) (hfree : ∀ sent, job.isCancelled sent = false)
    (h : job.Reaches service requests readings p) :
    ∃ notices, notices.filter Notice.isCeiling = [] ∧ ∀ left,
      job.runAllowing service (p.sent + left)
        = (job.runFrom service left p).behind requests notices := by
  induction h with
  | start =>
    refine ⟨[], rfl, fun left => ?_⟩
    rw [show job.start.sent + left = left from Nat.zero_add left]
    rfl
  | @next requests readings p next request reading h hp _ ha hw hr hne hs hn ih =>
    obtain ⟨asked, hw⟩ := hw
    obtain ⟨notices, hnone, hrun⟩ := ih
    have hpage : (service p.sent request).page job.backend = .ok reading.page := by
      rw [hb]
      exact Reply.page_of_document hr
    have hturn : job.turn service p = .more request next := by
      rw [turn_eq_turnPage (hfree p.sent) ha hw hpage, turnPage, if_neg hne, hs]
      simp only [hn, if_true]
    refine ⟨notices ++ job.turnNotices service p, ?_, fun left => ?_⟩
    · rw [List.filter_append, hnone, filter_turnNotices]
      rfl
    · rw [accept_sent hs, Nat.add_assoc, Nat.add_comm 1 left, hrun,
        runFrom_succ job service p left hp, hturn, ← Run.behind_behind]
      rfl

theorem Answers.concat {sent : Nat} {request : Request} {pages : List Page}
    (h : job.Answers service sent requests pages)
    (hr : (service (sent + requests.length) request).page job.backend = .ok page) :
    job.Answers service sent (requests ++ [request]) (pages ++ [page]) := by
  unfold Answers at h ⊢
  rw [List.mapIdx_concat, List.map_append, h, hr]
  rfl

theorem Reaches.answers (hb : job.backend = b) (h : job.Reaches service requests readings p) :
    job.Answers service 0 requests (Reading.pages readings) := by
  induction h with
  | start => rfl
  | @next requests readings p _ request reading h _ _ _ _ hr _ _ _ ih =>
    rw [Reading.pages, List.map_append]
    refine ih.concat ?_
    rw [Nat.zero_add, h.length_requests.1, hb]
    exact Reply.page_of_document hr

theorem Reaches.exists_last (h : job.Reaches service requests readings p)
    (hf : job.profile.hasFormat = true) (hne : readings ≠ []) :
    ∃ before last, Reading.pages readings = before ++ [last] ∧
      last.GoesOn job.query job.maxPageSize before := by
  cases h with
  | start => exact absurd rfl hne
  | @next _ readings _ _ _ reading h hp _ _ _ _ hrecords _ hn =>
    exact ⟨Reading.pages readings, reading.page, List.map_append,
      (h.goesOn_iff hf hp).mpr ⟨hrecords, hn⟩⟩

/-! ## The three ways out of the loop -/

/-- How a retrieval that delivers something ends at a place, and with which progress: nothing more is
wanted, its requests are used up, or the next page is the last one. -/
inductive Exit (job : Job) (service : Service) (p : Progress) : Progress → Prop
  | enough (hdone : p.remaining = 0) : Exit job service p p
  | usedUp (hp : p.remaining ≠ 0) (hsent : p.sent = maxRequests) : Exit job service p p
  | last {request : Request} {next : Progress} (hp : p.remaining ≠ 0) (hsent : p.sent < maxRequests)
    (ht : job.turn service p = .last request next) : Exit job service p next

/-- Every retrieval that delivers something reaches a place where it ends in one of the three ways. -/
theorem exists_exit {bytes : Bytes} (hb : job.backend = b) (left : Nat)
    (h : job.Reaches service requests readings p) (hleft : p.sent + left = maxRequests)
    (hok : (job.runFrom service left p).outcome = .ok bytes) :
    ∃ (requests : List Request) (readings : List (Reading b)) (q final : Progress),
      job.Reaches service requests readings q ∧ job.Exit service q final := by
  induction left generalizing requests readings p with
  | zero =>
    by_cases hp : p.remaining = 0
    · exact ⟨requests, readings, p, p, h, .enough hp⟩
    · exact ⟨requests, readings, p, p, h, .usedUp hp hleft⟩
  | succ left ih =>
    by_cases hp : p.remaining = 0
    · exact ⟨requests, readings, p, p, h, .enough hp⟩
    have hsent : p.sent < maxRequests := by omega
    rw [runFrom_succ job service p left hp] at hok
    have hturn := isTurn_turn job service p
    cases ht : job.turn service p with
    | refused e => rw [ht] at hok; cases hok
    | failed request e => rw [ht] at hok; cases hok
    | last request next => exact ⟨requests, readings, p, next, h, .last hp hsent ht⟩
    | more request next =>
      have hw := exists_asked (show (job.turn service p).request? = some request by rw [ht]; rfl)
      rw [ht] at hturn hok
      cases hturn with
      | @more _ page _ ha hr hne hs hn =>
        obtain ⟨reading, hdocument, rfl⟩ := Reply.exists_reading (hb ▸ hr)
        exact ih (.next h hp hsent ha hw hdocument hne hs hn) (by rw [accept_sent hs]; omega) hok

/-- What a retrieval that ended in some progress has done: the pages that it read, and the warning. If it
was stopped, with one more request allowed it would send more requests; if not, it would be the same with
any number more. -/
structure Ended (job : Job) (service : Service) (before : List Page) (last : Page) (final : Progress) :
    Prop where
  answers : job.Answers service 0 (job.run service).requests (before ++ [last])
  hasRead : job.HasRead (before ++ [last]) final
  sent_le : final.sent ≤ maxRequests
  notices : (job.run service).notices.filter Notice.isCeiling = (finish final).notices
  stopped : last.Stopped job.query job.maxPageSize before →
    maxRequests < (job.runAllowing service (maxRequests + 1)).requests.length
  unstopped : ¬ last.Stopped job.query job.maxPageSize before →
    ∀ more, job.runAllowing service (maxRequests + more) = job.run service

theorem ended_of_behind {before : List Page} {last : Page} {notices : List Notice}
    (hanswers : job.Answers service 0 requests (before ++ [last]))
    (hread : job.HasRead (before ++ [last]) final) (hsent : final.sent ≤ maxRequests)
    (hnone : notices.filter Notice.isCeiling = [])
    (hrun : job.run service = (finish final).behind requests notices)
    (hstopped : last.Stopped job.query job.maxPageSize before →
      maxRequests < (job.runAllowing service (maxRequests + 1)).requests.length)
    (hunstopped : ¬ last.Stopped job.query job.maxPageSize before →
      ∀ more, job.runAllowing service (maxRequests + more) = job.run service) :
    job.Ended service before last final := by
  have hrequests : (job.run service).requests = requests := by
    rw [hrun]
    exact List.append_nil requests
  refine ⟨?_, hread, hsent, ?_, hstopped, hunstopped⟩
  · rw [hrequests]
    exact hanswers
  · rw [hrun, Run.behind, List.filter_append, hnone, filter_finish, List.nil_append]

theorem HasRead.remaining_ne_zero_iff {pages : List Page} (h : job.HasRead pages p) :
    p.remaining ≠ 0 ↔ (Page.allRecords pages).length < job.query.effectiveLimit := by
  have hremaining := h.remaining
  omega

/-- The last turn leads to a progress behind one more page, and the page ends the retrieval. -/
theorem Reaches.last_page (hb : job.backend = b) (hf : job.profile.hasFormat = true)
    (h : job.Reaches service requests readings p) (hp : p.remaining ≠ 0) {request : Request}
    (ht : job.turn service p = .last request final) :
    ∃ page, job.Answers service 0 (requests ++ [request]) (Reading.pages readings ++ [page]) ∧
      job.HasRead (Reading.pages readings ++ [page]) final ∧ final.sent = p.sent + 1 ∧
      ¬ page.GoesOn job.query job.maxPageSize (Reading.pages readings) := by
  have hanswers := h.answers hb
  have hplace : (0 : Nat) + requests.length = p.sent := by rw [Nat.zero_add, h.length_requests.1]
  have hread := h.hasRead hf
  have hturn := isTurn_turn job service p
  rw [ht] at hturn
  cases hturn with
  | @empty _ page _ hr hnil =>
    refine ⟨page, hanswers.concat (hplace ▸ hr), hread.empty hnil, rfl, fun hgoes => hgoes.ne_nil hnil⟩
  | @final _ page _ _ hr _ hs hn =>
    refine ⟨page, hanswers.concat (hplace ▸ hr), hread.accept hs, accept_sent hs, fun hgoes => ?_⟩
    rw [((h.goesOn_iff hf hp).mp hgoes).2] at hn
    cases hn

/-- What is done at a place counts for the whole retrieval, however many requests are allowed besides. -/
theorem Reaches.exists_left (hb : job.backend = b) (hfree : ∀ sent, job.isCancelled sent = false)
    (h : job.Reaches service requests readings p) :
    ∃ left notices, p.sent + left = maxRequests ∧ notices.filter Notice.isCeiling = [] ∧
      ∀ more, job.runAllowing service (maxRequests + more)
        = (job.runFrom service (left + more) p).behind requests notices := by
  obtain ⟨left, hleft⟩ := Nat.exists_eq_add_of_le h.sent_le
  obtain ⟨notices, hnone, hrun⟩ := h.runFrom_eq hb hfree
  exact ⟨left, notices, hleft.symm, hnone, fun more => by rw [hleft, Nat.add_assoc, hrun]⟩

/-- **The three ways out.** Only where the requests are used up does it matter how many are allowed. -/
theorem Exit.ended (hb : job.backend = b) (hf : job.profile.hasFormat = true)
    (hfree : ∀ sent, job.isCancelled sent = false) (h : job.Reaches service requests readings p)
    (hexit : job.Exit service p final) :
    ∃ before last, job.Ended service before last final := by
  obtain ⟨left, notices, hleft, hnone, hwhole⟩ := h.exists_left hb hfree
  obtain ⟨hrequests, hreadings⟩ := h.length_requests
  have hread := h.hasRead hf
  have hanswers := h.answers hb
  cases hexit with
  | enough hdone =>
    have hne : readings ≠ [] := by
      intro hnil
      rw [h.eq_start hnil] at hdone
      exact job.query.effectiveLimit_ne_zero hdone
    obtain ⟨before, last, hpages, -⟩ := h.exists_last hf hne
    rw [hpages] at hread hanswers
    have hsame : ∀ more, job.runAllowing service (maxRequests + more)
        = (finish p).behind requests notices := by
      intro more
      rw [hwhole, runFrom_done job service p _ (Or.inr hdone)]
    refine ⟨before, last, ended_of_behind hanswers hread h.sent_le hnone (hsame 0) (fun hstopped => ?_)
      fun _ more => (hsame more).trans (hsame 0).symm⟩
    exact absurd hdone (hread.remaining_ne_zero_iff.mpr hstopped.wanted)
  | usedUp hp hsent =>
    have hne : readings ≠ [] := by
      rintro rfl
      rw [hsent] at hreadings
      cases hreadings
    obtain ⟨before, last, hpages, hgoes⟩ := h.exists_last hf hne
    have hlength := congrArg List.length hpages
    rw [Reading.pages, List.length_map, List.length_append, List.length_singleton] at hlength
    rw [hpages] at hread hanswers
    have hstopped : last.Stopped job.query job.maxPageSize before :=
      ⟨by omega, hread.remaining_ne_zero_iff.mp hp, hgoes⟩
    obtain rfl : left = 0 := by omega
    refine ⟨before, last, ended_of_behind hanswers hread h.sent_le hnone (hwhole 0) (fun _ => ?_)
      fun hnot => absurd hstopped hnot⟩
    -- Behind a response another request can always be sent.
    have hnext := requests_of_canAsk service hfree (h.canAsk hb hf hne) hp 0
    rw [hwhole, Run.behind, List.length_append]
    omega
  | @last request _ hp hsent ht =>
    obtain ⟨page, hanswered, hfinal, hnext, hends⟩ := h.last_page hb hf hp ht
    obtain ⟨m, rfl⟩ := Nat.exists_eq_succ_of_ne_zero (show left ≠ 0 by omega)
    have hquiet : (notices ++ job.turnNotices service p).filter Notice.isCeiling = [] := by
      rw [List.filter_append, hnone, filter_turnNotices]
      rfl
    have hsame : ∀ more, job.runAllowing service (maxRequests + more) = (finish final).behind
        (requests ++ [request]) (notices ++ job.turnNotices service p) := by
      intro more
      rw [hwhole, Nat.succ_add, runFrom_succ job service p _ hp, ht, ← Run.behind_behind]
      rfl
    exact ⟨Reading.pages readings, page, ended_of_behind hanswered hfinal (by omega) hquiet (hsame 0)
      (fun hstopped => absurd hstopped.goesOn hends)
      fun _ more => (hsame more).trans (hsame 0).symm⟩

/-- **The end of a retrieval** that delivers something. -/
theorem run_ended {bytes : Bytes} (hf : job.profile.hasFormat = true)
    (hfree : ∀ sent, job.isCancelled sent = false) (hok : (job.run service).outcome = .ok bytes) :
    ∃ before last final, job.Ended service before last final := by
  obtain ⟨requests, readings, p, final, h, hexit⟩ :=
    exists_exit rfl maxRequests (.start (b := job.backend)) (Nat.zero_add _) hok
  obtain ⟨before, last, hended⟩ := hexit.ended rfl hf hfree h
  exact ⟨before, last, final, hended⟩

section
variable {before : List Page} {last : Page}

theorem Ended.length_requests (h : job.Ended service before last final) :
    (job.run service).requests.length = before.length + 1 := by
  have hlength := congrArg List.length h.answers
  rwa [List.length_mapIdx, List.length_map, List.length_append, List.length_singleton] at hlength

/-- The warning is given for the number of requests and for the records that are still wanted. -/
theorem Ended.filter_notices (h : job.Ended service before last final) :
    (job.run service).notices.filter Notice.isCeiling
      = if before.length + 1 = maxRequests ∧
          (Page.allRecords (before ++ [last])).length < job.query.effectiveLimit then
          [.ceilingReached maxRequests
            (job.query.effectiveLimit - (Page.allRecords (before ++ [last])).length)]
        else [] := by
  have hsent := h.hasRead.sent
  have hremaining := h.hasRead.remaining
  have hle := h.sent_le
  rw [List.length_append, List.length_singleton] at hsent
  rw [h.notices, finish]
  by_cases hwarned : 0 < final.remaining ∧ maxRequests ≤ final.sent
  · rw [if_pos hwarned, if_pos (by omega), ← hremaining, show final.sent = maxRequests by omega]
    rfl
  · rw [if_neg hwarned, if_neg (by omega)]
    rfl

theorem Ended.stopped_iff (h : job.Ended service before last final) :
    last.Stopped job.query job.maxPageSize before ↔
      maxRequests < (job.runAllowing service (maxRequests + 1)).requests.length := by
  refine ⟨h.stopped, fun hmore => ?_⟩
  by_contra hnot
  have hsent := h.hasRead.sent
  have hle := h.sent_le
  rw [h.unstopped hnot 1, h.length_requests] at hmore
  rw [List.length_append, List.length_singleton] at hsent
  omega

end

end Job

namespace Task

/-- A task with some number of requests allowed. -/
def runAllowing (t : Task) (service : Service) (allowed : Nat) : Run :=
  match t.plan with
  | .error e => .failed e
  | .ok job => job.runAllowing service allowed

theorem exists_ended {t : Task} {service : Service} {stored bytes : Bytes} (hplain : t.IsPlain)
    (h : (t.run service stored).outcome = .ok bytes) :
    ∃ job before last final, t.plan = .ok job ∧ t.run service stored = job.run service ∧
      t.env.source = .backend job.backend ∧ job.query = t.query ∧
      job.maxPageSize = t.maxPageSizeOf job.backend ∧ job.Ended service before last final := by
  rw [run_plain hplain] at h ⊢
  cases hplan : t.plan with
  | error e => rw [hplan] at h; cases h
  | ok job =>
    rw [hplan] at h
    obtain ⟨profile, backend, endpoint, -, hf, hsource, -, -, rfl⟩ := (plan_eq_ok hplain job).mp hplan
    obtain ⟨before, last, final, hended⟩ :=
      Job.run_ended hf (isCancelled_jobWith hplain profile backend endpoint) h
    exact ⟨_, before, last, final, rfl, rfl, hsource, rfl, rfl, hended⟩

end Task

/-- **When the warning is given.** If a plain retrieval delivers anything, then it warns exactly if it
sent as many requests as are allowed and records are still wanted, and it says how many. It was stopped
by that number exactly if with one more request allowed it would send more; otherwise any number more
would have changed nothing. So the warning tells whether the retrieval was stopped, except where the last
request that is allowed brought a page that ends the retrieval and records are still wanted: then it is
given all the same. -/
theorem ceiling_notices (t : Task) (service : Service) (stored bytes : Bytes) (hplain : t.IsPlain)
    (h : (t.run service stored).outcome = .ok bytes) :
    ∃ backend before last,
      t.env.source = .backend backend ∧
      ((t.run service stored).requests.mapIdx fun i request => (service i request).page backend)
        = (before ++ [last]).map .ok ∧
      (t.run service stored).notices.filter Notice.isCeiling
        = (if before.length + 1 = maxRequests ∧
            (Page.allRecords (before ++ [last])).length < t.query.effectiveLimit then
            [.ceilingReached maxRequests
              (t.query.effectiveLimit - (Page.allRecords (before ++ [last])).length)]
          else []) ∧
      (last.Stopped t.query (t.maxPageSizeOf backend) before ↔
        maxRequests < (t.runAllowing service (maxRequests + 1)).requests.length) ∧
      (¬ last.Stopped t.query (t.maxPageSizeOf backend) before →
        ∀ more, t.runAllowing service (maxRequests + more) = t.run service stored) ∧
      (((t.run service stored).Warned ↔ last.Stopped t.query (t.maxPageSizeOf backend) before) ↔
        (before.length + 1 = maxRequests →
          (Page.allRecords (before ++ [last])).length < t.query.effectiveLimit →
          last.GoesOn t.query (t.maxPageSizeOf backend) before)) := by
  obtain ⟨job, before, last, final, hplan, hrun, hsource, hquery, hsize, hended⟩ :=
    t.exists_ended hplain h
  have hallowing : ∀ allowed, t.runAllowing service allowed = job.runAllowing service allowed := by
    intro allowed
    rw [Task.runAllowing, hplan]
  have hanswers := hended.answers
  have hfilter := hended.filter_notices
  have hstopped := hended.stopped_iff
  have hunstopped := hended.unstopped
  simp only [Job.Answers, Nat.zero_add] at hanswers
  simp only [hquery, hsize] at hfilter hstopped hunstopped
  simp only [hallowing, hrun]
  refine ⟨job.backend, before, last, hsource, hanswers, hfilter, hstopped, hunstopped, ?_⟩
  rw [Run.warned_iff, hfilter]
  constructor
  · intro hiff husedUp hwanted
    refine (hiff.mp ?_).goesOn
    rw [if_pos ⟨husedUp, hwanted⟩]
    exact List.cons_ne_nil _ _
  · intro hgoes
    constructor
    · intro hwarned
      obtain ⟨husedUp, hwanted⟩ := of_not_not fun hnot => hwarned (if_neg hnot)
      exact ⟨husedUp, hwanted, hgoes husedUp hwanted⟩
    · intro hstop
      rw [if_pos ⟨hstop.usedUp, hstop.wanted⟩]
      exact List.cons_ne_nil _ _

end

attribute [local instance] Runtime.standard

/-- One record more than all requests together can bring, on pages of one record. -/
def oneByOne : Task where
  env := { name := .null, endpoints := ["http://es"], index := .string "logs" }
  query := { limit := maxRequests + 1 }
  maxPageSize := some 1

/-- A service that answers some requests with a hit each, and all others with none. -/
def oneHitUntil (n : Nat) : Service := fun sent _ =>
  .response 200 (IndexSearch.numberedHits (if sent < n then [1] else []))

/-- What is shown of the hits of a service. -/
def shownUntil (n : Nat) : Bytes := (oneByOne.run (oneHitUntil n) []).outcome.toOption.getD []

theorem oneByOne_outcome : (oneByOne.run (oneHitUntil 101) []).outcome = .ok (shownUntil 101) :=
  eq_ok_of_toOption (by decide +kernel)

/-- A retrieval that is stopped one record too early. -/
theorem ceiling_notices_stopped :
    (oneByOne.run (oneHitUntil 101) []).outcome = .ok (shownUntil 101) ∧
    ∃ before last, Page.Stopped oneByOne.query 1 before last ∧
      (oneByOne.run (oneHitUntil 101) []).Warned := by
  obtain ⟨backend, before, last, hsource, -, hfilter, hstopped, -, -⟩ :=
    ceiling_notices oneByOne (oneHitUntil 101) [] (shownUntil 101) ⟨rfl, rfl, rfl, rfl⟩ oneByOne_outcome
  cases hsource
  have hstop := hstopped.mpr (by decide +kernel)
  refine ⟨oneByOne_outcome, before, last, hstop, ?_⟩
  rw [Run.warned_iff, hfilter, if_pos ⟨hstop.usedUp, hstop.wanted⟩]
  exact List.cons_ne_nil _ _

def hitPage : Page where
  records := [[("n", .integer 1)]]
  cursor := some (.list [.integer 1])

/-- A page without hits. -/
def emptyPage : Page where
  records := []
  cursor := none

theorem page_oneHitUntil (n sent : Nat) (request : Request) :
    (oneHitUntil n sent request).page .indexSearch
      = .ok (if sent < n then hitPage else emptyPage) := by
  have hone : ∀ m ∈ [(1 : Int)], Integer.isWritable m = true := by
    rintro m (_ | ⟨_, ⟨⟩⟩)
    exact Integer.isWritable_of_lt (by decide)
  unfold oneHitUntil
  split
  · exact Reply.page_response rfl (IndexSearch.readBytes_numberedHits 486 hone) rfl rfl
  · exact Reply.page_response rfl (IndexSearch.readBytes_numberedHits 486 nofun) rfl rfl

/-- A service that has ninety-nine records says so on the last page that is allowed. The warning is given,
though more requests would have brought nothing. -/
theorem warned_unstopped :
    oneByOne.IsPlain ∧ (oneByOne.run (oneHitUntil 99) []).outcome = .ok (shownUntil 99) ∧
    ((oneByOne.run (oneHitUntil 99) []).requests.mapIdx fun i request =>
      (oneHitUntil 99 i request).page .indexSearch)
      = (List.replicate 99 hitPage ++ [emptyPage]).map .ok ∧
    (oneByOne.run (oneHitUntil 99) []).notices = [.ceilingReached 100 2] ∧
    ¬ ((oneByOne.run (oneHitUntil 99) []).Warned ↔
      emptyPage.Stopped oneByOne.query 1 (List.replicate 99 hitPage)) := by
  obtain ⟨hoption, hlength, hnotices⟩ :
      (oneByOne.run (oneHitUntil 99) []).outcome.toOption = some (shownUntil 99) ∧
        (oneByOne.run (oneHitUntil 99) []).requests.length = 100 ∧
        (oneByOne.run (oneHitUntil 99) []).notices = [.ceilingReached 100 2] := by
    decide +kernel
  refine ⟨⟨rfl, rfl, rfl, rfl⟩, eq_ok_of_toOption hoption, ?_, hnotices, fun hiff => ?_⟩
  · refine List.ext_getElem (by rw [List.length_mapIdx, hlength]; rfl) fun i hi _ => ?_
    rw [List.length_mapIdx, hlength] at hi
    simp only [List.getElem_mapIdx, page_oneHitUntil, List.getElem_map, List.getElem_append,
      List.length_replicate, List.getElem_replicate, List.getElem_singleton]
    split <;> rfl
  · have hwarned : (oneByOne.run (oneHitUntil 99) []).Warned :=
      ⟨.ceilingReached 100 2, by rw [hnotices]; exact List.mem_singleton_self _, rfl⟩
    exact (hiff.mp hwarned).goesOn.ne_nil rfl

end LogQuery
