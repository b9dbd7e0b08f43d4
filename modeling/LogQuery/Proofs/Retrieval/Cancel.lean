import LogQuery.Proofs.Retrieval.Refusal
import LogQuery.Runtime.Standard
/-!
# Cancelled retrievals

A retrieval may be cancelled once it has sent a number of requests. It looks for that in front of every
request and nowhere else, so the turns of a cancelled retrieval are those of the retrieval until that
number is reached, and then there are no more (`turn_cancelledAfter`, `turn_cancelled`). What is left to
show is that a retrieval that would go on at that place would send another request: behind a response
every request can be sent.

* `runFrom_isCut`: the rest of a retrieval, cancelled or not, from any place that an exchange leads to.
* `cancelled_run`: whole retrievals.
-/
namespace LogQuery

namespace Run

/-- A run that is another one up to some requests: the same run if no more are sent, and otherwise just
these requests and a report of how many pages have come. -/
structure IsCut (full : Run) (room pages : Nat) (cut : Run) : Prop where
  same : full.requests.length ≤ room → cut = full
  stopped : room < full.requests.length →
    cut.requests = full.requests.take room ∧ cut.outcome = .error (.cancelled pages)
  notices : cut.notices <+: full.notices

variable {full cut : Run} {room pages : Nat}

theorem isCut_self (h : full.requests.length ≤ room) : full.IsCut room pages full :=
  ⟨fun _ => rfl, fun hlt => absurd h (Nat.not_le_of_lt hlt), List.prefix_refl _⟩

theorem IsCut.afterRequest (h : full.IsCut room pages cut) (request : Request) :
    (full.afterRequest request).IsCut (room + 1) pages (cut.afterRequest request) where
  same hle := by rw [h.same (Nat.le_of_succ_le_succ hle)]
  stopped hlt := by
    obtain ⟨hrequests, houtcome⟩ := h.stopped (Nat.lt_of_succ_lt_succ hlt)
    exact ⟨congrArg (request :: ·) hrequests, houtcome⟩
  notices := h.notices

theorem IsCut.afterNotices (h : full.IsCut room pages cut) (notices : List Notice) :
    (full.afterNotices notices).IsCut room pages (cut.afterNotices notices) where
  same hle := by rw [h.same hle]
  stopped hlt := h.stopped hlt
  notices := (List.prefix_append_right_inj notices).mpr h.notices

end Run

section

variable [Runtime]

namespace Job

/-- A job that is cancelled after some requests. -/
def cancelledAfter (job : Job) (n : Nat) : Job := { job with cancelAfter := some n }

variable {job : Job} {service : Service} {n : Nat} {p : Progress}

omit [Runtime] in
theorem isCancelled_cancelledAfter (job : Job) (n sent : Nat) :
    (job.cancelledAfter n).isCancelled sent = decide (n ≤ sent) := rfl

theorem turn_cancelledAfter (service : Service) (hfree : ∀ sent, job.isCancelled sent = false)
    (h : p.sent < n) :
    (job.cancelledAfter n).turn service p = job.turn service p ∧
      (job.cancelledAfter n).turnNotices service p = job.turnNotices service p := by
  have hcancelled : (job.cancelledAfter n).isCancelled p.sent = false := by
    rw [isCancelled_cancelledAfter, decide_eq_false_iff_not]
    omega
  unfold turn turnNotices
  rw [hcancelled, hfree]
  exact ⟨rfl, rfl⟩

theorem turn_cancelled (job : Job) (service : Service) (h : n ≤ p.sent) :
    (job.cancelledAfter n).turn service p = .refused (.cancelled p.sent) ∧
      (job.cancelledAfter n).turnNotices service p = [] := by
  have hcancelled : (job.cancelledAfter n).isCancelled p.sent = true := by
    rw [isCancelled_cancelledAfter, decide_eq_true_iff]
    exact h
  unfold turn turnNotices
  rw [hcancelled]
  exact ⟨rfl, rfl⟩

/-- **The rest of a cancelled retrieval** is the rest of the retrieval, up to the number of requests. -/
theorem runFrom_isCut {b : Backend} {requests : List Request} {readings : List (Reading b)}
    (hb : job.backend = b) (hf : job.profile.hasFormat = true)
    (hfree : ∀ sent, job.isCancelled sent = false) (hn : 1 ≤ n) (left : Nat)
    (h : job.Reaches service requests readings p) (hsent : p.sent ≤ n)
    (hleft : p.sent + left = maxRequests) :
    (job.runFrom service left p).IsCut (n - p.sent) n ((job.cancelledAfter n).runFrom service left p) := by
  -- On the requests that are left, as the two runs take the same turns up to the last common one.
  induction left generalizing requests readings p with
  | zero => exact Run.isCut_self (Nat.zero_le _)
  | succ left ih =>
    by_cases hp : p.remaining = 0
    · rw [runFrom_done _ service p _ (Or.inr hp), runFrom_done _ service p _ (Or.inr hp)]
      exact Run.isCut_self (Nat.zero_le _)
    by_cases hlast : n ≤ p.sent
    · -- The number is reached. Requests have been sent, so another one can be.
      have hne : readings ≠ [] := by
        rintro rfl
        have hzero : ([] : List (Reading b)).length = p.sent := h.length_requests.2
        rw [List.length_nil] at hzero
        omega
      have hpos := requests_of_canAsk service hfree (h.canAsk hb hf hne) hp left
      obtain ⟨hturn, hnotices⟩ := turn_cancelled job service hlast
      rw [runFrom_succ (job.cancelledAfter n) service p left hp, hturn, hnotices,
        Nat.sub_eq_zero_of_le hlast, Nat.le_antisymm hsent hlast]
      exact ⟨fun hnone => by omega, fun _ => ⟨rfl, rfl⟩, List.nil_prefix⟩
    · obtain ⟨hturn, hnotices⟩ := turn_cancelledAfter service hfree (Nat.lt_of_not_le hlast)
      rw [runFrom_succ job service p left hp, runFrom_succ (job.cancelledAfter n) service p left hp,
        hturn, hnotices]
      refine Run.IsCut.afterNotices ?_ _
      have hroom : n - p.sent = (n - (p.sent + 1)) + 1 := by omega
      rw [hroom]
      have hturned := isTurn_turn job service p
      cases ht : job.turn service p with
      | refused e => exact Run.isCut_self (Nat.zero_le _)
      | failed request e => exact Run.isCut_self (Nat.succ_le_succ (Nat.zero_le _))
      | last request next => exact Run.isCut_self (Nat.succ_le_succ (Nat.zero_le _))
      | more request next =>
        have hw := exists_asked (show (job.turn service p).request? = some request by rw [ht]; rfl)
        rw [ht] at hturned
        cases hturned with
        | @more _ page _ ha hr hne hs hnext =>
          obtain ⟨reading, hdocument, rfl⟩ := Reply.exists_reading (hb ▸ hr)
          have hreaches := Reaches.next h hp (by omega) ha hw hdocument hne hs hnext
          have hsucc := accept_sent hs
          have hcut := ih hreaches (by omega) (by omega)
          rw [hsucc] at hcut
          exact hcut.afterRequest request

omit [Runtime] in
/-- A retrieval of the first response sends one request at most, and is not cancelled behind it. -/
theorem runRaw_isCut (hfree : ∀ sent, job.isCancelled sent = false) (hn : 1 ≤ n) :
    (job.runRaw service).IsCut n n ((job.cancelledAfter n).runRaw service) := by
  have hcancelled : (job.cancelledAfter n).isCancelled job.start.sent = false := by
    rw [isCancelled_cancelledAfter, decide_eq_false_iff_not]
    exact Nat.not_le_of_lt hn
  have hsame : (job.cancelledAfter n).runRaw service = job.runRaw service := by
    unfold runRaw compose
    rw [show (job.cancelledAfter n).start = job.start from rfl, hcancelled, hfree]
    rfl
  have hlength : (job.runRaw service).requests.length ≤ 1 := by
    unfold runRaw compose send
    rw [hfree]
    cases job.ask job.start with
    | error e => exact Nat.zero_le 1
    | ok request =>
      simp only [Bool.false_eq_true, if_false]
      cases pageAsked job.start request with
      | error e => exact Nat.zero_le 1
      | ok asked => exact Nat.le_refl 1
  rw [hsame]
  exact Run.isCut_self (Nat.le_trans hlength hn)

end Job

namespace Task

omit [Runtime] in
theorem settle_eq_ok_hasFormat {t : Task} {profile : Profile} {backend : Backend}
    (h : t.settle = .ok (profile, backend)) (hraw : t.options.raw = false)
    (hcommand : t.options.asCommand = false) : profile.hasFormat = true := by
  obtain ⟨profile', -, h⟩ := eq_ok_of_bind h
  rw [hraw, hcommand] at h
  cases hf : profile'.hasFormat with
  | false =>
    rw [hf] at h
    cases h
  | true =>
    rw [hf] at h
    obtain ⟨backend', -, h⟩ := eq_ok_of_bind h
    cases h
    exact hf

theorem run_isCut {t : Task} (service : Service) {n : Nat} (hn : 1 ≤ n)
    (hcommand : t.options.asCommand = false) (hstored : t.options.stored = false)
    (hfree : t.cancelAfter = none) (stored : Bytes) :
    (t.run service stored).IsCut n n ({ t with cancelAfter := some n }.run service stored) := by
  have hsettle : { t with cancelAfter := some n }.settle = t.settle := rfl
  unfold run
  rw [hsettle]
  cases hs : t.settle with
  | error e => exact Run.isCut_self (Nat.zero_le n)
  | ok settled =>
    obtain ⟨profile, backend⟩ := settled
    simp only [hstored, hcommand, Bool.false_eq_true, if_false]
    cases hjob : t.job profile backend with
    | error e =>
      have hcut : { t with cancelAfter := some n }.job profile backend = .error e := by
        rcases eq_error_of_bind hjob with hvalid | ⟨_, hvalid, hjob⟩
        · simp only [job, hvalid, bind, Except.bind]
        rcases eq_error_of_bind hjob with hendpoint | ⟨_, -, hjob⟩
        · simp only [job, hvalid, hendpoint, bind, Except.bind]
        · cases hjob
      rw [hcut]
      exact Run.isCut_self (Nat.zero_le n)
    | ok job =>
      obtain ⟨hvalid, endpoint, hendpoint, rfl⟩ := (job_eq_ok profile backend job).mp hjob
      have hcut : { t with cancelAfter := some n }.job profile backend
          = .ok ((t.jobWith profile backend endpoint).cancelledAfter n) :=
        (job_eq_ok profile backend _).mpr ⟨hvalid, endpoint, hendpoint, rfl⟩
      have hnever : ∀ sent, (t.jobWith profile backend endpoint).isCancelled sent = false := by
        intro sent
        simp only [Job.isCancelled, jobWith, hfree]
      rw [hcut]
      cases hraw : t.options.raw with
      | true => exact Job.runRaw_isCut hnever hn
      | false =>
        exact Job.runFrom_isCut rfl (settle_eq_ok_hasFormat hs hraw hcommand) hnever hn maxRequests
          (.start (b := backend)) (Nat.zero_le n) (Nat.zero_add _)

end Task

/-- **Cancellation cuts a retrieval between two pages.** Cancelled once it has sent a number of requests, a
retrieval that sends no more of them is as it was. One that sends more sends just these, and delivers
nothing: it fails with a report of how many pages have come. The operator is told no other things. -/
theorem cancelled_run (t : Task) (service : Service) (stored : Bytes) (n : Nat) (hn : 1 ≤ n)
    (hcommand : t.options.asCommand = false) (hstored : t.options.stored = false)
    (hfree : t.cancelAfter = none) :
    ((t.run service stored).requests.length ≤ n →
      { t with cancelAfter := some n }.run service stored = t.run service stored) ∧
    (n < (t.run service stored).requests.length →
      ({ t with cancelAfter := some n }.run service stored).requests
        = (t.run service stored).requests.take n ∧
      ({ t with cancelAfter := some n }.run service stored).outcome = .error (.cancelled n) ∧
      (Failure.cancelled n).message = "retrieval cancelled after " ++ Text.ofNat n ++ " page(s)") ∧
    ({ t with cancelAfter := some n }.run service stored).notices <+: (t.run service stored).notices := by
  obtain ⟨hsame, hstopped, hnotices⟩ :=
    Task.run_isCut service hn hcommand hstored hfree stored
  refine ⟨hsame, fun hlt => ?_, hnotices⟩
  obtain ⟨hrequests, houtcome⟩ := hstopped hlt
  exact ⟨hrequests, houtcome, rfl⟩

end

attribute [local instance] Runtime.standard

/-- A retrieval of two pages that is cancelled behind the first one. -/
theorem cancelled_run_first :
    (threeOfFour.run twoPages []).requests.length = 2 ∧
    ({ threeOfFour with cancelAfter := some 1 }.run twoPages []).requests
      = (threeOfFour.run twoPages []).requests.take 1 ∧
    ({ threeOfFour with cancelAfter := some 1 }.run twoPages []).outcome = .error (.cancelled 1) := by
  have hlength : (threeOfFour.run twoPages []).requests.length = 2 := by decide +kernel
  obtain ⟨-, hstopped, -⟩ := cancelled_run threeOfFour twoPages [] 1 (Nat.le_refl 1) rfl rfl rfl
  obtain ⟨hrequests, houtcome, -⟩ := hstopped (by rw [hlength]; decide)
  exact ⟨hlength, hrequests, houtcome⟩

end LogQuery
