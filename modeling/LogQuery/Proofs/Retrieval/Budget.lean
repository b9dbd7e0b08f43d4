import LogQuery.Proofs.Retrieval.Pages
import LogQuery.Runtime.Standard
import Mathlib.Algebra.Order.Floor.Div
/-!
# The number of requests

A retrieval goes on behind a page only if the page had as many records as it was asked for. So every
request but the last takes a whole page off the records that are still wanted, and there are at most as
many requests as pages of that size (`length_requests_runFrom_le`). No service can change that: not with
pages that are too long or too short, nor with links that lead back to where they came from.

* `IsTurn.takes_page`: what one turn takes off.
* `length_requests_le`: whole retrievals, whatever their options are.
-/
namespace LogQuery

section
variable {size rest wanted : Nat}

theorem one_le_ceilDiv (hsize : 1 ≤ size) (hwanted : wanted ≠ 0) : 1 ≤ wanted ⌈/⌉ size := by
  rw [Nat.ceilDiv_eq_add_pred_div]
  apply Nat.div_pos <;> omega

theorem ceilDiv_succ_le (hsize : 1 ≤ size) (hwanted : wanted ≠ 0)
    (h : rest = 0 ∨ rest + size ≤ wanted) : rest ⌈/⌉ size + 1 ≤ wanted ⌈/⌉ size := by
  rcases h with rfl | h
  · rw [zero_ceilDiv]
    exact one_le_ceilDiv hsize hwanted
  · rw [Nat.ceilDiv_eq_add_pred_div, Nat.ceilDiv_eq_add_pred_div]
    calc (rest + size - 1) / size + 1
        = (rest + size - 1 + size) / size := (Nat.add_div_right _ hsize).symm
      _ ≤ (wanted + size - 1) / size := by
        apply Nat.div_le_div_right
        omega

end

namespace Job

variable {job : Job} {service : Service} {p next : Progress} {request : Request} {size n : Nat}

theorem accept_remaining [Runtime] {page : Page} (h : job.accept p page = .ok next) :
    next.remaining = p.remaining - (wanted p page).length := by
  obtain ⟨shown, -, rfl⟩ := eq_ok_of_map h
  rfl

/-- **A page that others may follow was full**: either no more records are wanted, or it has taken as many
off as a page can have. -/
theorem IsTurn.takes_page [Runtime] (hsize : job.maxPageSize = size)
    (h : job.IsTurn service p (.more request next)) :
    next.remaining = 0 ∨ next.remaining + size ≤ p.remaining := by
  cases h with
  | @more _ page _ ha hr hne hs hn =>
    have hremaining := accept_remaining hs
    rw [hasNext, Bool.and_eq_true, decide_eq_true_eq, pageSize, hsize] at hn
    omega

/-- **The rest of a retrieval** sends at most as many requests as are left, and at most as many as there
are pages in the records that are still wanted. -/
theorem length_requests_runFrom_le [Runtime] (hsize : job.maxPageSize = size) (hpos : 1 ≤ size) (left : Nat)
    (p : Progress) :
    (job.runFrom service left p).requests.length ≤ min left (p.remaining ⌈/⌉ size) := by
  induction left generalizing p with
  | zero =>
    rw [runFrom_done job service p 0 (Or.inl rfl)]
    exact Nat.zero_le _
  | succ left ih =>
    by_cases hp : p.remaining = 0
    · rw [runFrom_done job service p _ (Or.inr hp)]
      exact Nat.zero_le _
    -- Even a turn without a page behind it is paid for by the records that are wanted.
    have hone : 1 ≤ p.remaining ⌈/⌉ size := one_le_ceilDiv hpos hp
    have hturn := isTurn_turn job service p
    rw [runFrom_succ job service p left hp]
    cases ht : job.turn service p with
    | refused e => exact Nat.zero_le _
    | failed request e => exact Nat.le_min.mpr ⟨Nat.succ_le_succ (Nat.zero_le left), hone⟩
    | last request next => exact Nat.le_min.mpr ⟨Nat.succ_le_succ (Nat.zero_le left), hone⟩
    | more request next =>
      rw [ht] at hturn
      have hrest := ih next
      have hpage := ceilDiv_succ_le hpos hp (hturn.takes_page hsize)
      show (job.runFrom service left next).requests.length + 1 ≤ min (left + 1) (p.remaining ⌈/⌉ size)
      omega

/-! ## The other ways to do a task -/

theorem length_requests_compose_le {use : Request → Run}
    (h : ∀ request, (use request).requests.length ≤ n) :
    (job.compose p use).requests.length ≤ n := by
  unfold compose
  split
  · exact Nat.zero_le n
  · cases job.ask p with
    | error e => exact Nat.zero_le n
    | ok request => exact h request

theorem length_requests_send_le {use : Reply → Run}
    (h : ∀ reply, (use reply).requests.length ≤ n) :
    (job.send service p request use).requests.length ≤ n + 1 := by
  unfold send
  cases pageAsked p request with
  | error e => exact Nat.zero_le _
  | ok notice => exact Nat.succ_le_succ (h _)

theorem length_requests_runRaw_le : (job.runRaw service).requests.length ≤ 1 :=
  length_requests_compose_le fun _ => length_requests_send_le fun _ => Nat.zero_le 0

theorem length_requests_runCommand_le : job.runCommand.requests.length ≤ 0 :=
  length_requests_compose_le fun _ => Nat.zero_le 0

end Job

theorem Task.source_of_settle {t : Task} {profile : Profile} {backend : Backend}
    (h : t.settle = .ok (profile, backend)) : t.env.source = .backend backend := by
  obtain ⟨profile', -, h⟩ := eq_ok_of_bind h
  split at h
  · cases h
  obtain ⟨backend', hsource, h⟩ := eq_ok_of_bind h
  cases h
  unfold Backend.ofSource at hsource
  split at hsource
  next b hb => rw [hb, Except.ok.inj hsource]
  next => cases hsource

/-- **The number of requests is bounded by the budget**, whatever a task asks for and whatever the service
replies: there are at most as many requests as pages in the records that are wanted, and never more than
`maxRequests`. -/
theorem length_requests_le [Runtime] (t : Task) (service : Service) (stored : Bytes) (size : Nat)
    (hsize : ∀ b, t.env.source = .backend b → t.maxPageSizeOf b = size) (hpos : 1 ≤ size) :
    (t.run service stored).requests.length
      ≤ min maxRequests (t.query.effectiveLimit ⌈/⌉ size) := by
  have hone : 1 ≤ t.query.effectiveLimit ⌈/⌉ size :=
    one_le_ceilDiv hpos t.query.effectiveLimit_ne_zero
  unfold Task.run
  cases hsettle : t.settle with
  | error e => exact Nat.zero_le _
  | ok settled =>
    obtain ⟨profile, backend⟩ := settled
    have hsource : t.env.source = .backend backend := Task.source_of_settle hsettle
    simp only
    split
    · exact Nat.zero_le _
    cases hjob : t.job profile backend with
    | error e => exact Nat.zero_le _
    | ok job =>
      obtain ⟨-, endpoint, -, rfl⟩ := (Task.job_eq_ok profile backend job).mp hjob
      simp only
      split
      · have hnone : (t.jobWith profile backend endpoint).runCommand.requests.length ≤ 0 :=
          Job.length_requests_runCommand_le
        omega
      split
      · have hone : ((t.jobWith profile backend endpoint).runRaw service).requests.length ≤ 1 :=
          Job.length_requests_runRaw_le
        have hmax : 1 ≤ maxRequests := by decide
        omega
      · exact Job.length_requests_runFrom_le (hsize backend hsource) hpos maxRequests _

attribute [local instance] Runtime.standard

/-- Seven records are wanted from a service whose pages of two never end. -/
theorem length_requests_le_endless :
    ({ threeOfFour with query := { limit := 7 } }.run twoPages []).requests.length = 4 ∧
    4 ≤ min maxRequests (7 ⌈/⌉ 2) := by
  have hlength :
      ({ threeOfFour with query := { limit := 7 } }.run twoPages []).requests.length = 4 := by
    decide +kernel
  have hbound := length_requests_le { threeOfFour with query := { limit := 7 } } twoPages [] 2
    (fun _ _ => rfl) (by decide)
  rw [hlength] at hbound
  exact ⟨hlength, hbound⟩

end LogQuery
