import LogQuery.Retrieval.Basic
/-!
# Plain tasks

A plain task asks for pages and shows them: its options ask for nothing else, and nobody cancels it.
Such a task is its job (`run_plain`), and `plan_eq_ok` says when there is a job and which one it is.
-/
namespace LogQuery

theorem Query.effectiveLimit_ne_zero (q : Query) : q.effectiveLimit ≠ 0 := by
  unfold Query.effectiveLimit
  split
  · omega
  · decide

namespace Task

/-- A task that asks for pages and shows them. -/
structure IsPlain (t : Task) : Prop where
  raw : t.options.raw = false
  asCommand : t.options.asCommand = false
  stored : t.options.stored = false
  cancelAfter : t.cancelAfter = none

/-- The most records that a task asks for at once from a backend. -/
def maxPageSizeOf (t : Task) (b : Backend) : Int := t.maxPageSize.getD b.maxPageSize

def plan (t : Task) : Except Failure Job := do
  let (profile, backend) ← t.settle
  t.job profile backend

/-- The job that a task has once everything it needs is known. -/
def jobWith (t : Task) (profile : Profile) (backend : Backend) (endpoint : Text) : Job :=
  { backend, env := t.env, endpoint, query := t.query, profile,
    maxPageSize := t.maxPageSizeOf backend, debug := t.options.debug, cancelAfter := t.cancelAfter }

theorem run_plain [Runtime] {t : Task} (h : t.IsPlain) (service : Service) (stored : Bytes) :
    t.run service stored = match t.plan with
      | .error e => .failed e
      | .ok job => job.run service := by
  unfold run plan
  cases t.settle with
  | error e => rfl
  | ok pb =>
    obtain ⟨profile, backend⟩ := pb
    simp only [h.stored, h.asCommand, h.raw, Bool.false_eq_true, if_false]
    rfl

theorem settle_eq_ok {t : Task} (h : t.IsPlain) (profile : Profile) (backend : Backend) :
    t.settle = .ok (profile, backend) ↔
      t.profileFor = .ok profile ∧ profile.hasFormat = true ∧ t.env.source = .backend backend := by
  unfold settle
  cases t.profileFor with
  | error e => simp [bind, Except.bind]
  | ok profile' =>
    simp only [bind, Except.bind, h.raw, h.asCommand, Bool.or_self, Bool.not_false, Bool.true_and,
      Except.ok.injEq]
    cases hf : profile'.hasFormat with
    | false =>
      simp only [Bool.not_false, if_true, reduceCtorEq, false_iff, not_and]
      rintro rfl ht
      rw [hf] at ht; cases ht
    | true =>
      cases hs : t.env.source with
      | backend b =>
        simp only [Backend.ofSource, Bool.not_true, Bool.false_eq_true, if_false, Except.ok.injEq,
          Prod.mk.injEq, Source.backend.injEq]
        constructor
        · rintro ⟨rfl, rfl⟩; exact ⟨rfl, hf, rfl⟩
        · rintro ⟨rfl, -, rfl⟩; exact ⟨rfl, rfl⟩
      | other name => simp [Backend.ofSource]

theorem job_eq_ok {t : Task} (profile : Profile) (backend : Backend) (job : Job) :
    t.job profile backend = .ok job ↔ backend.validate t.env t.query = .ok () ∧
      ∃ endpoint, t.env.endpoint t.pick = .ok endpoint ∧ job = t.jobWith profile backend endpoint := by
  unfold Task.job jobWith maxPageSizeOf
  cases backend.validate t.env t.query with
  | error e => simp [bind, Except.bind]
  | ok u =>
    cases t.env.endpoint t.pick with
    | error e =>
      constructor
      · intro h
        cases h
      · rintro ⟨-, endpoint, h, -⟩
        cases h
    | ok endpoint =>
      constructor
      · intro h
        cases h
        exact ⟨rfl, endpoint, rfl, rfl⟩
      · rintro ⟨-, endpoint, h, rfl⟩
        cases h
        rfl

/-- A plain task has a job if its profile, its service and its endpoint exist and its query can be
asked there. -/
theorem plan_eq_ok {t : Task} (h : t.IsPlain) (job : Job) :
    t.plan = .ok job ↔ ∃ profile backend endpoint,
      t.profileFor = .ok profile ∧ profile.hasFormat = true ∧ t.env.source = .backend backend ∧
      backend.validate t.env t.query = .ok () ∧ t.env.endpoint t.pick = .ok endpoint ∧
      job = t.jobWith profile backend endpoint := by
  constructor
  · intro hp
    unfold plan at hp
    cases hs : t.settle with
    | error e => rw [hs] at hp; cases hp
    | ok pb =>
      obtain ⟨profile, backend⟩ := pb
      rw [hs] at hp
      obtain ⟨hprofile, hf, hsource⟩ := (settle_eq_ok h profile backend).mp hs
      obtain ⟨hv, endpoint, he, hjob⟩ := (job_eq_ok profile backend job).mp hp
      exact ⟨profile, backend, endpoint, hprofile, hf, hsource, hv, he, hjob⟩
  · rintro ⟨profile, backend, endpoint, hprofile, hf, hsource, hv, he, hjob⟩
    unfold plan
    rw [(settle_eq_ok h profile backend).mpr ⟨hprofile, hf, hsource⟩]
    exact (job_eq_ok profile backend job).mpr ⟨hv, endpoint, he, hjob⟩

theorem exists_endpoint {env : Env} (h : env.endpoints ≠ []) (pick : Nat) :
    ∃ endpoint, env.endpoint pick = .ok endpoint := by
  have hlt : pick % env.endpoints.length < env.endpoints.length :=
    Nat.mod_lt _ (List.length_pos_iff.mpr h)
  exact ⟨env.endpoints[pick % env.endpoints.length], by
    rw [Env.endpoint, List.getElem?_eq_getElem hlt]⟩

theorem run_eq_job [Runtime] {t : Task} (h : t.IsPlain) {profile : Profile} {backend : Backend}
    (hprofile : t.profileFor = .ok profile) (hf : profile.hasFormat = true)
    (hsource : t.env.source = .backend backend) (hvalid : backend.validate t.env t.query = .ok ())
    (hendpoint : t.env.endpoints ≠ []) (service : Service) (stored : Bytes) :
    ∃ endpoint, t.run service stored = (t.jobWith profile backend endpoint).run service := by
  obtain ⟨endpoint, he⟩ := exists_endpoint hendpoint t.pick
  refine ⟨endpoint, ?_⟩
  rw [run_plain h, (plan_eq_ok h _).mpr
    ⟨profile, backend, endpoint, hprofile, hf, hsource, hvalid, he, rfl⟩]

theorem isCancelled_jobWith {t : Task} (h : t.IsPlain) (profile : Profile) (backend : Backend)
    (endpoint : Text) (sent : Nat) : (t.jobWith profile backend endpoint).isCancelled sent = false := by
  simp only [Job.isCancelled, jobWith, h.cancelAfter]

end Task
end LogQuery
