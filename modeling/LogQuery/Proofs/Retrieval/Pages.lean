import LogQuery.Proofs.Output.Render
import LogQuery.Proofs.Retrieval.Task
import LogQuery.Proofs.Retrieval.Turn
import LogQuery.Proofs.Search.IndexBody
import LogQuery.Proofs.Steps
import LogQuery.Runtime.Standard
import Mathlib.Order.Bounds.Defs
/-!
# What a retrieval delivers

A retrieval that delivers anything has read pages from the first one on. `Job.HasRead` is what its
progress says of the pages read so far: how many there were, how many records are still wanted, and
that the records read, cut to the number wanted, have been shown. Every page keeps it
(`HasRead.accept`, `HasRead.empty`), so it holds at the end, where it says what is delivered.

When the end comes is a matter of the pages alone (`Page.Ends`); that the loop, which looks at its own
counters, agrees with it is `HasRead.ends_iff`.

* `run_pages`: from any progress on, the pages that are read and what is delivered.
* `delivered_eq_take`: a retrieval delivers the first records of the pages that were read, as many as
  were wanted, and stops at the first page that can be the last one.
-/
namespace LogQuery

section

variable [Runtime]

namespace Page

def allRecords (pages : List Page) : List TaggedRecord := pages.flatMap records

omit [Runtime] in
theorem allRecords_concat (pages : List Page) (page : Page) :
    allRecords (pages ++ [page]) = allRecords pages ++ page.records := by
  simp [allRecords]

/-- A page behind others can be the last one of a retrieval: it has no records, there are enough
records now, it is smaller than it was asked to be, it does not say how to go on, or no more requests
are allowed. -/
def Ends (wanted : Nat) (maxPageSize : Int) (before : List Page) (page : Page) : Prop :=
  page.records = [] ∨
  wanted ≤ (allRecords (before ++ [page])).length ∨
  (page.records.length : Int) < min ((wanted : Int) - (allRecords before).length) maxPageSize ∨
  page.cursor = none ∨
  before.length + 1 = maxRequests

/-- The page at a place, counted from one, can be the last one. -/
def EndAt (wanted : Nat) (maxPageSize : Int) (pages : List Page) (place : Nat) : Prop :=
  ∃ before page after, pages = before ++ page :: after ∧ before.length + 1 = place ∧
    page.Ends wanted maxPageSize before

end Page

namespace Job

variable {job : Job} {service : Service} {pages : List Page} {page : Page} {p next : Progress}

/-- What a progress says of the pages that have been read. -/
structure HasRead (job : Job) (pages : List Page) (p : Progress) : Prop where
  sent : p.sent = pages.length
  remaining : p.remaining = job.query.effectiveLimit - (Page.allRecords pages).length
  shown : render job.profile (((Page.allRecords pages).take job.query.effectiveLimit).map
    TaggedRecord.plain) = .ok p.shown

theorem HasRead.start (hf : job.profile.hasFormat = true) : job.HasRead [] job.start :=
  ⟨rfl, rfl, by simpa [Page.allRecords, Job.start] using render_nil hf⟩

theorem HasRead.accept (h : job.HasRead pages p) (hs : job.accept p page = .ok next) :
    job.HasRead (pages ++ [page]) next := by
  unfold Job.accept wanted at hs
  rw [h.remaining] at hs
  simp only [Except.map] at hs
  split at hs
  · cases hs
  rename_i shown hshown
  cases hs
  refine ⟨by simp [h.sent], ?_, ?_⟩
  · simp only [Page.allRecords_concat, List.length_append, List.length_take]
    omega
  · rw [Page.allRecords_concat, List.take_append, List.map_append, render_append]
    exact ⟨p.shown, shown, h.shown, hshown, rfl⟩

theorem HasRead.empty (h : job.HasRead pages p) (hnil : page.records = []) :
    job.HasRead (pages ++ [page]) { p with sent := p.sent + 1 } := by
  have hsame : Page.allRecords (pages ++ [page]) = Page.allRecords pages := by
    simp [Page.allRecords_concat, hnil]
  exact ⟨by simp [h.sent], by rw [hsame]; exact h.remaining, by rw [hsame]; exact h.shown⟩

theorem HasRead.ends_iff (h : job.HasRead pages p) (hp : p.remaining ≠ 0) :
    page.Ends job.query.effectiveLimit job.maxPageSize pages ↔
      page.records = [] ∨ p.remaining ≤ page.records.length ∨ job.hasNext p page = false ∨
        p.sent + 1 = maxRequests := by
  have hr := h.remaining
  have hpos := Nat.pos_of_ne_zero hp
  unfold Page.Ends hasNext pageSize wanted
  rw [Page.allRecords_concat, List.length_append, ← h.sent]
  by_cases hlong : p.remaining ≤ page.records.length
  · constructor
    · intro _; exact Or.inr (Or.inl hlong)
    · intro _; exact Or.inr (Or.inl (by omega))
  · rw [List.take_of_length_le (by omega)]
    have hsize : ((job.query.effectiveLimit : Int) - (Page.allRecords pages).length) = p.remaining := by
      omega
    have henough :
        ¬ job.query.effectiveLimit ≤ (Page.allRecords pages).length + page.records.length := by
      omega
    rw [hsize]
    simp only [henough, hlong, false_or, Bool.and_eq_false_iff, decide_eq_false_iff_not, Int.not_le,
      Option.isSome_eq_false_iff, Option.isNone_iff_eq_none, or_assoc]

/-- The pages that the replies to some requests bring, the first of them being sent after `sent`
others. -/
def Answers (job : Job) (service : Service) (sent : Nat) (requests : List Request) (pages : List Page) :
    Prop :=
  (requests.mapIdx fun i request => (service (sent + i) request).page job.backend) = pages.map .ok

theorem Answers.cons {sent : Nat} {request : Request} {requests : List Request}
    (hr : (service sent request).page job.backend = .ok page)
    (h : job.Answers service (sent + 1) requests pages) :
    job.Answers service sent (request :: requests) (page :: pages) := by
  unfold Answers at h ⊢
  rw [List.mapIdx_cons, List.map_cons, ← h, Nat.add_zero, hr]
  simp [Nat.add_assoc, Nat.add_comm 1]

/-- What a run that delivers `bytes` behind some pages has read from then on: pages of which exactly
the last can be the last one. -/
structure Delivers (job : Job) (service : Service) (before : List Page) (r : Run) (bytes : Bytes)
    (pages : List Page) : Prop where
  answers : job.Answers service before.length r.requests pages
  shown : ∃ final, job.HasRead (before ++ pages) final ∧ final.shown = bytes
  last : ∃ init page, pages = init ++ [page] ∧
    page.Ends job.query.effectiveLimit job.maxPageSize (before ++ init)
  others : ∀ init page rest, pages = init ++ page :: rest → rest ≠ [] →
    ¬ page.Ends job.query.effectiveLimit job.maxPageSize (before ++ init)

theorem Delivers.single {request : Request} {bytes : Bytes} {r : Run} {notices : List Notice}
    (h : job.HasRead pages p) (hr : (service p.sent request).page job.backend = .ok page)
    (hnext : job.HasRead (pages ++ [page]) next)
    (hends : page.Ends job.query.effectiveLimit job.maxPageSize pages)
    (hrun : r = ((finish next).afterRequest request).afterNotices notices)
    (hb : r.outcome = .ok bytes) : job.Delivers service pages r bytes [page] := by
  subst hrun
  cases hb
  refine ⟨Answers.cons (h.sent ▸ hr) rfl, ⟨next, hnext, rfl⟩, ⟨[], page, rfl, by simpa using hends⟩, ?_⟩
  intro init x rest heq hrest
  cases init with
  | nil => exact absurd (List.cons.inj heq).2.symm hrest
  | cons a init => simp at heq

theorem Delivers.cons {request : Request} {bytes : Bytes} {r later : Run} {notices : List Notice}
    {rest : List Page} (h : job.HasRead pages p)
    (hr : (service p.sent request).page job.backend = .ok page)
    (hgoes : ¬ page.Ends job.query.effectiveLimit job.maxPageSize pages)
    (hrun : r = (later.afterRequest request).afterNotices notices)
    (hd : job.Delivers service (pages ++ [page]) later bytes rest) :
    job.Delivers service pages r bytes (page :: rest) := by
  subst hrun
  obtain ⟨hanswers, hshown, ⟨init, x, hx, hxe⟩, hothers⟩ := hd
  refine ⟨Answers.cons (h.sent ▸ hr) (by simpa using hanswers), by simpa using hshown,
    ⟨page :: init, x, by simp [hx], by simpa using hxe⟩, ?_⟩
  intro init' y rest' heq hrest'
  cases init' with
  | nil =>
    cases heq
    simpa using hgoes
  | cons a init' =>
    obtain ⟨rfl, heq'⟩ := List.cons.inj heq
    simpa using hothers init' y rest' heq' hrest'

/-- **The pages of a run.** A retrieval that still wants records and has a request left, and that
delivers something in the end, delivers the pages that it reads. -/
theorem run_pages {bytes : Bytes} (left : Nat) {pages : List Page} {p : Progress}
    (h : job.HasRead pages p) (hp : p.remaining ≠ 0) (hleft : pages.length + left + 1 = maxRequests)
    (hb : (job.runFrom service (left + 1) p).outcome = .ok bytes) :
    ∃ later, job.Delivers service pages (job.runFrom service (left + 1) p) bytes later := by
  induction left using Nat.strongRecOn generalizing pages p with
  | ind left ih =>
  have hrun := runFrom_succ job service p left hp
  have hturn := isTurn_turn job service p
  cases ht : job.turn service p with
  | refused e => rw [hrun, ht] at hb; cases hb
  | failed request e => rw [hrun, ht] at hb; cases hb
  | last request next =>
    rw [ht] at hrun hturn
    cases hturn with
    | @empty _ page ha hr hnil =>
      exact ⟨[page], .single h hr (h.empty hnil) (Or.inl hnil) hrun hb⟩
    | @final _ page _ ha hr hne hs hn =>
      have hends := (h.ends_iff hp).mpr (Or.inr (Or.inr (Or.inl hn)))
      exact ⟨[page], .single h hr (h.accept hs) hends hrun hb⟩
  | more request next =>
    rw [ht] at hrun hturn
    cases hturn with
    | @more _ page _ ha hr hne hs hn =>
      have hnext := h.accept hs
      have hsent := h.sent
      have hremaining : next.remaining = p.remaining - page.records.length := by
        rw [hnext.remaining, h.remaining, Page.allRecords_concat, List.length_append]; omega
      by_cases hdone : left = 0 ∨ next.remaining = 0
      · -- The loop would go on, but it is out of requests or has all that was wanted.
        have hends : page.Ends job.query.effectiveLimit job.maxPageSize pages := by
          refine (h.ends_iff hp).mpr ?_
          omega
        rw [Turn.conclude, runFrom_done job service next left hdone] at hrun
        exact ⟨[page], .single h hr hnext hends hrun hb⟩
      · obtain ⟨hleft0, hmore⟩ := not_or.mp hdone
        obtain ⟨m, rfl⟩ := Nat.exists_eq_succ_of_ne_zero hleft0
        have hgoes : ¬ page.Ends job.query.effectiveLimit job.maxPageSize pages := by
          rw [h.ends_iff hp]
          simp only [hne, hn, false_or, Bool.true_eq_false]
          omega
        have hb' : (job.runFrom service (m + 1) next).outcome = .ok bytes := by
          rw [hrun] at hb; exact hb
        obtain ⟨rest, hd⟩ := ih m (Nat.lt_succ_self m) hnext hmore
          (by rw [List.length_append, List.length_singleton]; omega) hb'
        exact ⟨page :: rest, .cons h hr hgoes hrun hd⟩

theorem Delivers.isLeast {r : Run} {bytes : Bytes} (h : job.Delivers service [] r bytes pages) :
    IsLeast {place | Page.EndAt job.query.effectiveLimit job.maxPageSize pages place}
      pages.length := by
  obtain ⟨init, page, rfl, hends⟩ := h.last
  refine ⟨⟨init, page, [], rfl, by simp, hends⟩, ?_⟩
  rintro place ⟨before, page', after, heq, rfl, hends'⟩
  cases after with
  | nil =>
    rw [heq]
    simp
  | cons a after => exact absurd hends' (h.others before page' (a :: after) heq (by simp))

theorem Delivers.uncut {r : Run} {bytes : Bytes} (h : job.Delivers service [] r bytes pages) :
    (Page.allRecords pages.dropLast).length < job.query.effectiveLimit := by
  obtain ⟨init, page, rfl, -⟩ := h.last
  rw [List.dropLast_concat]
  rcases List.eq_nil_or_concat' init with rfl | ⟨init', page', rfl⟩
  · exact Nat.pos_of_ne_zero job.query.effectiveLimit_ne_zero
  · have hgoes := h.others init' page' [page] (by simp) (by simp)
    exact Nat.lt_of_not_le fun hle => hgoes (Or.inr (Or.inl hle))

end Job

/-- **What is delivered.** If a plain retrieval delivers anything, then every request that it sent
brought a page, and what it delivers is the rendering of the first `wanted` records of these pages in
their order. No page but the last one was cut. The number of requests is the least place of a page
that can be the last one. -/
theorem delivered_eq_take (t : Task) (service : Service) (stored bytes : Bytes) (hplain : t.IsPlain)
    (h : (t.run service stored).outcome = .ok bytes) :
    ∃ profile backend pages,
      t.profileFor = .ok profile ∧ t.env.source = .backend backend ∧
      ((t.run service stored).requests.mapIdx fun i request => (service i request).page backend)
        = pages.map .ok ∧
      render profile (((Page.allRecords pages).take t.query.effectiveLimit).map TaggedRecord.plain)
        = .ok bytes ∧
      (Page.allRecords pages.dropLast).length < t.query.effectiveLimit ∧
      IsLeast {place | Page.EndAt t.query.effectiveLimit (t.maxPageSizeOf backend) pages place}
        (t.run service stored).requests.length := by
  rw [Task.run_plain hplain] at h ⊢
  cases hplan : t.plan with
  | error e => rw [hplan] at h; cases h
  | ok job =>
    simp only [hplan] at h ⊢
    obtain ⟨profile, backend, endpoint, hprofile, hf, hsource, -, -, rfl⟩ :=
      (Task.plan_eq_ok hplain job).mp hplan
    obtain ⟨pages, hd⟩ : ∃ pages, (t.jobWith profile backend endpoint).Delivers service []
        ((t.jobWith profile backend endpoint).run service) bytes pages :=
      Job.run_pages (maxRequests - 1) (.start hf) t.query.effectiveLimit_ne_zero rfl h
    obtain ⟨final, hfinal, rfl⟩ := hd.shown
    have hanswers := hd.answers
    simp only [Job.Answers, List.length_nil, Nat.zero_add] at hanswers
    have hlength := congrArg List.length hanswers
    rw [List.length_mapIdx, List.length_map] at hlength
    refine ⟨profile, backend, pages, hprofile, hsource, hanswers, hfinal.shown, hd.uncut, ?_⟩
    rw [hlength]
    exact hd.isLeast

end

/-! ## A retrieval of two pages -/

attribute [local instance] Runtime.standard

/-- Three of the four records on two pages are wanted. -/
def threeOfFour : Task where
  env := { name := .null, endpoints := ["http://es"], index := .string "logs" }
  query := { limit := 3 }
  maxPageSize := some 2

/-- Two pages, the second of which is larger than it was asked to be. -/
def twoPages : Service := fun sent _ =>
  .response 200 (IndexSearch.numberedHits (if sent = 0 then [1, 2] else [3, 4]))

/-- Three numbered records as they are shown. -/
def threeShown : Bytes :=
  ((render {} ([1, 2, 3].map fun n => [(.string "n", .integer n)])).toOption).getD []

theorem threeOfFour_outcome : (threeOfFour.run twoPages []).outcome = .ok threeShown :=
  eq_ok_of_toOption (by decide +kernel)

theorem delivered_three : (threeOfFour.run twoPages []).outcome = .ok threeShown ∧
    ∃ profile backend pages,
      threeOfFour.profileFor = .ok profile ∧ threeOfFour.env.source = .backend backend ∧
      ((threeOfFour.run twoPages []).requests.mapIdx fun i request =>
        (twoPages i request).page backend) = pages.map .ok ∧
      render profile (((Page.allRecords pages).take threeOfFour.query.effectiveLimit).map
        TaggedRecord.plain) = .ok threeShown ∧
      (Page.allRecords pages.dropLast).length < threeOfFour.query.effectiveLimit ∧
      IsLeast {place | Page.EndAt threeOfFour.query.effectiveLimit
        (threeOfFour.maxPageSizeOf backend) pages place} (threeOfFour.run twoPages []).requests.length :=
  ⟨threeOfFour_outcome, delivered_eq_take threeOfFour twoPages [] threeShown ⟨rfl, rfl, rfl, rfl⟩
    threeOfFour_outcome⟩

end LogQuery
