import LogQuery.Proofs.Output.Render
import LogQuery.Proofs.Retrieval.Task
import LogQuery.Proofs.Retrieval.Turn
/-!
# Services that serve a list page by page

A service that holds a list of records and serves it page by page (`Job.IsServed`) lets a retrieval
go through the list in steps of the page size. How large a page is may be up to the service, as long as
it is not smaller than what is still wanted and not larger than the page size.

* `outcome_of_last`, `outcome_of_full`: what one page leads to.
* `runFrom_served`: from any place in the list on, the retrieval delivers what is wanted from there.
* `run_served`: a whole retrieval delivers the first records of the list, up to the number that is
  wanted and up to what all requests together can bring.
-/
namespace LogQuery

variable [Runtime]

/-- A page holds the records of a list from a place on. If as many follow as it can hold, it says how
to go on behind them, or else it says that there are no more and there are none. -/
structure Page.IsPart (page : Page) (all : List TaggedRecord) (cursorAt : Nat → Option Value)
    (place count : Nat) : Prop where
  records : page.records = (all.drop place).take count
  cursor : place + count ≤ all.length →
    (page.cursor = cursorAt (place + count) ∧ page.cursor.isSome = true) ∨
    (page.cursor = none ∧ all.length ≤ place + count)

theorem render_nil_eq {p : Profile} {bytes : Bytes} (h : render p [] = .ok bytes) : bytes = [] := by
  rw [render_nil ((render_eq_ok p [] bytes).mp h).1] at h
  exact (Except.ok.inj h).symm

namespace Job

variable {job : Job} {service : Service} {all : List TaggedRecord} {cursorAt : Nat → Option Value}
  {size : Nat} {p : Progress}

/-- A progress after some full pages of a list. Behind the first page it says how to go on. -/
structure IsAt (job : Job) (all : List TaggedRecord) (cursorAt : Nat → Option Value) (size : Nat)
    (p : Progress) : Prop where
  place : p.sent * size ≤ all.length
  remaining : p.remaining = job.query.effectiveLimit - p.sent * size
  cursor : p.cursor = cursorAt (p.sent * size)
  goesOn : p.sent ≠ 0 → p.cursor.isSome = true

/-- The next request can be sent, and it brings the part of a list that begins at the next place. -/
def IsServedAt (job : Job) (service : Service) (all : List TaggedRecord)
    (cursorAt : Nat → Option Value) (size : Nat) (p : Progress) : Prop :=
  ∃ request asked page count,
    job.ask p = .ok request ∧ pageAsked p request = .ok asked ∧
    (service p.sent request).page job.backend = .ok page ∧
    page.IsPart all cursorAt (p.sent * size) count ∧ min p.remaining size ≤ count ∧ count ≤ size

/-- A service serves a list to a job: after full pages, as long as records are still wanted. -/
def IsServed (job : Job) (service : Service) (all : List TaggedRecord)
    (cursorAt : Nat → Option Value) (size : Nat) : Prop :=
  ∀ p : Progress, job.IsAt all cursorAt size p → p.remaining ≠ 0 →
    job.IsServedAt service all cursorAt size p

omit [Runtime] in
theorem pageAsked_eq {request : Request} {v : Value} (p : Progress) (h : request.body = some v) :
    pageAsked p request = match Json.refusal? v with
      | some fault => .error (.fault fault)
      | none => .ok (.pageAsked (p.sent + 1) request.method request.url (Json.write .spaced v)) := by
  simp only [pageAsked, accountBody, h, Json.encode_eq]
  cases Json.refusal? v <;> rfl

/-- The progress after a page whose records are shown as some bytes. -/
def after (p : Progress) (page : Page) (shown : Bytes) : Progress :=
  { sent := p.sent + 1, remaining := p.remaining - (wanted p page).length, cursor := page.cursor,
    shown := p.shown ++ shown }

theorem accept_eq_ok {page : Page} {shown : Bytes}
    (h : render job.profile ((wanted p page).map TaggedRecord.plain) = .ok shown) :
    job.accept p page = .ok (after p page shown) := by
  simp only [accept, h, Except.map, after]

omit [Runtime] in
theorem IsAt.after (h : job.IsAt all cursorAt size p) {page : Page} (shown : Bytes)
    (hfull : (wanted p page).length = size) (hroom : p.sent * size + size ≤ all.length)
    (hcursor : page.cursor = cursorAt (p.sent * size + size)) (hsome : page.cursor.isSome = true) :
    job.IsAt all cursorAt size (after p page shown) := by
  have hremaining := h.remaining
  refine ⟨?_, ?_, ?_, fun _ => hsome⟩ <;> simp only [Job.after, Nat.succ_mul]
  · exact hroom
  · omega
  · exact hcursor

theorem turnPage_outcome {page : Page} {next : Progress} (request : Request) (goOn : Progress → Run)
    (hne : page.records ≠ []) (hs : job.accept p page = .ok next) :
    ((job.turnPage p request page).conclude goOn).outcome
      = if job.hasNext p page then (goOn next).outcome else .ok next.shown := by
  unfold turnPage
  rw [if_neg hne]
  simp only [hs]
  split <;> rfl

omit [Runtime] in
theorem hasNext_eq_true {page : Page} :
    job.hasNext p page = true ↔
      job.pageSize p ≤ (wanted p page).length ∧ page.cursor.isSome = true := by
  rw [hasNext, Bool.and_eq_true, decide_eq_true_eq]

/-! ## One page -/

variable {page : Page} {request : Request} {place count : Nat} {shown : Bytes}

omit [Runtime] in
theorem wanted_of_isPart (hpart : page.IsPart all cursorAt place count) :
    wanted p page = (all.drop place).take (min p.remaining count) := by
  rw [wanted, hpart.records, List.take_take]

omit [Runtime] in
theorem drop_of_isPart (hpart : page.IsPart all cursorAt place count) (hcount : 0 < count)
    (hnil : page.records = []) : all.drop place = [] := by
  have htake := hpart.records
  rw [hnil] at htake
  rcases List.take_eq_nil_iff.mp htake.symm with h | h
  · omega
  · exact h

theorem runFrom_page (hserved : job.IsServed service all cursorAt size)
    (hcancel : job.isCancelled p.sent = false) (hat : job.IsAt all cursorAt size p)
    (hp : p.remaining ≠ 0) (left : Nat) :
    ∃ request page count, page.IsPart all cursorAt (p.sent * size) count ∧
      min p.remaining size ≤ count ∧ count ≤ size ∧
      (job.runFrom service (left + 1) p).outcome
        = ((job.turnPage p request page).conclude (job.runFrom service left)).outcome := by
  obtain ⟨request, asked, page, count, ha, hw, hr, hpart, hmin, hmax⟩ := hserved p hat hp
  refine ⟨request, page, count, hpart, hmin, hmax, ?_⟩
  rw [runFrom_succ job service p left hp, turn_eq_turnPage hcancel ha hw hr]
  rfl

theorem outcome_of_last (hpart : page.IsPart all cursorAt place count)
    (hsize : job.maxPageSize = size) (hpos : 0 < size) (hp : p.remaining ≠ 0)
    (hlast : p.remaining ≤ size) (hmin : min p.remaining size ≤ count) (left : Nat)
    (hb : render job.profile (((all.drop place).take p.remaining).map TaggedRecord.plain)
      = .ok shown) :
    ((job.turnPage p request page).conclude (job.runFrom service left)).outcome
      = .ok (p.shown ++ shown) := by
  have hcount : 0 < count :=
    Nat.lt_of_lt_of_le (Nat.lt_min.mpr ⟨Nat.pos_of_ne_zero hp, hpos⟩) hmin
  by_cases hnil : page.records = []
  · rw [drop_of_isPart hpart hcount hnil, List.take_nil] at hb
    rw [render_nil_eq hb, List.append_nil, turnPage, if_pos hnil]
    rfl
  have hwanted : wanted p page = (all.drop place).take p.remaining := by
    rw [wanted_of_isPart hpart, Nat.min_eq_left (by omega)]
  rw [← hwanted] at hb
  rw [turnPage_outcome request _ hnil (accept_eq_ok hb)]
  split
  next hnext =>
    have hfull := (hasNext_eq_true.mp hnext).1
    have hpage : job.pageSize p = min (p.remaining : Int) size := by rw [pageSize, hsize]
    rw [runFrom_done _ _ _ left (Or.inr (Nat.sub_eq_zero_of_le (by omega)))]
    rfl
  next => rfl

/-- A page of full size, with more still wanted, leads to the next place, or the list ends with it. -/
theorem outcome_of_full (hat : job.IsAt all cursorAt size p)
    (hpart : page.IsPart all cursorAt (p.sent * size) size) (hsize : job.maxPageSize = size)
    (hpos : 0 < size) (hmore : size < p.remaining) (goOn : Progress → Run)
    (hb : render job.profile (((all.drop (p.sent * size)).take size).map TaggedRecord.plain)
      = .ok shown) :
    (all.length ≤ p.sent * size + size ∧
      ((job.turnPage p request page).conclude goOn).outcome = .ok (p.shown ++ shown)) ∨
    (job.IsAt all cursorAt size (after p page shown) ∧
      (after p page shown).remaining = p.remaining - size ∧
      ((job.turnPage p request page).conclude goOn).outcome = (goOn (after p page shown)).outcome) := by
  by_cases hnil : page.records = []
  · have hdrop := drop_of_isPart hpart hpos hnil
    rw [hdrop, List.take_nil] at hb
    refine Or.inl ⟨Nat.le_add_right_of_le (List.drop_eq_nil_iff.mp hdrop), ?_⟩
    rw [render_nil_eq hb, List.append_nil, turnPage, if_pos hnil]
    rfl
  have hwanted : wanted p page = (all.drop (p.sent * size)).take size := by
    rw [wanted_of_isPart hpart, Nat.min_eq_right (Nat.le_of_lt hmore)]
  have hlength : (wanted p page).length = min size (all.length - p.sent * size) := by
    rw [hwanted, List.length_take, List.length_drop]
  have hpage : job.pageSize p = size := by
    rw [pageSize, hsize]
    omega
  rw [← hwanted] at hb
  rw [turnPage_outcome request _ hnil (accept_eq_ok hb)]
  by_cases hnext : job.hasNext p page = true
  · obtain ⟨hfull, hsome⟩ := hasNext_eq_true.mp hnext
    have hroom : p.sent * size + size ≤ all.length := by omega
    have hcursor : page.cursor = cursorAt (p.sent * size + size) := by
      rcases hpart.cursor hroom with h | h
      · exact h.1
      · rw [h.1] at hsome
        cases hsome
    rw [if_pos hnext]
    exact Or.inr ⟨hat.after shown (by omega) hroom hcursor hsome,
      congrArg (p.remaining - ·) (by omega), rfl⟩
  · rw [if_neg hnext]
    refine Or.inl ⟨?_, rfl⟩
    by_contra hroom
    refine hnext (hasNext_eq_true.mpr ⟨by omega, ?_⟩)
    rcases hpart.cursor (by omega) with h | h
    · exact h.2
    · exact absurd h.2 hroom

/-! ## All pages -/

theorem runFrom_served (hserved : job.IsServed service all cursorAt size)
    (hsize : job.maxPageSize = size) (hpos : 0 < size) (hcancel : ∀ n, job.isCancelled n = false)
    (left : Nat) {bytes : Bytes} (hat : job.IsAt all cursorAt size p)
    (hb : render job.profile (((all.drop (p.sent * size)).take (min p.remaining (left * size))).map
      TaggedRecord.plain) = .ok bytes) :
    (job.runFrom service left p).outcome = .ok (p.shown ++ bytes) := by
  induction left generalizing p bytes with
  | zero =>
    rw [Nat.zero_mul, Nat.min_zero, List.take_zero] at hb
    rw [render_nil_eq hb, List.append_nil]
    rfl
  | succ left ih =>
    by_cases hp : p.remaining = 0
    · rw [hp, Nat.zero_min, List.take_zero] at hb
      rw [render_nil_eq hb, List.append_nil, runFrom_done job service p _ (Or.inr hp)]
      rfl
    obtain ⟨request, page, count, hpart, hmin, hmax, hrun⟩ :=
      runFrom_page hserved (hcancel p.sent) hat hp left
    rw [hrun]
    by_cases hlast : p.remaining ≤ size
    · have hfit : size ≤ (left + 1) * size := Nat.le_mul_of_pos_left size (Nat.succ_pos left)
      rw [show min p.remaining ((left + 1) * size) = p.remaining by omega] at hb
      exact outcome_of_last hpart hsize hpos hp hlast hmin left hb
    · -- What is wanted is this page and what is wanted behind it.
      rw [show count = size by omega] at hpart
      rw [show min p.remaining ((left + 1) * size) = size + min (p.remaining - size) (left * size) by
        rw [Nat.succ_mul]; omega, List.take_add, List.map_append, render_append,
        List.drop_drop] at hb
      obtain ⟨shown, later, hshown, hlater, rfl⟩ := hb
      rcases outcome_of_full hat hpart hsize hpos (by omega) (job.runFrom service left) hshown with
        ⟨hend, hout⟩ | ⟨hnext, hremaining, hout⟩
      · rw [List.drop_eq_nil_of_le hend, List.take_nil] at hlater
        rw [hout, render_nil_eq hlater, List.append_nil]
      · have hplace : (after p page shown).sent * size = p.sent * size + size := Nat.succ_mul _ _
        rw [hout, ih hnext (by rw [hplace, hremaining]; exact hlater)]
        exact congrArg Except.ok (List.append_assoc _ _ _)

/-- **A list page by page.** A retrieval delivers the first records of the list, as many as are wanted
and as all its requests can bring. -/
theorem run_served (hserved : job.IsServed service all cursorAt size) (hstart : cursorAt 0 = none)
    (hsize : job.maxPageSize = size) (hpos : 0 < size) (hcancel : ∀ n, job.isCancelled n = false)
    {bytes : Bytes}
    (hb : render job.profile ((all.take (min (min job.query.effectiveLimit all.length)
      (maxRequests * size))).map TaggedRecord.plain) = .ok bytes) :
    (job.run service).outcome = .ok bytes := by
  have hat : job.IsAt all cursorAt size job.start :=
    ⟨by simp [start], by simp [start], by simp [start, hstart], fun h => absurd rfl h⟩
  have htake : all.take (min (min job.query.effectiveLimit all.length) (maxRequests * size))
      = (all.drop (job.start.sent * size)).take (min job.start.remaining (maxRequests * size)) := by
    simp only [start, Nat.zero_mul, List.drop_zero]
    rw [List.take_eq_take_iff]
    omega
  rw [htake] at hb
  exact runFrom_served hserved hsize hpos hcancel maxRequests hat hb

theorem run_unwritten {request : Request} {e : Failure} (service : Service)
    (hwanted : job.query.effectiveLimit ≠ 0) (hcancel : job.isCancelled 0 = false)
    (ha : job.ask job.start = .ok request) (hw : pageAsked job.start request = .error e) :
    (job.run service).outcome = .error e ∧ (job.run service).requests = [] := by
  have hturn : job.turn service job.start = .refused e := by
    simp [turn, ha, hw, show job.isCancelled job.start.sent = false from hcancel]
  rw [run, show maxRequests = 99 + 1 from rfl, runFrom_succ job service job.start 99 hwanted, hturn]
  exact ⟨rfl, rfl⟩

end Job
end LogQuery
