import LogQuery.Proofs.Search.Fit
/-!
# The window of several time filters

A search of events has one window, and every time filter of a query writes it. The index search
conjoins a range for each of them.

* `covers_compileFrom`: of several time filters the last one alone decides.
* `mem_filter_of_during`: the index search has a range for each.
* `covers_iff_last`: so the window respects all time filters iff the last one is within the others.
-/
namespace LogQuery

/-- An instant, in milliseconds, lies between the two values of a filter, which are whole seconds. -/
def Filter.Admits (f : Filter) (t : Int) : Prop :=
  ∃ a b rest m n, f.values = a :: b :: rest ∧ Integer.read 10 a = .ok m ∧
    Integer.read 10 b = .ok n ∧ 1000 * m ≤ t ∧ t ≤ 1000 * n

def lastTimeFilter? (filters : List Filter) : Option Filter :=
  (filters.filter fun f => f.operation = .during).getLast?

/-! ## The event search -/

namespace EventSearch

variable {f : Filter} {filters : List Filter} {q q' : EventQuery}

/-- An instant lies in the window of a search; all do if there is none. -/
def EventQuery.Covers (q : EventQuery) (t : Int) : Prop :=
  ∀ w, q.window = some w → w.start ≤ t ∧ t ≤ w.stop

theorem milliseconds_eq_ok {v : Text} {n : Int} (h : milliseconds v = .ok n) :
    ∃ m, Integer.read 10 v = .ok m ∧ n = 1000 * m := by
  unfold milliseconds at h
  split at h
  next m hm => exact ⟨m, hm, (Except.ok.inj h).symm.trans (Int.mul_comm m 1000)⟩
  next => cases h

theorem covers_add (hduring : f.operation = .during) (h : q.add f = .ok q') (t : Int) :
    q'.Covers t ↔ f.Admits t := by
  rcases add_eq_ok h with ⟨text, hterm, -⟩ | ⟨-, a, b, rest, start, stop, hvalues, hstart, hstop, rfl⟩
  · cases hterm <;> cases hduring
  obtain ⟨m, hm, rfl⟩ := milliseconds_eq_ok hstart
  obtain ⟨n, hn, rfl⟩ := milliseconds_eq_ok hstop
  constructor
  · intro hcovers
    exact ⟨a, b, rest, m, n, hvalues, hm, hn, hcovers _ rfl⟩
  · rintro ⟨a', b', rest', m', n', hvalues', hm', hn', hadmits⟩ w hw
    obtain ⟨rfl, rfl, rfl⟩ : a = a' ∧ b = b' ∧ rest = rest' := by
      simpa using hvalues.symm.trans hvalues'
    cases hm.symm.trans hm'
    cases hn.symm.trans hn'
    cases hw
    exact hadmits

theorem lastTimeFilter?_cons (f : Filter) (filters : List Filter) :
    lastTimeFilter? (f :: filters)
      = (lastTimeFilter? filters).or (if f.operation = .during then some f else none) := by
  unfold lastTimeFilter?
  by_cases hduring : f.operation = .during
  · rw [List.filter_cons_of_pos (by simpa using hduring), List.getLast?_cons, if_pos hduring]
    cases (filters.filter fun g => decide (g.operation = .during)).getLast? <;> rfl
  · rw [List.filter_cons_of_neg (by simpa using hduring), if_neg hduring, Option.or_none]

theorem covers_compileFrom (h : compileFrom q filters = .ok q') (t : Int) :
    q'.Covers t ↔ match lastTimeFilter? filters with
      | some f => f.Admits t
      | none => q.Covers t := by
  induction filters generalizing q with
  | nil => cases h; rfl
  | cons f filters ih =>
    obtain ⟨next, hadd, hrest⟩ := eq_ok_of_bind h
    rw [ih hrest, lastTimeFilter?_cons]
    cases lastTimeFilter? filters with
    | some g => rfl
    | none =>
      by_cases hduring : f.operation = .during
      · rw [if_pos hduring]
        exact covers_add hduring hadd t
      · rw [if_neg hduring, EventQuery.Covers, window_add hduring hadd]
        rfl

end EventSearch

/-! ## The index search -/

namespace IndexSearch

variable {f : Filter} {filters : List Filter} {q q' : BoolQuery}

def IsTimeRange (f : Filter) (c : Clause) : Prop :=
  ∃ a b rest, f.values = a :: b :: rest ∧ c = .range f.key [(.gte, a), (.lte, b)]

theorem isTimeRange_clause {c : Clause} (hduring : f.operation = .during) (h : clause f = .ok c) :
    IsTimeRange f c := by
  obtain ⟨key, operation, values⟩ := f
  cases hduring
  match values with
  | a :: b :: rest => exact ⟨a, b, rest, rfl, (Except.ok.inj h).symm⟩
  | [_] => cases h
  | [] => cases h

theorem filter_subset_compile (h : compile filters q = .ok q') : q.filter ⊆ q'.filter := by
  induction filters generalizing q with
  | nil => cases h; exact List.Subset.refl _
  | cons f filters ih =>
    obtain ⟨c, -, hrest⟩ := eq_ok_of_bind h
    refine List.Subset.trans ?_ (ih hrest)
    unfold BoolQuery.add
    split
    · exact List.Subset.refl _
    · exact List.Subset.refl _
    · exact List.Subset.refl _
    · exact List.subset_append_left _ _

theorem mem_filter_of_during (h : compile filters q = .ok q') (hf : f ∈ filters)
    (hduring : f.operation = .during) : ∃ c ∈ q'.filter, IsTimeRange f c := by
  induction filters generalizing q with
  | nil => cases hf
  | cons g filters ih =>
    obtain ⟨c, hc, hrest⟩ := eq_ok_of_bind h
    rcases List.mem_cons.mp hf with rfl | hf
    · refine ⟨c, filter_subset_compile hrest ?_, isTimeRange_clause hduring (eq_ok_of_mapError hc)⟩
      rw [hduring]
      exact List.mem_append_right q.filter List.mem_cons_self
    · exact ih hrest hf

end IndexSearch

/-! ## Both -/

namespace EventSearch

open IndexSearch (IsTimeRange)

/-- **The window of a search** is the one of the last time filter, and so every instant in it suits all
time filters iff whatever suits the last one suits the others. The index search has a range that has to
hold for each of them. -/
theorem covers_iff_last (filters : List Filter) (q : EventQuery) (h : compile filters = .ok q) :
    (∀ t, q.Covers t ↔ ∀ f, lastTimeFilter? filters = some f → f.Admits t) ∧
    ((∀ t, q.Covers t → ∀ f ∈ filters, f.operation = .during → f.Admits t) ↔
      ∀ last, lastTimeFilter? filters = some last → ∀ t, last.Admits t →
        ∀ f ∈ filters, f.operation = .during → f.Admits t) ∧
    ∀ b, IndexSearch.compile filters {} = .ok b → ∀ f ∈ filters, f.operation = .during →
      ∃ c ∈ b.filter, IsTimeRange f c := by
  have hcovers : ∀ t, q.Covers t ↔ ∀ f, lastTimeFilter? filters = some f → f.Admits t := by
    intro t
    rw [covers_compileFrom h t]
    cases lastTimeFilter? filters with
    | none => simp [EventQuery.Covers]
    | some f => simp
  refine ⟨hcovers, ⟨?_, ?_⟩, fun b hb f hf hduring => IndexSearch.mem_filter_of_during hb hf hduring⟩
  · intro hall last hlast t ht f hf hduring
    refine hall t ((hcovers t).mpr fun g hg => ?_) f hf hduring
    cases hlast.symm.trans hg
    exact ht
  · intro hwithin t ht f hf hduring
    have hsome : (lastTimeFilter? filters).isSome := by
      rw [lastTimeFilter?, List.getLast?_isSome]
      exact List.ne_nil_of_mem (List.mem_filter.mpr ⟨hf, by simpa using hduring⟩)
    obtain ⟨last, hlast⟩ := Option.isSome_iff_exists.mp hsome
    exact hwithin last hlast t ((hcovers t).mp ht last hlast) f hf hduring

def overlappingFilters : List Filter :=
  [⟨timestampField, .during, ["0", "20"]⟩, ⟨"code", .eq, ["5"]⟩,
    ⟨timestampField, .during, ["10", "30"]⟩]

/-- What is asked for with two time ranges that overlap. -/
def overlappingQuery : EventQuery := { window := some ⟨10000, 30000⟩, terms := ["code:*5*"] }

theorem covers_iff_last_overlapping : compile overlappingFilters = .ok overlappingQuery ∧
    (∀ t, overlappingQuery.Covers t ↔
      ∀ f, lastTimeFilter? overlappingFilters = some f → f.Admits t) ∧
    ((∀ t, overlappingQuery.Covers t →
        ∀ f ∈ overlappingFilters, f.operation = .during → f.Admits t) ↔
      ∀ last, lastTimeFilter? overlappingFilters = some last → ∀ t, last.Admits t →
        ∀ f ∈ overlappingFilters, f.operation = .during → f.Admits t) ∧
    ∀ b, IndexSearch.compile overlappingFilters {} = .ok b →
      ∀ f ∈ overlappingFilters, f.operation = .during → ∃ c ∈ b.filter, IsTimeRange f c :=
  have hcompile : compile overlappingFilters = .ok overlappingQuery := by decide
  ⟨hcompile, covers_iff_last overlappingFilters overlappingQuery hcompile⟩

/-- The first of two time ranges that overlap is lost: the thirtieth second is in the window but behind
its end. -/
theorem earlier_window_lost : ¬ ∀ (filters : List Filter) (q : EventQuery),
    compile filters = .ok q → ∀ t, q.Covers t →
      ∀ f ∈ filters, f.operation = .during → f.Admits t := by
  intro hall
  have hcompile : compile overlappingFilters = .ok overlappingQuery := by decide
  have hcovers : overlappingQuery.Covers 30000 := by
    rintro w ⟨⟩
    decide
  obtain ⟨a, b, rest, m, n, hvalues, -, hn, -, hle⟩ :=
    hall _ _ hcompile 30000 hcovers ⟨timestampField, .during, ["0", "20"]⟩ (by decide) rfl
  cases hvalues
  cases (show Integer.read 10 "20" = .ok 20 by decide).symm.trans hn
  exact absurd hle (by decide)

end EventSearch
end LogQuery
