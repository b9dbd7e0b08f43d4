import LogQuery.Calendar.Region
import LogQuery.Config.Settings
import LogQuery.Proofs.Filter.Read
import LogQuery.Proofs.Number.ReadInteger
import LogQuery.Proofs.Number.Rounded
import LogQuery.Proofs.Search.Meaning
import LogQuery.Proofs.Search.Term
/-!
# Filters that were read can be compiled

Reading a filter settles how many values it has, and in an environment of the event search it settles
that instants are whole seconds. The compilers rely on both.

* `add_cases`: whether a filter that was read can be put to the event search.
* `compileFrom_unsupported`, `exists_compileFrom`: filters are compiled up to the first one with an
  operation that the event search lacks.
* `window_of_last`: the last time filter is the one that counts.
* `asked_fits`: what becomes of all filters that were read with the settings of an environment.
-/
namespace LogQuery

theorem Moment.isWritable_timestamp [ZoneDatabase] (m : Moment) : Integer.isWritable m.timestamp = true :=
  Binary64.isWritable_whole_ofRatio _ _ (by decide)

/-- What the dates of a search in an environment are read and written with. -/
def Env.timeSettings (env : Env) (given : Text) (zone : Zone) (now : Moment) : TimeSettings :=
  { zone, format := env.timeFormatFor given, now }

theorem Env.timeFormatFor_eventSearch {env : Env} (h : env.source = .backend .eventSearch)
    (given : Text) : env.timeFormatFor given = .timestamp := by
  rw [timeFormatFor, timeFormatName, if_pos h]
  rfl

/-! ## Numbers of values -/

namespace Filter

variable {settings : TimeSettings} {aliases : Aliases} {f : Filter}

theorem IsOfForm.isComplete (h : f.IsOfForm) : f.IsComplete := by
  obtain ⟨form, operators, values, hspells, hoperation, hvalues⟩ := h
  rw [IsComplete, hoperation, hvalues, List.length_map]
  cases hspells with
  | alone c | withEquals c => cases c <;> rfl
  | oneOf hw x xs =>
    have hlength : 1 ≤ (x :: xs).length := Nat.le_add_left 1 xs.length
    exact decide_eq_true hlength
  | _ => rfl

theorem IsOfForm.operation_ne (h : f.IsOfForm) : f.operation ≠ .during := by
  obtain ⟨form, -, -, -, hoperation, -⟩ := h
  rw [hoperation]
  cases form with
  | alone c | withEquals c => cases c <;> exact nofun
  | _ => exact nofun

theorem IsOfTime.isComplete [ZoneDatabase] {first last : Text} (h : f.IsOfTime settings first last) :
    f.IsComplete := by
  obtain ⟨-, -, v, v', -, -, -, -, hoperation, hvalues⟩ := h
  rw [IsComplete, hoperation, hvalues]
  rfl

theorem Asked.isComplete_of_read [ZoneDatabase] {a : Asked} (h : a.read settings aliases = .ok f) :
    f.IsComplete := by
  rcases read_cases h with hform | ⟨first, last, -, htime⟩
  · exact hform.isComplete
  · exact htime.isComplete

end Filter

/-! ## What one filter does -/

namespace EventSearch

/-- The operations that the event search lacks. -/
def indexOnly : List Operation := [.gt, .gte, .lt, .lte, .oneOf, .exist, .absent]

/-- The failure to put a filter to the event search. -/
def unsupported (f : Filter) : Failure := .unsupported (.notInEvents f.describe f.operation.name)

variable {f : Filter} {filters : List Filter} {q q' : EventQuery}

theorem window_add (hoperation : f.operation ≠ .during) (h : q.add f = .ok q') :
    q'.window = q.window := by
  rcases add_eq_ok h with ⟨t, -, rfl⟩ | ⟨hduring, -⟩
  · rfl
  · exact absurd hduring hoperation

theorem compileFrom_append (front back : List Filter) (q : EventQuery) :
    compileFrom q (front ++ back) = compileFrom q front >>= fun q => compileFrom q back := by
  induction front generalizing q with
  | nil => rfl
  | cons f front ih =>
    rw [List.cons_append, compileFrom, compileFrom, bind_assoc]
    exact bind_congr ih

theorem window_compileFrom (hother : ∀ g ∈ filters, g.operation ≠ .during)
    (h : compileFrom q filters = .ok q') : q'.window = q.window := by
  induction filters generalizing q with
  | nil => cases h; rfl
  | cons g filters ih =>
    rw [List.forall_mem_cons] at hother
    obtain ⟨next, hadd, hrest⟩ := eq_ok_of_bind h
    rw [ih hother.2 hrest, window_add hother.1 hadd]

theorem member?_window {w : Window} (h : q.window = some w) :
    q.toValue.member? "from" = some (.integer w.start) ∧
      q.toValue.member? "to" = some (.integer w.stop) := by
  unfold EventQuery.toValue
  simp only [h, IndexSearch.member?_object]
  exact ⟨rfl, rfl⟩

section

variable [ZoneDatabase]

/-- A filter has the values that its operation needs, and those of a time filter are the epoch seconds of
two moments. -/
structure IsTimed (f : Filter) : Prop where
  complete : f.IsComplete
  during : f.operation = .during →
    ∃ m m' : Moment, f.values = [Text.ofInt m.timestamp, Text.ofInt m'.timestamp]

theorem milliseconds_timestamp (m : Moment) :
    milliseconds (Text.ofInt m.timestamp) = .ok (m.timestamp * 1000) := by
  rw [milliseconds, Integer.read_ofInt m.isWritable_timestamp]

def windowOf (m m' : Moment) : Window := ⟨m.timestamp * 1000, m'.timestamp * 1000⟩

theorem add_during {m m' : Moment} (hoperation : f.operation = .during)
    (hvalues : f.values = [Text.ofInt m.timestamp, Text.ofInt m'.timestamp]) (q : EventQuery) :
    q.add f = .ok { q with window := some (windowOf m m') } := by
  unfold EventQuery.add
  rw [hoperation, hvalues]
  simp only [milliseconds_timestamp]
  rfl

/-- A filter can be put to the event search unless it has an operation that this lacks. -/
theorem add_cases (h : IsTimed f) (q : EventQuery) :
    (f.operation ∈ indexOnly ∧ q.add f = .error (unsupported f)) ∨
    (f.operation ∉ indexOnly ∧ ∃ next, q.add f = .ok next) := by
  by_cases hduring : f.operation = .during
  · obtain ⟨m, m', hvalues⟩ := h.during hduring
    refine Or.inr ⟨?_, _, add_during hduring hvalues q⟩
    rw [hduring]
    decide
  · have hcomplete := h.complete
    obtain ⟨key, operation, values⟩ := f
    unfold Filter.IsComplete at hcomplete
    cases operation with
    | during => exact absurd rfl hduring
    | other name => cases hcomplete
    | eq | teq | neq =>
      obtain ⟨v, rfl⟩ := List.length_eq_one_iff.mp (of_decide_eq_true hcomplete)
      exact Or.inr ⟨by simp [indexOnly], _, rfl⟩
    | between =>
      obtain ⟨a, b, rfl⟩ := List.length_eq_two.mp (of_decide_eq_true hcomplete)
      exact Or.inr ⟨by simp [indexOnly], _, rfl⟩
    | _ => exact Or.inl ⟨by simp [indexOnly], rfl⟩

/-! ## What a row of filters does -/

theorem compileFrom_unsupported (h : ∀ g ∈ filters, IsTimed g)
    (hfind : filters.find? (fun g => decide (g.operation ∈ indexOnly)) = some f) (q : EventQuery) :
    compileFrom q filters = .error (unsupported f) := by
  induction filters generalizing q with
  | nil => cases hfind
  | cons g filters ih =>
    rw [List.forall_mem_cons] at h
    rcases add_cases h.1 q with ⟨hmem, hadd⟩ | ⟨hmem, next, hadd⟩
    · rw [List.find?_cons_of_pos (by simpa using hmem)] at hfind
      cases hfind
      rw [compileFrom, hadd]
      rfl
    · rw [List.find?_cons_of_neg (by simpa using hmem)] at hfind
      rw [compileFrom, hadd]
      exact ih h.2 hfind next

theorem exists_compileFrom (h : ∀ g ∈ filters, IsTimed g)
    (hsupported : ∀ g ∈ filters, g.operation ∉ indexOnly) (q : EventQuery) :
    ∃ q', compileFrom q filters = .ok q' := by
  induction filters generalizing q with
  | nil => exact ⟨q, rfl⟩
  | cons g filters ih =>
    rw [List.forall_mem_cons] at h hsupported
    rcases add_cases h.1 q with ⟨hmem, -⟩ | ⟨-, next, hadd⟩
    · exact absurd hmem hsupported.1
    · rw [compileFrom, hadd]
      exact ih h.2 hsupported.2 next

theorem compile_eq_error {e : Failure} (h : ∀ g ∈ filters, IsTimed g)
    (he : compile filters = .error e) :
    ∃ f, filters.find? (fun f => decide (f.operation ∈ indexOnly)) = some f ∧ e = unsupported f := by
  cases hfind : filters.find? fun f => decide (f.operation ∈ indexOnly) with
  | none =>
    obtain ⟨q, hq⟩ := exists_compileFrom h (by simpa using hfind) {}
    cases hq.symm.trans he
  | some f => exact ⟨f, rfl, Except.error.inj (he.symm.trans (compileFrom_unsupported h hfind {}))⟩

theorem compile_iff (h : ∀ g ∈ filters, IsTimed g) :
    (∃ q, compile filters = .ok q) ↔ ∀ g ∈ filters, g.operation ∉ indexOnly := by
  refine ⟨fun ⟨q, hq⟩ => ?_, fun hsupported => exists_compileFrom h hsupported {}⟩
  cases hfind : filters.find? fun f => decide (f.operation ∈ indexOnly) with
  | none => simpa using hfind
  | some f => cases hq.symm.trans (compileFrom_unsupported h hfind {})

theorem window_of_last {front back : List Filter} {m m' : Moment} (hoperation : f.operation = .during)
    (hvalues : f.values = [Text.ofInt m.timestamp, Text.ofInt m'.timestamp])
    (hback : ∀ g ∈ back, g.operation ≠ .during)
    (h : compile (front ++ f :: back) = .ok q) : q.window = some (windowOf m m') := by
  rw [compile, compileFrom_append] at h
  obtain ⟨before, -, h⟩ := eq_ok_of_bind h
  obtain ⟨next, hadd, hrest⟩ := eq_ok_of_bind h
  rw [add_during hoperation hvalues] at hadd
  cases hadd
  exact window_compileFrom hback hrest

end

end EventSearch

/-! ## What was asked -/

namespace Filter

open EventSearch

section

variable [ZoneDatabase] {settings : TimeSettings} {aliases : Aliases} {asked : List Asked}
  {filters : List Filter}

/-- A time filter that was read holds the epoch seconds of the moments that its bounds mean. -/
theorem Asked.exists_moments {a : Asked} {f : Filter} (hformat : settings.format = .timestamp)
    (h : a.read settings aliases = .ok f) (hduring : f.operation = .during) :
    ∃ first last m m', a.bounds? = some (first, last) ∧ meant? settings first = some m ∧
      meant? settings last = some m' ∧
        f.values = [Text.ofInt m.timestamp, Text.ofInt m'.timestamp] := by
  rcases read_cases h with hform | ⟨first, last, hbounds, htime⟩
  · exact absurd hduring hform.operation_ne
  · obtain ⟨m, m', v, v', hm, hm', hv, hv', -, hvalues⟩ := htime
    rw [hformat] at hv hv'
    cases hv
    cases hv'
    exact ⟨first, last, m, m', hbounds, hm, hm', hvalues⟩

theorem Asked.isTimed {a : Asked} {f : Filter} (hformat : settings.format = .timestamp)
    (h : a.read settings aliases = .ok f) : IsTimed f where
  complete := isComplete_of_read h
  during hduring :=
    have ⟨_, _, m, m', _, _, _, hvalues⟩ := exists_moments hformat h hduring
    ⟨m, m', hvalues⟩

theorem exists_asked (h : asked.mapM (Asked.read settings aliases) = .ok filters) {f : Filter}
    (hf : f ∈ filters) : ∃ a ∈ asked, a.read settings aliases = .ok f := by
  obtain ⟨i, hi⟩ := List.mem_iff_getElem?.mp hf
  obtain ⟨a, ha, hread⟩ := getElem?_of_mapM h hi
  exact ⟨a, List.mem_of_getElem? ha, hread⟩

/-- **Filters that were read fit the compilers.** With the settings of an environment, whatever time
format is given beside it, an index search takes all of them. An event search takes them unless some
have operations that it lacks, and then reports the first of those. The window of the search is the one
of the last time filter, between the moments that its bounds meant when it was read. -/
theorem asked_fits (env : Env) (given : Text) (zone : Zone) (now : Moment) (aliases : Aliases)
    (asked : List Asked) (filters : List Filter)
    (h : asked.mapM (Asked.read (env.timeSettings given zone now) aliases) = .ok filters) :
    (∀ (q : Query) (cursor : Option Value) (pageSize : Option Int),
      ∃ body, IndexSearch.payload { q with filters } cursor pageSize = .ok body) ∧
    (env.source = .backend .eventSearch →
      ((∃ q, compile filters = .ok q) ↔ ∀ f ∈ filters, f.operation ∉ indexOnly) ∧
      (∀ e, compile filters = .error e →
        ∃ f, filters.find? (fun f => decide (f.operation ∈ indexOnly)) = some f ∧
          e = .unsupported (.notInEvents f.describe f.operation.name)) ∧
      ∀ q, compile filters = .ok q → ∀ front f back, filters = front ++ f :: back →
        f.operation = .during → (∀ g ∈ back, g.operation ≠ .during) →
          ∃ a first last m m', asked[front.length]? = some a ∧ a.bounds? = some (first, last) ∧
            meant? (env.timeSettings given zone now) first = some m ∧
            meant? (env.timeSettings given zone now) last = some m' ∧
            f.values = [Text.ofInt m.timestamp, Text.ofInt m'.timestamp] ∧
            q.toValue.member? "from" = some (.integer (m.timestamp * 1000)) ∧
            q.toValue.member? "to" = some (.integer (m'.timestamp * 1000))) := by
  constructor
  · intro q cursor pageSize
    obtain ⟨body, -, hbody, -, -⟩ :=
      IndexSearch.payload_meets { q with filters } cursor pageSize fun f hf => by
        obtain ⟨a, -, hread⟩ := exists_asked h hf
        exact Asked.isComplete_of_read hread
    exact ⟨body, hbody⟩
  intro hsource
  have hformat : (env.timeSettings given zone now).format = .timestamp :=
    env.timeFormatFor_eventSearch hsource given
  have htimed : ∀ f ∈ filters, IsTimed f := fun f hf => by
    obtain ⟨a, -, hread⟩ := exists_asked h hf
    exact Asked.isTimed hformat hread
  refine ⟨compile_iff htimed, fun e he => compile_eq_error htimed he, ?_⟩
  rintro q hq front f back rfl hduring hback
  obtain ⟨a, ha, hread⟩ := getElem?_of_mapM h (i := front.length) (b := f) (by simp)
  obtain ⟨first, last, m, m', hbounds, hm, hm', hvalues⟩ :=
    Asked.exists_moments hformat hread hduring
  obtain ⟨hfrom, hto⟩ := member?_window (window_of_last hduring hvalues hback hq)
  exact ⟨a, first, last, m, m', ha, hbounds, hm, hm', hvalues, hfrom, hto⟩

end

attribute [local instance] Region.database in
/-- Two time ranges at the end of the first day of 1970. The other format that is given does not count. -/
theorem asked_fits_twice :
    let env : Env := { name := .string "log", source := .backend .eventSearch }
    let now := (Moment.ofWallMicros? (Moment.epoch + 86400000000) .utc false).getD default
    let settings := env.timeSettings "rfc3339" .utc now
    let asked : List Asked := [.filter "at intime '-1d' now", .filter "code == 5",
      .timeRange "-2h/-1h" timestampField, .filter "n bt 1 2"]
    let filters : List Filter := [⟨"at", .during, ["0", "86400"]⟩, ⟨"code", .teq, ["5"]⟩,
      ⟨timestampField, .during, ["79200", "82800"]⟩, ⟨"n", .between, ["1", "2"]⟩]
    asked.mapM (Asked.read settings []) = .ok filters ∧
    ∃ q m m', compile filters = .ok q ∧
      meant? settings "-2h" = some m ∧ meant? settings "-1h" = some m' ∧
      q.toValue.member? "from" = some (.integer (m.timestamp * 1000)) ∧
      q.toValue.member? "to" = some (.integer (m'.timestamp * 1000)) := by
  intro env now settings asked filters
  have hread : asked.mapM (Asked.read settings []) = .ok filters := by decide +kernel
  obtain ⟨-, hevents⟩ := asked_fits env "rfc3339" .utc now [] asked filters hread
  obtain ⟨hiff, -, hwindow⟩ := hevents rfl
  obtain ⟨q, hq⟩ := hiff.mpr (by decide)
  obtain ⟨a, first, last, m, m', ha, hbounds, hm, hm', -, hfrom, hto⟩ :=
    hwindow q hq (filters.take 2) ⟨timestampField, .during, ["79200", "82800"]⟩ (filters.drop 3) rfl
      rfl (by decide)
  have hshort : (Asked.timeRange "-2h/-1h" timestampField).bounds? =
      some (("-2h" : Text), ("-1h" : Text)) := by decide +kernel
  cases ha
  rw [hshort] at hbounds
  cases hbounds
  exact ⟨hread, q, m, m', hq, hm, hm', hfrom, hto⟩

end Filter
end LogQuery
