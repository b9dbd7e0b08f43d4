import LogQuery.Proofs.Filter.Form
import LogQuery.Proofs.Steps
/-!
# Filters that were read

A filter is asked for by an expression or by the short form of a time range (`Asked`). Either is read in
steps, and if all of them succeed the filter is what some form asks, or it limits the time to the moments
that two bounds mean (`Asked.read_cases`).
-/
namespace LogQuery.Filter

/-- What filters are read from. -/
inductive Asked where
  /-- A filter expression. -/
  | filter (expression : Text)
  /-- The short form of a time filter, on a key. -/
  | timeRange (expression key : Text)

namespace Asked

def read [ZoneDatabase] (settings : TimeSettings) (aliases : Aliases) : Asked → Except ParseFailure Filter
  | filter expression => parse expression settings aliases
  | timeRange expression key => parseTimeRange expression settings key aliases

/-- The bounds of the time range that is asked for, if there is one. -/
def bounds? : Asked → Option (Text × Text)
  | filter expression =>
    match Token.tokenize expression with
    | [_, w, first, last] =>
      if IsTimeWord w then some (Token.unquote first, Token.unquote last) else none
    | _ => none
  | timeRange expression _ =>
    match expression.splitOn (.scalar '/') with
    | [first] => some (first.strip, "now")
    | [first, last] => some (first.strip, last.strip)
    | _ => none

end Asked

/-- The moment that a bound of a time range means, on the clock that the settings name. -/
def meant? [ZoneDatabase] (settings : TimeSettings) (bound : Text) : Option Moment := do
  let now ← settings.now.inZone? settings.zone
  let moment ← (resolve bound now).toOption
  moment.inZone? settings.zone

def IsOfForm (f : Filter) : Prop :=
  ∃ (form : Form) (operators values : List Text), form.Spells operators values ∧
    f.operation = form.operation ∧ f.values = values.map Token.unquote

/-- A filter limits the time to the moments that two bounds mean. -/
def IsOfTime [ZoneDatabase] (settings : TimeSettings) (first last : Text) (f : Filter) : Prop :=
  ∃ m m' v v', meant? settings first = some m ∧ meant? settings last = some m' ∧
    formatMoment m settings.format = .ok v ∧ formatMoment m' settings.format = .ok v' ∧
      f.operation = .during ∧ f.values = [v, v']

/-! ## Expressions -/

section
variable {expression w : Text} {rest : List Text} {q : Question}

theorem question_time (hw : IsTimeWord w) :
    question expression w rest = twoValues expression .timeRange rest := by
  rcases hw with hw | hw <;>
    rw [question_word hw (not_mark_of_asciiLower hw (by decide))] <;> rfl

theorem question_eq_ok (h : question expression w rest = .ok q) :
    (∃ (form : Form) (operators values : List Text), form.Spells operators values ∧
      q = .plain form.operation (values.map Token.unquote)) ∨
    (IsTimeWord w ∧ ∃ first last, rest = [first, last] ∧
      q = .timeRange (Token.unquote first) (Token.unquote last)) := by
  by_cases htime : IsTimeWord w
  · rw [question_time htime] at h
    rcases twoValues_cases expression .timeRange rest with ⟨first, last, rfl⟩ | ⟨e, he, -⟩
    · cases h
      exact Or.inr ⟨htime, first, last, rfl, rfl⟩
    · rw [he] at h
      cases h
  · rcases question_cases expression htime rest with hform | ⟨e, he, -⟩
    · obtain ⟨form, operators, values, hspells, rfl⟩ := hform
      rw [question_of_spells hspells] at h
      cases h
      exact Or.inl ⟨form, _, values, hspells, rfl⟩
    · rw [he] at h
      cases h

end

/-! ## Time ranges -/

section
variable [ZoneDatabase] {expression first last bound key : Text} {settings : TimeSettings} {f : Filter}

theorem moved_eq_ok {m m' : Moment} {zone : Zone} (h : moved m zone = .ok m') :
    m.inZone? zone = some m' := by
  unfold moved at h
  split at h
  next hm => rw [hm, Except.ok.inj h]
  next => cases h

theorem timeBound_eq_ok {now : Moment} {v : Text} (hnow : moved settings.now settings.zone = .ok now)
    (h : timeBound expression settings now bound = .ok v) :
    ∃ m, meant? settings bound = some m ∧ formatMoment m settings.format = .ok v := by
  obtain ⟨resolved, hresolved, h⟩ := eq_ok_of_bind h
  obtain ⟨m, hm, h⟩ := eq_ok_of_bind h
  have hmeant : meant? settings bound = some m := by
    rw [meant?, moved_eq_ok hnow, Option.bind_eq_bind, Option.bind_some,
      eq_ok_of_mapError hresolved]
    exact moved_eq_ok hm
  exact ⟨m, hmeant, eq_ok_of_mapError h⟩

theorem answer_timeRange_eq_ok (h : answer expression settings key (.timeRange first last) = .ok f) :
    f.IsOfTime settings first last := by
  obtain ⟨values, hvalues, h⟩ := eq_ok_of_bind h
  obtain ⟨now, hnow, hvalues⟩ := eq_ok_of_bind hvalues
  obtain ⟨v, hv, hvalues⟩ := eq_ok_of_bind hvalues
  obtain ⟨v', hv', hvalues⟩ := eq_ok_of_bind hvalues
  obtain ⟨m, hm, hv⟩ := timeBound_eq_ok hnow hv
  obtain ⟨m', hm', hv'⟩ := timeBound_eq_ok hnow hv'
  cases hvalues
  cases h
  exact ⟨m, m', v, v', hm, hm', hv, hv', rfl, rfl⟩

end

/-! ## What is read -/

namespace Asked

variable [ZoneDatabase] {settings : TimeSettings} {aliases : Aliases} {f : Filter}

theorem parse_cases {expression : Text} (h : parse expression settings aliases = .ok f) :
    f.IsOfForm ∨ ∃ first last, (filter expression).bounds? = some (first, last) ∧
      f.IsOfTime settings first last := by
  unfold parse at h
  split at h
  next key w rest htokens =>
    obtain ⟨q, hq, h⟩ := eq_ok_of_bind h
    rcases question_eq_ok (eq_ok_of_mapError hq) with hform | htime
    · obtain ⟨form, operators, values, hspells, rfl⟩ := hform
      cases h
      exact Or.inl ⟨form, operators, values, hspells, rfl, rfl⟩
    · obtain ⟨hw, first, last, rfl, rfl⟩ := htime
      refine Or.inr ⟨_, _, ?_, answer_timeRange_eq_ok h⟩
      rw [bounds?, htokens]
      exact if_pos hw
  next => cases h

theorem parseTimeRange_cases {expression key : Text}
    (h : parseTimeRange expression settings key aliases = .ok f) :
    ∃ first last, (timeRange expression key).bounds? = some (first, last) ∧
      f.IsOfTime settings first last := by
  unfold parseTimeRange at h
  split at h
  next hsplit => exact ⟨_, _, by simp only [bounds?, hsplit], answer_timeRange_eq_ok h⟩
  next hsplit => exact ⟨_, _, by simp only [bounds?, hsplit], answer_timeRange_eq_ok h⟩
  next => cases h

/-- **What is read.** A filter that was read is what some form asks, or it limits the time to the
moments that its bounds mean. -/
theorem read_cases {a : Asked} (h : a.read settings aliases = .ok f) :
    f.IsOfForm ∨ ∃ first last, a.bounds? = some (first, last) ∧ f.IsOfTime settings first last := by
  cases a with
  | filter expression => exact parse_cases h
  | timeRange expression key => exact Or.inr (parseTimeRange_cases h)

end Asked
end LogQuery.Filter
