import LogQuery.Output.Render
import Mathlib.Data.List.Basic
/-!
# Showing records piece by piece

Records are shown one behind the other, so showing them all at once and showing them in two parts come
to the same bytes, and the whole can be shown iff both parts can (`render_append`).
-/
namespace LogQuery

theorem Utf8.encode?_append : ∀ s t : Text,
    Utf8.encode? (s ++ t) = (Utf8.encode? s).bind fun a => (Utf8.encode? t).map (a ++ ·)
  | [], t => by simp [Utf8.encode?]
  | .scalar c :: s, t => by
    simp only [List.cons_append, Utf8.encode?, encode?_append s t]
    cases Utf8.encode? s <;> cases Utf8.encode? t <;> simp
  | .surrogate o :: s, t => rfl

variable [Runtime]

theorem recordTexts_append (p : Profile) (xs ys : List Record) (c : Text) :
    recordTexts p (xs ++ ys) = .ok c ↔
      ∃ a b, recordTexts p xs = .ok a ∧ recordTexts p ys = .ok b ∧ c = a ++ b := by
  unfold recordTexts
  rw [List.mapM_append]
  cases xs.mapM (recordText p) with
  | error e => simp [bind, Except.bind, Except.map]
  | ok a =>
    cases ys.mapM (recordText p) with
    | error e => simp [bind, Except.bind, Except.map]
    | ok b => simp [bind, Except.bind, Except.map, pure, Except.pure, eq_comm]

/-- Records are shown if the format exists, every one has a text, and the texts are no lone
surrogates. -/
theorem render_eq_ok (p : Profile) (records : List Record) (b : Bytes) :
    render p records = .ok b ↔ p.hasFormat = true ∧
      ∃ text, recordTexts p records = .ok text ∧ Utf8.encode? text = some b := by
  unfold render
  cases p.hasFormat with
  | false => simp
  | true =>
    cases recordTexts p records with
    | error e => simp [bind, Except.bind]
    | ok text => cases h : Utf8.encode? text <;> simp [bind, Except.bind, h]

theorem render_nil {p : Profile} (h : p.hasFormat = true) : render p [] = .ok [] :=
  (render_eq_ok p [] []).mpr ⟨h, [], rfl, rfl⟩

theorem render_append (p : Profile) (xs ys : List Record) (c : Bytes) :
    render p (xs ++ ys) = .ok c ↔
      ∃ a b, render p xs = .ok a ∧ render p ys = .ok b ∧ c = a ++ b := by
  simp only [render_eq_ok, recordTexts_append]
  constructor
  · rintro ⟨hf, -, ⟨s, t, hs, ht, rfl⟩, hc⟩
    rw [Utf8.encode?_append] at hc
    obtain ⟨a, ha, hc⟩ := Option.bind_eq_some_iff.mp hc
    obtain ⟨b, hb, rfl⟩ := Option.map_eq_some_iff.mp hc
    exact ⟨a, b, ⟨hf, s, hs, ha⟩, ⟨hf, t, ht, hb⟩, rfl⟩
  · rintro ⟨a, b, ⟨hf, s, hs, ha⟩, ⟨-, t, ht, hb⟩, rfl⟩
    exact ⟨hf, s ++ t, ⟨s, t, hs, ht, rfl⟩, by simp [Utf8.encode?_append, ha, hb]⟩

end LogQuery
