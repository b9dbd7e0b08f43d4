import LogQuery.Search.Event
import Mathlib.Data.List.Nodup
/-!
# Escaped values

A query text is read from left to right as a row of signs, each a character by itself or a character
behind a backslash (`signs`). Values are escaped by one replacement after another, each of them on the
text that the last one left. `escape_eq_spell` says that this is a single pass over the value
(`escapeSigns`): every special character gets a backslash, and every pair of ampersands or bars one in
front of the pair. No replacement touches what an earlier one wrote, because the backslash comes first
and no two special sequences share a character.

* `signs_escape`: the signs of an escaped value, in front of anything.
* `map_char_escapeSigns`: their characters are those of the value.
* `escape_neutral`: what is left of an escaped value without the escapes.
-/
namespace LogQuery.EventSearch

/-! ## Signs -/

/-- A sign of a query text. -/
inductive Sign where
  /-- A character by itself. -/
  | bare (p : CodePoint)
  /-- A character behind a backslash. -/
  | escaped (p : CodePoint)
  deriving DecidableEq

namespace Sign

def char : Sign → CodePoint
  | bare p => p
  | escaped p => p

def text : Sign → Text
  | bare p => [p]
  | escaped p => [.scalar '\\', p]

/-- The character of a sign without a backslash. -/
def bare? : Sign → Option CodePoint
  | bare p => some p
  | escaped _ => none

end Sign

def spell (row : List Sign) : Text := row.flatMap Sign.text

/-- The signs of a text. A backslash at the end has nothing behind it and stands by itself. -/
def signs : Text → List Sign
  | [] => []
  | [p] => [.bare p]
  | p :: q :: rest =>
    if p = .scalar '\\' then .escaped q :: signs rest else .bare p :: signs (q :: rest)

/-- What is left of a text without the backslashes and the characters behind them. -/
def remaining (t : Text) : Text := (signs t).filterMap Sign.bare?

@[simp] theorem spell_nil : spell [] = [] := rfl

@[simp] theorem spell_cons (s : Sign) (row : List Sign) : spell (s :: row) = s.text ++ spell row :=
  rfl

theorem spell_map_bare (t : Text) : spell (t.map .bare) = t := by
  induction t with
  | nil => rfl
  | cons p t ih => rw [List.map_cons, spell_cons, ih]; rfl

theorem signs_cons {p : CodePoint} (h : p ≠ .scalar '\\') (t : Text) :
    signs (p :: t) = .bare p :: signs t := by
  cases t with
  | nil => rfl
  | cons q t => rw [signs, if_neg h]

theorem signs_backslash (p : CodePoint) (t : Text) :
    signs (.scalar '\\' :: p :: t) = .escaped p :: signs t := by
  rw [signs, if_pos rfl]

theorem spell_signs (t : Text) : spell (signs t) = t := by
  induction t using signs.induct with
  | case1 => rfl
  | case2 p => rfl
  | case3 q rest ih => rw [signs_backslash, spell_cons, ih]; rfl
  | case4 p q rest hp ih => rw [signs_cons hp, spell_cons, ih]; rfl

theorem signs_spell {row : List Sign} (h : .bare (.scalar '\\') ∉ row) (t : Text) :
    signs (spell row ++ t) = row ++ signs t := by
  induction row with
  | nil => rfl
  | cons s row ih =>
    have hrow := ih fun hmem => h (List.mem_cons_of_mem s hmem)
    cases s with
    | bare p =>
      have hp : p ≠ .scalar '\\' := by
        rintro rfl
        exact h List.mem_cons_self
      rw [spell_cons, List.append_assoc, Sign.text, List.singleton_append, signs_cons hp, hrow]
      rfl
    | escaped p =>
      rw [spell_cons, List.append_assoc, Sign.text, List.cons_append, List.cons_append,
        signs_backslash, List.nil_append, hrow]
      rfl

/-! ## One pass -/

def Special.char : Special → CodePoint
  | single p => p
  | double p => p

/-- The sign of a character, given the special sequences that are escaped. -/
def Sign.of (done : List Special) (p : CodePoint) : Sign :=
  if .single p ∈ done then .escaped p else .bare p

/-- The signs of a value, given the special sequences that are escaped. Of a pair, which is found from
left to right, the first character gets a backslash. -/
def escapeSigns (done : List Special) : Text → List Sign
  | [] => []
  | [p] => [Sign.of done p]
  | p :: q :: rest =>
    if p = q ∧ .double p ∈ done then .escaped p :: .bare p :: escapeSigns done rest
    else Sign.of done p :: escapeSigns done (q :: rest)

section
variable {done : List Special} {p : CodePoint}

theorem escapeSigns_cons (h : .double p ∉ done) (t : Text) :
    escapeSigns done (p :: t) = Sign.of done p :: escapeSigns done t := by
  cases t with
  | nil => rfl
  | cons q t => rw [escapeSigns, if_neg fun hpair => h hpair.2]

theorem escapeSigns_pair (h : .double p ∈ done) (t : Text) :
    escapeSigns done (p :: p :: t) = .escaped p :: .bare p :: escapeSigns done t := by
  rw [escapeSigns, if_pos ⟨rfl, h⟩]

theorem escapeSigns_nil (t : Text) : escapeSigns [] t = t.map .bare := by
  induction t with
  | nil => rfl
  | cons p t ih => rw [escapeSigns_cons (List.not_mem_nil), ih]; rfl

@[simp] theorem Sign.char_of (done : List Special) (p : CodePoint) : (Sign.of done p).char = p := by
  unfold Sign.of
  split <;> rfl

theorem map_char_escapeSigns (done : List Special) (t : Text) :
    (escapeSigns done t).map Sign.char = t := by
  induction t using escapeSigns.induct done with
  | case1 => rfl
  | case2 p => simp [escapeSigns]
  | case3 p q rest hpair ih =>
    obtain ⟨rfl, hmem⟩ := hpair
    rw [escapeSigns_pair hmem, List.map_cons, List.map_cons, ih]
    rfl
  | case4 p q rest hpair ih => simp [escapeSigns, if_neg hpair, ih]

theorem mem_escapeSigns {s : Sign} {t : Text} (h : s ∈ escapeSigns done t) :
    s = Sign.of done s.char ∨ .double s.char ∈ done := by
  have hof : ∀ q, s = Sign.of done q → s = Sign.of done s.char := by
    rintro q rfl
    rw [Sign.char_of]
  induction t using escapeSigns.induct done with
  | case1 => cases h
  | case2 q => exact Or.inl (hof q (List.mem_singleton.mp h))
  | case3 q r rest hpair ih =>
    obtain ⟨rfl, hmem⟩ := hpair
    rw [escapeSigns_pair hmem, List.mem_cons, List.mem_cons] at h
    rcases h with rfl | rfl | h
    · exact Or.inr hmem
    · exact Or.inr hmem
    · exact ih h
  | case4 q r rest hpair ih =>
    rw [escapeSigns, if_neg hpair, List.mem_cons] at h
    exact h.elim (fun h => Or.inl (hof q h)) ih

theorem char_mem_of_escaped_mem {t : Text} (h : .escaped p ∈ escapeSigns done t) :
    p ∈ done.map Special.char := by
  rcases mem_escapeSigns h with h | h
  · have hmem : .single p ∈ done := by
      by_contra hmem
      simp [Sign.of, Sign.char, hmem] at h
    exact List.mem_map_of_mem hmem
  · exact List.mem_map_of_mem h

theorem single_not_mem_of_bare_mem {t : Text} (h : .bare p ∈ escapeSigns done t)
    (hdouble : .double p ∉ done) : .single p ∉ done := by
  intro hmem
  have hof := (mem_escapeSigns h).resolve_right hdouble
  simp [Sign.of, Sign.char, hmem] at hof

/-! ## One replacement -/

/-- A further character is escaped: where it stands by itself it gets a backslash. -/
def Sign.escapeAlso (p : CodePoint) (s : Sign) : Sign := if s = .bare p then .escaped p else s

theorem replaceSingle_spell {row : List Sign}
    (h : ∀ q, .escaped q ∈ row → q ≠ p ∧ p ≠ .scalar '\\') :
    replaceSingle p [.scalar '\\', p] (spell row) = spell (row.map (Sign.escapeAlso p)) := by
  induction row with
  | nil => rfl
  | cons s row ih =>
    have hrow := ih fun q hq => h q (List.mem_cons_of_mem s hq)
    have hs : replaceSingle p [.scalar '\\', p] s.text = (s.escapeAlso p).text := by
      cases s with
      | bare q =>
        by_cases hq : q = p
        · simp [replaceSingle, Sign.text, Sign.escapeAlso, hq]
        · simp [replaceSingle, Sign.text, Sign.escapeAlso, hq]
      | escaped q =>
        obtain ⟨hq, hslash⟩ := h q List.mem_cons_self
        simp [replaceSingle, Sign.text, Sign.escapeAlso, hq, hslash.symm]
    rw [spell_cons, List.map_cons, spell_cons, ← hrow, ← hs]
    exact List.flatMap_append

theorem Sign.of_concat_single (hp : .single p ∉ done) (q : CodePoint) :
    Sign.of (done ++ [.single p]) q = (Sign.of done q).escapeAlso p := by
  unfold Sign.of
  by_cases hq : q = p
  · subst hq
    simp [hp, Sign.escapeAlso]
  · by_cases hmem : .single q ∈ done <;> simp [hmem, hq, Sign.escapeAlso]

theorem Sign.of_concat_double (q : CodePoint) :
    Sign.of (done ++ [.double p]) q = Sign.of done q := by
  simp [Sign.of]

theorem escapeSigns_concat_single (hp : .single p ∉ done) (hpair : .double p ∉ done) (t : Text) :
    escapeSigns (done ++ [.single p]) t = (escapeSigns done t).map (Sign.escapeAlso p) := by
  induction t using escapeSigns.induct done with
  | case1 => rfl
  | case2 q => simp [escapeSigns, Sign.of_concat_single hp]
  | case3 q r rest hq ih =>
    obtain ⟨rfl, hmem⟩ := hq
    have hne : q ≠ p := by
      rintro rfl
      exact hpair hmem
    have hmem' : .double q ∈ done ++ [.single p] := List.mem_append_left _ hmem
    rw [escapeSigns_pair hmem', escapeSigns_pair hmem, ih]
    simp [Sign.escapeAlso, hne]
  | case4 q r rest hq ih =>
    have hq' : ¬ (q = r ∧ .double q ∈ done ++ [.single p]) := by simpa using hq
    rw [escapeSigns, if_neg hq', escapeSigns, if_neg hq, ih, Sign.of_concat_single hp, List.map_cons]

theorem replaceDouble_cons {q : CodePoint} {replacement t : Text} (h : q = p → t.head? ≠ some p) :
    replaceDouble p replacement (q :: t) = q :: replaceDouble p replacement t := by
  cases t with
  | nil => rfl
  | cons r t =>
    have hpair : ¬ (q = p ∧ r = p) := by
      rintro ⟨hq, rfl⟩
      exact h hq rfl
    rw [replaceDouble, if_neg hpair]

theorem replaceDouble_spell_cons {s : Sign} {row : List Sign} {replacement : Text}
    (hslash : p ≠ .scalar '\\') (h : s.char = p → (spell row).head? ≠ some p) :
    replaceDouble p replacement (spell (s :: row))
      = s.text ++ replaceDouble p replacement (spell row) := by
  rw [spell_cons]
  cases s with
  | bare q => exact replaceDouble_cons h
  | escaped q =>
    have hfront : CodePoint.scalar '\\' = p → (q :: spell row).head? ≠ some p :=
      fun hp => absurd hp.symm hslash
    exact (replaceDouble_cons hfront).trans (congrArg _ (replaceDouble_cons h))

theorem head?_spell_ne (hslash : p ≠ .scalar '\\') :
    ∀ {t : Text}, t.head? ≠ some p → (spell (escapeSigns done t)).head? ≠ some p := by
  have hof : ∀ s : Sign, s.char ≠ p → ∀ row, (spell (s :: row)).head? ≠ some p := by
    rintro (q | q) hq row heq
    · exact hq (Option.some.inj heq)
    · exact hslash (Option.some.inj heq).symm
  intro t ht
  match t with
  | [] => simp [escapeSigns]
  | [q] => exact hof _ (by simpa using ht) _
  | q :: r :: rest =>
    have hq : q ≠ p := by simpa using ht
    rw [escapeSigns]
    split
    · exact hof (.escaped q) hq _
    · exact hof _ (by simpa using hq) _

/-- Characters that are no new pair are none of the escaped pairs, if they were none before. -/
theorem not_pair_concat_double {q r : CodePoint} (h : ¬ (q = r ∧ .double q ∈ done))
    (hnew : ¬ (q = p ∧ r = p)) : ¬ (q = r ∧ .double q ∈ done ++ [.double p]) := by
  rintro ⟨rfl, hmem⟩
  simp only [List.mem_append, List.mem_singleton, Special.double.injEq] at hmem
  rcases hmem with hmem | hmem
  · exact h ⟨rfl, hmem⟩
  · exact hnew ⟨hmem, hmem⟩

/-- The replacement of pairs of a character escapes these, provided that none of its occurrences has
a backslash yet. -/
theorem replaceDouble_spell (hslash : p ≠ .scalar '\\') (hsingle : .single p ∉ done)
    (hpair : .double p ∉ done) : ∀ t : Text,
    replaceDouble p (.scalar '\\' :: [p, p]) (spell (escapeSigns done t))
      = spell (escapeSigns (done ++ [.double p]) t)
  | [] => rfl
  | [q] => by
    simp only [escapeSigns, Sign.of_concat_double]
    rw [replaceDouble_spell_cons hslash fun _ => by simp]
    rfl
  | q :: r :: rest => by
    have hbehind := replaceDouble_spell hslash hsingle hpair (r :: rest)
    have hrest := replaceDouble_spell hslash hsingle hpair rest
    by_cases hq : q = r ∧ .double q ∈ done
    · -- A pair of another character, which is escaped already.
      obtain ⟨rfl, hmem⟩ := hq
      have hne : q ≠ p := by
        rintro rfl
        exact hpair hmem
      have hfirst : (Sign.escaped q).char ≠ p := hne
      have hsecond : (Sign.bare q).char ≠ p := hne
      rw [escapeSigns_pair hmem, escapeSigns_pair (List.mem_append_left _ hmem),
        replaceDouble_spell_cons hslash fun h => absurd h hfirst,
        replaceDouble_spell_cons hslash fun h => absurd h hsecond, hrest]
      rfl
    by_cases hnew : q = p ∧ r = p
    · obtain ⟨rfl, rfl⟩ := hnew
      rw [escapeSigns_cons hpair, escapeSigns_cons hpair,
        escapeSigns_pair (List.mem_append_right _ List.mem_cons_self), spell_cons, spell_cons,
        spell_cons, spell_cons, ← hrest]
      simp [Sign.of, hsingle, Sign.text, replaceDouble]
    · have hhead : (Sign.of done q).char = p →
          (spell (escapeSigns done (r :: rest))).head? ≠ some p := by
        rw [Sign.char_of]
        exact fun hqp => head?_spell_ne hslash fun hr => hnew ⟨hqp, Option.some.inj hr⟩
      rw [escapeSigns, if_neg hq, escapeSigns, if_neg (not_pair_concat_double hq hnew),
        replaceDouble_spell_cons hslash hhead, hbehind, Sign.of_concat_double, spell_cons]

theorem replace_spell {s : Special} (hfresh : s.char ∉ done.map Special.char)
    (hslash : s.char ≠ .scalar '\\') (t : Text) :
    s.replace (.scalar '\\' :: s.text) (spell (escapeSigns done t))
      = spell (escapeSigns (done ++ [s]) t) := by
  have hnot : ∀ s' : Special, s'.char = s.char → s' ∉ done := fun s' hchar hmem =>
    hfresh (hchar ▸ List.mem_map_of_mem hmem)
  cases s with
  | single p =>
    have hrow : ∀ q, .escaped q ∈ escapeSigns done t → q ≠ p ∧ p ≠ .scalar '\\' := by
      intro q hq
      refine ⟨?_, hslash⟩
      rintro rfl
      exact hfresh (char_mem_of_escaped_mem hq)
    rw [escapeSigns_concat_single (hnot (.single p) rfl) (hnot (.double p) rfl)]
    exact replaceSingle_spell hrow
  | double p => exact replaceDouble_spell hslash (hnot (.single p) rfl) (hnot (.double p) rfl) t

theorem foldl_replace_spell {key : Text} (hkey : key ≠ messageKey) {todo : List Special}
    (hnodup : ((done ++ todo).map Special.char).Nodup)
    (hslash : .scalar '\\' ∈ done.map Special.char) (t : Text) :
    todo.foldl (fun u s => s.replace (s.escaped key) u) (spell (escapeSigns done t))
      = spell (escapeSigns (done ++ todo) t) := by
  induction todo generalizing done with
  | nil => rw [List.append_nil, List.foldl_nil]
  | cons s todo ih =>
    rw [List.append_cons] at hnodup ⊢
    have hfresh : s.char ∉ done.map Special.char := by
      rw [List.map_append, List.map_append, List.append_assoc] at hnodup
      have hseparate := (List.nodup_append.mp hnodup).2.2
      exact fun hmem => hseparate s.char hmem s.char (by simp) rfl
    have hne : s.char ≠ .scalar '\\' := fun heq => hfresh (heq ▸ hslash)
    rw [List.foldl_cons, Special.escaped, if_neg hkey, replace_spell hfresh hne]
    exact ih hnodup (by simpa using Or.inl hslash)

end

/-! ## Escaped values -/

theorem nodup_specials : (specials.map Special.char).Nodup := by decide

theorem single_not_mem_of_double_mem {p : CodePoint} (h : .double p ∈ specials) :
    .single p ∉ specials := by
  intro hmem
  have heq := List.inj_on_of_nodup_map nodup_specials hmem h rfl
  cases heq

/-- **A single pass.** The replacements together escape every special sequence of the value. -/
theorem escape_eq_spell {key : Text} (hkey : key ≠ messageKey) (v : Text) :
    escape key v = spell (escapeSigns specials v) := by
  obtain ⟨rest, hrest⟩ : ∃ rest, specials = .single (.scalar '\\') :: rest := ⟨_, rfl⟩
  have hnodup := nodup_specials
  rw [hrest] at hnodup
  have hslash : (Special.single (.scalar '\\')).replace [.scalar '\\', .scalar '\\'] v
      = spell (escapeSigns [.single (.scalar '\\')] v) := by
    have hrow : ∀ q, .escaped q ∈ v.map Sign.bare → q ≠ .scalar '\\' ∧
        CodePoint.scalar '\\' ≠ .scalar '\\' := by simp
    have h : escapeSigns ([] ++ [.single (.scalar '\\')]) v = _ :=
      escapeSigns_concat_single (by simp) (by simp) v
    rw [List.nil_append, escapeSigns_nil] at h
    rw [h, ← replaceSingle_spell hrow, spell_map_bare]
    rfl
  have hfold : _ = spell (escapeSigns ([.single (.scalar '\\')] ++ rest) v) :=
    foldl_replace_spell hkey hnodup List.mem_cons_self v
  rw [← hslash] at hfold
  rw [escape, hrest, List.foldl_cons, Special.escaped, if_neg hkey]
  exact hfold

theorem single_not_mem_specials {p : CodePoint} {v : Text}
    (h : .bare p ∈ escapeSigns specials v) : .single p ∉ specials := by
  by_cases hdouble : .double p ∈ specials
  · exact single_not_mem_of_double_mem hdouble
  · exact single_not_mem_of_bare_mem h hdouble

theorem signs_escape_append {key : Text} (hkey : key ≠ messageKey) (v t : Text) :
    signs (escape key v ++ t) = escapeSigns specials v ++ signs t := by
  rw [escape_eq_spell hkey]
  exact signs_spell (fun hmem => single_not_mem_specials hmem (by decide)) t

theorem signs_escape {key : Text} (hkey : key ≠ messageKey) (v : Text) :
    signs (escape key v) = escapeSigns specials v := by
  have h := signs_escape_append hkey v []
  rwa [List.append_nil, signs, List.append_nil] at h

/-! ## Values of the message -/

theorem mem_replaceSingle {p q : CodePoint} {replacement t : Text}
    (h : q ∈ replaceSingle p replacement t) : q ∈ replacement ∨ q ∈ t ∧ q ≠ p := by
  obtain ⟨r, hr, hq⟩ := List.mem_flatMap.mp h
  split at hq
  next => exact Or.inl hq
  next hne =>
    obtain rfl := List.mem_singleton.mp hq
    exact Or.inr ⟨hr, hne⟩

theorem mem_replaceDouble {p q : CodePoint} {replacement t : Text}
    (h : q ∈ replaceDouble p replacement t) : q ∈ replacement ∨ q ∈ t := by
  induction t using replaceDouble.induct p with
  | case1 => cases h
  | case2 r => exact Or.inr h
  | case3 r s rest hpair ih =>
    rw [replaceDouble, if_pos hpair, List.mem_append] at h
    rcases h with h | h
    · exact Or.inl h
    · exact (ih h).imp_right fun h => List.mem_cons_of_mem _ (List.mem_cons_of_mem _ h)
  | case4 r s rest hpair ih =>
    rw [replaceDouble, if_neg hpair, List.mem_cons] at h
    rcases h with rfl | h
    · exact Or.inr List.mem_cons_self
    · exact (ih h).imp_right fun h => List.mem_cons_of_mem _ h

theorem mem_foldl_replace {q : CodePoint} {todo : List Special} {t : Text}
    (h : q ∈ todo.foldl (fun u s => s.replace (s.escaped messageKey) u) t) :
    q = .scalar '?' ∨ q ∈ t ∧ .single q ∉ todo := by
  induction todo generalizing t with
  | nil => exact Or.inr ⟨h, List.not_mem_nil⟩
  | cons s todo ih =>
    rcases ih h with h | ⟨h, hmem⟩
    · exact Or.inl h
    · have hmark : ∀ {q : CodePoint}, q ∈ s.escaped messageKey → q = .scalar '?' :=
        fun h => List.mem_singleton.mp h
      cases s with
      | single p =>
        refine (mem_replaceSingle h).imp hmark fun ⟨hq, hne⟩ => ⟨hq, ?_⟩
        simp [hne, hmem]
      | double p => exact (mem_replaceDouble h).imp hmark fun hq => ⟨hq, by simp [hmem]⟩

theorem single_not_mem_of_mem_escape {q : CodePoint} {v : Text} (h : q ∈ escape messageKey v) :
    q = .scalar '?' ∨ .single q ∉ specials :=
  (mem_foldl_replace h).imp_right And.right

/-! ## What is left of an escaped value -/

/-- A text has a run of an odd number of the same character, three or more of them. -/
def HasOddRun (p : CodePoint) (t : Text) : Prop :=
  ∃ (before after : Text) (n : Nat), t = before ++ List.replicate (2 * n + 3) p ++ after ∧
    before.getLast? ≠ some p ∧ after.head? ≠ some p

theorem HasOddRun.cons {p q : CodePoint} {t : Text} (h : HasOddRun p t)
    (hq : q = p → t.head? ≠ some p) : HasOddRun p (q :: t) := by
  obtain ⟨before, after, n, rfl, hbefore, hafter⟩ := h
  refine ⟨q :: before, after, n, rfl, ?_, hafter⟩
  cases before with
  | nil =>
    rintro ⟨⟩
    exact hq rfl rfl
  | cons r before => simpa using hbefore

theorem HasOddRun.cons_pair {p q : CodePoint} {t : Text} (h : HasOddRun p t) :
    HasOddRun p (q :: q :: t) := by
  obtain ⟨before, after, n, rfl, hbefore, hafter⟩ := h
  cases before with
  | cons r before => exact ⟨q :: q :: r :: before, after, n, rfl, by simpa using hbefore, hafter⟩
  | nil =>
    by_cases hq : q = p
    · subst hq
      exact ⟨[], after, n + 1, rfl, hbefore, hafter⟩
    · exact ⟨[q, q], after, n, rfl, by simpa using hq, hafter⟩

theorem Sign.eq_of_of_eq_bare {done : List Special} {p q : CodePoint}
    (h : Sign.of done q = .bare p) : q = p := by
  have hchar := congrArg Sign.char h
  rwa [Sign.char_of] at hchar

/-- A character whose pairs are special is only left by itself in front of another one. -/
theorem exists_of_escapeSigns_eq_bare {p : CodePoint} (hp : .double p ∈ specials) {t : Text}
    {row : List Sign} (h : escapeSigns specials t = .bare p :: row) :
    ∃ rest, t = p :: rest ∧ rest.head? ≠ some p := by
  match t with
  | [] => cases h
  | [q] =>
    obtain rfl := Sign.eq_of_of_eq_bare (List.head_eq_of_cons_eq h)
    exact ⟨[], rfl, by simp⟩
  | q :: r :: rest =>
    rw [escapeSigns] at h
    split at h
    next => cases h
    next hpair =>
      obtain rfl := Sign.eq_of_of_eq_bare (List.head_eq_of_cons_eq h)
      refine ⟨r :: rest, rfl, ?_⟩
      rintro ⟨⟩
      exact hpair ⟨rfl, hp⟩

theorem hasOddRun_of_infix {p : CodePoint} (hp : .double p ∈ specials) {v : Text}
    (h : [.bare p, .bare p] <:+: escapeSigns specials v) : HasOddRun p v := by
  induction v using escapeSigns.induct specials with
  | case1 => simp [escapeSigns] at h
  | case2 q =>
    have hlength := h.length_le
    simp [escapeSigns] at hlength
  | case3 q r rest hpair ih =>
    obtain ⟨rfl, hmem⟩ := hpair
    rw [escapeSigns_pair hmem, List.infix_cons_iff, List.infix_cons_iff] at h
    rcases h with h | h | h
    · cases (List.cons_prefix_cons.mp h).1
    · -- The two are behind a pair, so that three are in front of what follows.
      obtain ⟨heq, hrow⟩ := List.cons_prefix_cons.mp h
      cases heq
      obtain ⟨row, hrow⟩ := hrow
      obtain ⟨rest', rfl, hhead⟩ := exists_of_escapeSigns_eq_bare hp hrow.symm
      exact ⟨[], rest', 0, rfl, by simp, hhead⟩
    · exact (ih h).cons_pair
  | case4 q r rest hpair ih =>
    have hnot : q = p → (r :: rest).head? ≠ some p := by
      rintro rfl ⟨⟩
      exact hpair ⟨rfl, hp⟩
    rw [escapeSigns, if_neg hpair, List.infix_cons_iff] at h
    rcases h with h | h
    · obtain ⟨heq, row, hrow⟩ := List.cons_prefix_cons.mp h
      obtain ⟨rest', hrest, -⟩ := exists_of_escapeSigns_eq_bare hp hrow.symm
      exact absurd (by rw [hrest]; rfl) (hnot (Sign.eq_of_of_eq_bare heq.symm))
    · exact (ih h).cons hnot

/-- **What is left of an escaped value.** Without the escapes, each a backslash and the character behind
it, no special character is left; and two characters that make a special pair are left beside each
other only where the value has an odd run of them, three or more. -/
theorem escape_neutral {key : Text} (hkey : key ≠ messageKey) (v : Text) :
    (∀ p, .single p ∈ specials → p ∉ remaining (escape key v)) ∧
    (∀ p, .double p ∈ specials → [.bare p, .bare p] <:+: signs (escape key v) → HasOddRun p v) := by
  rw [remaining, signs_escape hkey]
  refine ⟨fun p hp hmem => ?_, fun p hp h => hasOddRun_of_infix hp h⟩
  obtain ⟨s, hs, hbare⟩ := List.mem_filterMap.mp hmem
  cases s with
  | bare q =>
    cases hbare
    exact single_not_mem_specials hs hp
  | escaped q => cases hbare

theorem escape_neutral_mixed : ("code" : Text) ≠ messageKey ∧
    (∀ p, .single p ∈ specials → p ∉ remaining (escape "code" "a\\ && (b || c)")) ∧
    (∀ p, .double p ∈ specials →
      [.bare p, .bare p] <:+: signs (escape "code" "a\\ && (b || c)") →
        HasOddRun p ("a\\ && (b || c)" : Text)) :=
  ⟨by decide, escape_neutral (by decide) "a\\ && (b || c)"⟩

/-- Two ampersands that are no pair have no backslashes, and without the blank between them they meet. -/
theorem remaining_meets : ¬ ∀ key v : Text, key ≠ messageKey → ∀ s ∈ specials,
    ¬ s.text <:+: remaining (escape key v) := by
  intro h
  have hrow : remaining (escape "code" "& &") = ("&&" : Text) := by decide
  have hpair := h "code" "& &" (by decide) (.double (.scalar '&')) (by decide)
  rw [hrow] at hpair
  exact hpair (List.infix_refl _)

end LogQuery.EventSearch
