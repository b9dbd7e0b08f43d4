import LogQuery.Proofs.Search.Escape
/-!
# Escaped values read back

Escaping loses nothing. A reader who drops each backslash and keeps the character behind it (`unescape`)
has the value again, because the signs of an escaped value have its characters one by one. In values of
the message special sequences are replaced and cannot be read back; what is sure there is that none of
them is left.

* `spell_escapeSigns`: the replacements are one pass over the value (`escapeOnce`).
* `pair_infix_of_foldl_replace`: wildcards put no pair together, and leave no special pair.
* `escape_lossless`: values of any field can be read back; values of the message hold no special sequence
  but the wildcard.
-/
namespace LogQuery.EventSearch

variable {p q mark : CodePoint} {t : Text}

/-! ## Reading back -/

/-- A text without its backslashes. From left to right, each of them goes and the character behind it
stays, whichever it is. -/
def unescape : Text → Text
  | [] => []
  | [p] => if p = .scalar '\\' then [] else [p]
  | p :: q :: rest =>
    if p = .scalar '\\' then q :: unescape rest else p :: unescape (q :: rest)

theorem unescape_cons (h : p ≠ .scalar '\\') (t : Text) : unescape (p :: t) = p :: unescape t := by
  cases t with
  | nil => exact if_neg h
  | cons q t => rw [unescape, if_neg h]

theorem unescape_backslash (p : CodePoint) (t : Text) :
    unescape (.scalar '\\' :: p :: t) = p :: unescape t := by
  rw [unescape, if_pos rfl]

theorem unescape_spell {row : List Sign} (h : .bare (.scalar '\\') ∉ row) :
    unescape (spell row) = row.map Sign.char := by
  induction row with
  | nil => rfl
  | cons s row ih =>
    have hrow := ih fun hmem => h (List.mem_cons_of_mem s hmem)
    rw [spell_cons, List.map_cons, ← hrow]
    cases s with
    | bare p =>
      have hp : p ≠ .scalar '\\' := by
        rintro rfl
        exact h List.mem_cons_self
      exact unescape_cons hp _
    | escaped p => exact unescape_backslash p _

/-- **Read back.** Without its backslashes an escaped value is the value. -/
theorem unescape_escape {key : Text} (hkey : key ≠ messageKey) (v : Text) :
    unescape (escape key v) = v := by
  have hslash : .bare (.scalar '\\') ∉ escapeSigns specials v := fun hmem =>
    single_not_mem_specials hmem (by decide)
  rw [escape_eq_spell hkey, unescape_spell hslash, map_char_escapeSigns]

/-! ## One pass over the characters -/

/-- A value with one backslash in front of each special character, and one in front of each pair of
ampersands or bars. Pairs are found from left to right and share no character. -/
def escapeOnce : Text → Text
  | [] => []
  | [p] => if .single p ∈ specials then [.scalar '\\', p] else [p]
  | p :: q :: rest =>
    if .single p ∈ specials then .scalar '\\' :: p :: escapeOnce (q :: rest)
    else if p = q ∧ (p = .scalar '&' ∨ p = .scalar '|') then .scalar '\\' :: p :: q :: escapeOnce rest
    else p :: escapeOnce (q :: rest)

theorem double_mem_specials : .double p ∈ specials ↔ p = .scalar '&' ∨ p = .scalar '|' := by
  simp [specials, Text.ofString, Text.ofChars]

theorem text_of (p : CodePoint) :
    (Sign.of specials p).text = if .single p ∈ specials then [.scalar '\\', p] else [p] := by
  unfold Sign.of
  split <;> rfl

theorem spell_escapeSigns (t : Text) : spell (escapeSigns specials t) = escapeOnce t := by
  induction t using escapeSigns.induct specials with
  | case1 => rfl
  | case2 p =>
    rw [escapeSigns, spell_cons, text_of, spell_nil, List.append_nil]
    rfl
  | case3 p q rest hpair ih =>
    obtain ⟨rfl, hmem⟩ := hpair
    rw [escapeSigns_pair hmem, spell_cons, spell_cons, ih, escapeOnce,
      if_neg (single_not_mem_of_double_mem hmem), if_pos ⟨rfl, double_mem_specials.mp hmem⟩]
    rfl
  | case4 p q rest hpair ih =>
    rw [escapeSigns, if_neg hpair, spell_cons, ih, text_of, escapeOnce]
    rw [double_mem_specials] at hpair
    rw [if_neg hpair]
    split <;> rfl

/-! ## Values of the message -/

/-- A pair of the same character begins in front of a text or behind its first character. -/
theorem pair_infix_cons :
    [p, p] <:+: q :: t ↔ q = p ∧ t.head? = some p ∨ [p, p] <:+: t := by
  rw [List.infix_cons_iff, List.cons_prefix_cons, eq_comm (a := p)]
  cases t with
  | nil => simp
  | cons r t => simp [eq_comm (a := p)]

theorem replaceSingle_cons (p q : CodePoint) (replacement t : Text) :
    replaceSingle p replacement (q :: t)
      = (if q = p then replacement else [q]) ++ replaceSingle p replacement t :=
  List.flatMap_cons

theorem head?_of_replaceSingle (hmark : mark ≠ p)
    (h : (replaceSingle q [mark] t).head? = some p) : t.head? = some p := by
  cases t with
  | nil => exact h
  | cons r t =>
    rw [replaceSingle_cons] at h
    split at h
    · exact absurd (Option.some.inj h) hmark
    · exact h

theorem head?_of_replaceDouble (hmark : mark ≠ p)
    (h : (replaceDouble q [mark] t).head? = some p) : t.head? = some p := by
  match t with
  | [] => exact h
  | [r] => exact h
  | r :: s :: t =>
    rw [replaceDouble] at h
    split at h
    · exact absurd (Option.some.inj h) hmark
    · exact h

theorem pair_infix_of_replaceSingle (hmark : mark ≠ p)
    (h : [p, p] <:+: replaceSingle q [mark] t) : [p, p] <:+: t := by
  induction t with
  | nil => exact h
  | cons r t ih =>
    rw [replaceSingle_cons] at h
    split at h
    · rw [List.singleton_append, pair_infix_cons] at h
      exact pair_infix_cons.mpr (Or.inr (ih (h.resolve_left fun h => hmark h.1)))
    · rw [List.singleton_append, pair_infix_cons] at h
      exact pair_infix_cons.mpr (h.imp (And.imp_right (head?_of_replaceSingle hmark)) ih)

theorem pair_infix_of_replaceDouble (hmark : mark ≠ p)
    (h : [p, p] <:+: replaceDouble q [mark] t) : [p, p] <:+: t ∧ q ≠ p := by
  induction t using replaceDouble.induct q with
  | case1 => simp [replaceDouble] at h
  | case2 r => simp [replaceDouble, pair_infix_cons] at h
  | case3 r s rest hpair ih =>
    rw [replaceDouble, if_pos hpair, List.singleton_append, pair_infix_cons] at h
    obtain ⟨hrest, hq⟩ := ih (h.resolve_left fun h => hmark h.1)
    exact ⟨pair_infix_cons.mpr (Or.inr (pair_infix_cons.mpr (Or.inr hrest))), hq⟩
  | case4 r s rest hpair ih =>
    rw [replaceDouble, if_neg hpair, pair_infix_cons] at h
    rcases h with ⟨rfl, hhead⟩ | h
    · have hs := head?_of_replaceDouble hmark hhead
      refine ⟨pair_infix_cons.mpr (Or.inl ⟨rfl, hs⟩), ?_⟩
      rintro rfl
      exact hpair ⟨rfl, Option.some.inj hs⟩
    · exact (ih h).imp_left fun h => pair_infix_cons.mpr (Or.inr h)

theorem pair_infix_of_foldl_replace (hmark : p ≠ .scalar '?') {todo : List Special} {t : Text}
    (h : [p, p] <:+: todo.foldl (fun u s => s.replace (s.escaped messageKey) u) t) :
    [p, p] <:+: t ∧ .double p ∉ todo := by
  induction todo generalizing t with
  | nil => exact ⟨h, List.not_mem_nil⟩
  | cons s todo ih =>
    obtain ⟨hpair, hmem⟩ := ih h
    cases s with
    | single q => exact ⟨pair_infix_of_replaceSingle hmark.symm hpair, by simp [hmem]⟩
    | double q =>
      obtain ⟨hpair, hq⟩ := pair_infix_of_replaceDouble hmark.symm hpair
      exact ⟨hpair, by simp [hmem, hq.symm]⟩

/-- **A value of the message** holds no special sequence but the wildcard. -/
theorem eq_wildcard_of_infix_escape {s : Special} {v : Text} (hs : s ∈ specials)
    (h : s.text <:+: escape messageKey v) : s = .single (.scalar '?') := by
  cases s with
  | single p =>
    have hmem : p ∈ escape messageKey v := h.subset List.mem_cons_self
    rw [(single_not_mem_of_mem_escape hmem).resolve_right (not_not_intro hs)]
  | double p =>
    have hmark : p ≠ .scalar '?' := by
      rintro rfl
      exact absurd hs (by decide)
    exact absurd hs (pair_infix_of_foldl_replace hmark h).2

/-! ## All values -/

/-- **Escaping loses nothing.** Values of any field but the message can be read back, so no two of them
have the same escaped form; and that form is one pass over the value. In values of the message no special
sequence but the wildcard is left. -/
theorem escape_lossless :
    (∀ key : Text, key ≠ messageKey →
      (∀ v, unescape (escape key v) = v) ∧ Function.Injective (escape key) ∧
        ∀ v, escape key v = escapeOnce v) ∧
    ∀ v, ∀ s ∈ specials, s.text <:+: escape messageKey v → s = .single (.scalar '?') := by
  refine ⟨fun key hkey => ⟨unescape_escape hkey, ?_, fun v => ?_⟩, fun v s => eq_wildcard_of_infix_escape⟩
  · exact Function.LeftInverse.injective (unescape_escape hkey)
  · rw [escape_eq_spell hkey, spell_escapeSigns]

/-- Backslashes, a pair and half of another one in a value, and in one of the message. -/
theorem escape_lossless_pairs :
    (("code" : Text) ≠ messageKey ∧ unescape (escape "code" "\\ &&&") = ("\\ &&&" : Text) ∧
      escape "code" "\\ &&&" = escapeOnce "\\ &&&") ∧
    (Special.single (.scalar '?') ∈ specials ∧ ("?" : Text) <:+: escape messageKey "\\ &&&" ∧
      ∀ s ∈ specials, s.text <:+: escape messageKey "\\ &&&" → s = .single (.scalar '?')) := by
  obtain ⟨hread, -, hpass⟩ := escape_lossless.1 "code" (by decide)
  exact ⟨⟨by decide, hread _, hpass _⟩, by decide, by decide, escape_lossless.2 _⟩

end LogQuery.EventSearch
