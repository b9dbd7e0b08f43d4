import LogQuery.Proofs.Filter.Token
import LogQuery.Proofs.Search.Term
/-!
# What a query text determines

The key of a term is written as it is, and it may have colons and minus signs in it. Nevertheless a
filter can be told from its term, if the key is a word that begins with no minus sign: the term of a
negative filter is the one that does, a bare colon is not found behind the one that ends the key, and
bare asterisks are just those around a phrase.

* `eq_of_termSigns_eq`: a filter is determined by its term.
* `text_determines`: a list of filters is determined by its query text.
-/
namespace LogQuery.EventSearch

/-- A filter with one value, a plain operation, and a word for its key. -/
structure IsPlain (f : Filter) : Prop where
  operation : f.operation = .eq ∨ f.operation = .teq ∨ f.operation = .neq
  values : ∃ v, f.values = [v]
  key : Token.IsWord f.key
  unsigned : f.key.head? ≠ some (.scalar '-')
  named : f.key ≠ messageKey

/-! ## The signs of a term -/

/-- The mark in front of the key. -/
def signFront (operation : Operation) : List Sign :=
  if operation = .neq then [.bare (.scalar '-')] else []

/-- The value and the marks around it. -/
def signBody (operation : Operation) (v : Text) : List Sign :=
  if operation = .eq then
    .bare (.scalar '*') :: (escapeSigns specials v ++ [.bare (.scalar '*')])
  else escapeSigns specials v

/-- The signs of the term of a filter with one value. -/
def termSigns (f : Filter) : List Sign :=
  signFront f.operation ++
    (f.key.map .bare ++ .bare (.scalar ':') :: signBody f.operation (f.values.headD []))

theorem not_mem_word {t : Text} (h : Token.IsWord t) {p : CodePoint}
    (hp : Token.isIdentifier p = false) : p ∉ t := by
  intro hmem
  rw [List.all_eq_true.mp h.2 p hmem] at hp
  cases hp

theorem signs_key_append {key : Text} (hkey : Token.IsWord key) (t : Text) :
    signs (key ++ t) = key.map .bare ++ signs t := by
  have hslash : .scalar '\\' ∉ key := not_mem_word hkey rfl
  rw [signs_append (by simpa [signs_plain hslash] using hslash), signs_plain hslash]

theorem IsPlain.exists_term {f : Filter} (h : IsPlain f) :
    ∃ t, Becomes f t ∧ signs t = termSigns f := by
  obtain ⟨key, operation, values⟩ := f
  obtain ⟨hoperation, ⟨v, hv⟩, hkey, -, hnamed⟩ := h
  cases hv
  have hpart : keyPart key = key ++ [.scalar ':'] := if_neg hnamed
  have hcolon : CodePoint.scalar ':' ≠ .scalar '\\' := by decide
  have hstar : CodePoint.scalar '*' ≠ .scalar '\\' := by decide
  have hminus : CodePoint.scalar '-' ≠ .scalar '\\' := by decide
  have hvalue := signs_escape_append hnamed v
  rcases hoperation with rfl | rfl | rfl
  · refine ⟨key ++ .scalar ':' :: .scalar '*' :: (escape key v ++ [.scalar '*']), fun q => ?_, ?_⟩
    · simp [EventQuery.add, hpart, Text.ofString, Text.ofChars]
    · rw [signs_key_append hkey, signs_cons hcolon, signs_cons hstar, hvalue]
      simp [termSigns, signFront, signBody, signs]
  · refine ⟨key ++ .scalar ':' :: escape key v, fun q => ?_, ?_⟩
    · simp [EventQuery.add, hpart]
    · rw [signs_key_append hkey, signs_cons hcolon, signs_escape hnamed]
      simp [termSigns, signFront, signBody]
  · refine ⟨.scalar '-' :: (key ++ .scalar ':' :: escape key v), fun q => ?_, ?_⟩
    · simp [EventQuery.add, hpart, Text.ofString, Text.ofChars]
    · rw [signs_cons hminus, signs_key_append hkey, signs_cons hcolon, signs_escape hnamed]
      simp [termSigns, signFront, signBody]

/-! ## Reading a term -/

theorem append_cons_inj_of_last {α : Type} {x : α} {front front' back back' : List α}
    (h : front ++ x :: back = front' ++ x :: back') (hback : x ∉ back) (hback' : x ∉ back') :
    front = front' ∧ back = back' := by
  rcases List.append_eq_append_iff.mp h with ⟨more, hfront, hmore⟩ | ⟨more, hfront, hmore⟩
  · cases more with
    | nil => exact ⟨by simpa using hfront.symm, (List.cons.inj hmore).2⟩
    | cons y more =>
      have hmem : x ∈ back := by rw [(List.cons.inj hmore).2]; simp
      exact absurd hmem hback
  · cases more with
    | nil => exact ⟨by simpa using hfront, (List.cons.inj hmore).2.symm⟩
    | cons y more =>
      have hmem : x ∈ back' := by rw [(List.cons.inj hmore).2]; simp
      exact absurd hmem hback'

theorem special_not_mem_escapeSigns {p : CodePoint} (hp : .single p ∈ specials) (v : Text) :
    .bare p ∉ escapeSigns specials v := fun hmem => single_not_mem_specials hmem hp

theorem colon_not_mem_signBody (operation : Operation) (v : Text) :
    .bare (.scalar ':') ∉ signBody operation v := by
  have hvalue := special_not_mem_escapeSigns (p := .scalar ':') (by decide) v
  unfold signBody
  split
  · simp [hvalue]
  · exact hvalue

theorem escapeSigns_injective {v w : Text} (h : escapeSigns specials v = escapeSigns specials w) :
    v = w := by
  have hchar := congrArg (List.map Sign.char) h
  rwa [map_char_escapeSigns, map_char_escapeSigns] at hchar

theorem eq_of_signBody_eq {o o' : Operation} {v w : Text} (h : signBody o v = signBody o' w) :
    (o = .eq ↔ o' = .eq) ∧ v = w := by
  have hstar := special_not_mem_escapeSigns (p := .scalar '*') (by decide)
  unfold signBody at h
  by_cases ho : o = .eq <;> by_cases ho' : o' = .eq
  · rw [if_pos ho, if_pos ho'] at h
    refine ⟨iff_of_true ho ho', escapeSigns_injective ?_⟩
    exact List.append_cancel_right (List.cons.inj h).2
  · rw [if_pos ho, if_neg ho'] at h
    exact absurd (h ▸ List.mem_cons_self) (hstar w)
  · rw [if_neg ho, if_pos ho'] at h
    exact absurd (h ▸ List.mem_cons_self) (hstar v)
  · rw [if_neg ho, if_neg ho'] at h
    exact ⟨iff_of_false ho ho', escapeSigns_injective h⟩

theorem IsPlain.operation_eq {f g : Filter} (hf : IsPlain f) (hg : IsPlain g)
    (hneq : f.operation = .neq ↔ g.operation = .neq) (heq : f.operation = .eq ↔ g.operation = .eq) :
    f.operation = g.operation := by
  rcases hf.operation with h | h | h <;> rcases hg.operation with h' | h' | h' <;>
    simp [h, h'] at hneq heq ⊢

theorem IsPlain.neq_iff {f : Filter} (h : IsPlain f) :
    f.operation = .neq ↔ (termSigns f).head? = some (.bare (.scalar '-')) := by
  obtain ⟨p, rest, hkey⟩ := List.exists_cons_of_ne_nil h.key.1
  have hp : p ≠ .scalar '-' := by
    rintro rfl
    exact h.unsigned (by rw [hkey]; rfl)
  unfold termSigns signFront
  split
  next hneq => simp [hneq]
  next hneq => simp [hneq, hkey, hp]

/-- **A filter is determined by its term.** -/
theorem eq_of_termSigns_eq {f g : Filter} (hf : IsPlain f) (hg : IsPlain g)
    (h : termSigns f = termSigns g) : f = g := by
  obtain ⟨v, hv⟩ := hf.values
  obtain ⟨w, hw⟩ := hg.values
  -- The front is told by the first sign, the key ends at the last colon by itself.
  have hneq : f.operation = .neq ↔ g.operation = .neq := by
    rw [hf.neq_iff, hg.neq_iff, h]
  have hfront : signFront f.operation = signFront g.operation := by simp only [signFront, hneq]
  unfold termSigns at h
  rw [hfront] at h
  obtain ⟨hkey, hbody⟩ := append_cons_inj_of_last (List.append_cancel_left h)
    (colon_not_mem_signBody _ _) (colon_not_mem_signBody _ _)
  obtain ⟨heq, hvalue⟩ := eq_of_signBody_eq hbody
  have hbare : Function.Injective Sign.bare := fun _ _ h => Sign.bare.inj h
  have hoperation := hf.operation_eq hg hneq heq
  cases f
  cases g
  simp only [Filter.mk.injEq] at hv hw hkey hvalue hoperation ⊢
  subst hv hw
  exact ⟨hbare.list_map hkey, hoperation, by simpa using hvalue⟩

/-! ## Reading a query text -/

theorem not_mem_termSigns {f : Filter} (hf : IsPlain f) {p : CodePoint}
    (hspecial : .single p ∈ specials) (hword : Token.isIdentifier p = false)
    (hstar : p ≠ .scalar '*') : .bare p ∉ termSigns f := by
  have hvalue := special_not_mem_escapeSigns hspecial
  have hmark : ∀ m : CodePoint, Token.isIdentifier m = true → p ≠ m := by
    rintro m hm rfl
    rw [hm] at hword
    cases hword
  have hfront : .bare p ∉ signFront f.operation := by
    unfold signFront
    split
    · simpa using hmark _ rfl
    · exact List.not_mem_nil
  have hbody : ∀ v, .bare p ∉ signBody f.operation v := by
    intro v
    unfold signBody
    split
    · simp [hvalue v, hstar]
    · exact hvalue v
  have hcolon : p ≠ .scalar ':' := hmark _ rfl
  simp [termSigns, hfront, hbody, hcolon, not_mem_word hf.key hword]

/-- A plain filter and its term. -/
structure IsTermOf (f : Filter) (t : Text) : Prop where
  plain : IsPlain f
  becomes : Becomes f t
  signs_eq : signs t = termSigns f

theorem exists_terms {filters : List Filter} (h : ∀ f ∈ filters, IsPlain f) :
    ∃ ts, List.Forall₂ IsTermOf filters ts := by
  induction filters with
  | nil => exact ⟨[], .nil⟩
  | cons f filters ih =>
    have hf := h f List.mem_cons_self
    obtain ⟨t, hbecomes, hsigns⟩ := hf.exists_term
    obtain ⟨ts, hts⟩ := ih fun g hg => h g (List.mem_cons_of_mem f hg)
    exact ⟨t :: ts, .cons ⟨hf, hbecomes, hsigns⟩ hts⟩

theorem barePieces_terms {filters : List Filter} {ts : List Text} (hne : filters ≠ [])
    (h : List.Forall₂ IsTermOf filters ts) :
    compile filters = .ok { terms := ts } ∧ barePieces (Text.join " " ts) = ts := by
  refine ⟨compile_of_becomes (h.imp fun f t hf => hf.becomes), barePieces_join ?_ ?_ ?_⟩
  · rintro rfl
    exact hne (List.forall₂_nil_right_iff.mp h)
  · intro t ht
    obtain ⟨f, -, hf⟩ := exists_filter_of_mem h t ht
    rw [hf.signs_eq]
    exact not_mem_termSigns hf.plain (by decide) rfl (by decide)
  · intro t ht
    obtain ⟨f, -, hf⟩ := exists_filter_of_mem h t ht
    rw [hf.signs_eq]
    exact not_mem_termSigns hf.plain (by decide) rfl (by decide)

theorem leftUnique_isTermOf : Relator.LeftUnique IsTermOf := fun _ _ _ hf hg =>
  eq_of_termSigns_eq hf.plain hg.plain (hf.signs_eq.symm.trans hg.signs_eq)

/-- **A query text determines its filters**, if these are plain, whatever their values. Cut up at the
spaces that no backslash escapes it has the term of every filter as one piece; and no other list of
plain filters has the same text. -/
theorem text_determines {filters : List Filter} (hne : filters ≠ [])
    (hplain : ∀ f ∈ filters, IsPlain f) :
    ∃ q, compile filters = .ok q ∧
      List.Forall₂ (fun f piece => compile [f] = .ok { terms := [piece] }) filters
        (barePieces q.text) ∧
      ∀ others : List Filter, others ≠ [] → (∀ g ∈ others, IsPlain g) →
        ∀ r, compile others = .ok r → r.text = q.text → others = filters := by
  obtain ⟨ts, hts⟩ := exists_terms hplain
  obtain ⟨hcompile, hpieces⟩ := barePieces_terms hne hts
  refine ⟨{ terms := ts }, hcompile, ?_, ?_⟩
  · rw [EventQuery.text, hpieces]
    exact hts.imp fun f t hf => hf.becomes.compile
  · intro others hothers hall r hr htext
    obtain ⟨us, hus⟩ := exists_terms hall
    obtain ⟨hcompile', hpieces'⟩ := barePieces_terms hothers hus
    rw [hcompile'] at hr
    cases hr
    have hsame : us = ts := by rw [← hpieces', ← hpieces]; exact congrArg barePieces htext
    exact leftUnique_isTermOf.forall₂ hus (hsame ▸ hts)

/-- Two filters whose values look like marks. -/
def markedFilters : List Filter :=
  [⟨"a:b", .eq, ["\\ *:"]⟩, ⟨"app", .neq, ["-x && \""]⟩]

theorem isPlain_markedFilters : ∀ f ∈ markedFilters, IsPlain f := by
  have hf : IsPlain ⟨"a:b", .eq, ["\\ *:"]⟩ :=
    ⟨.inl rfl, ⟨_, rfl⟩, ⟨by decide, by decide⟩, by decide, by decide⟩
  have hg : IsPlain ⟨"app", .neq, ["-x && \""]⟩ :=
    ⟨.inr (.inr rfl), ⟨_, rfl⟩, ⟨by decide, by decide⟩, by decide, by decide⟩
  exact List.forall_mem_cons.mpr ⟨hf, List.forall_mem_singleton.mpr hg⟩

theorem text_determines_marked : markedFilters ≠ [] ∧ (∀ f ∈ markedFilters, IsPlain f) ∧
    ∃ q, compile markedFilters = .ok q ∧
      List.Forall₂ (fun f piece => compile [f] = .ok { terms := [piece] }) markedFilters
        (barePieces q.text) ∧
      ∀ others : List Filter, others ≠ [] → (∀ g ∈ others, IsPlain g) →
        ∀ r, compile others = .ok r → r.text = q.text → others = markedFilters :=
  ⟨by decide, isPlain_markedFilters, text_determines (by decide) isPlain_markedFilters⟩

end LogQuery.EventSearch
