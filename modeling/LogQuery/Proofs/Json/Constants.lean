import LogQuery.Proofs.Json.ReadTree
import LogQuery.Proofs.Text.Split
/-!
# Names of numbers in a text

The names of the numbers without digits are words that stand outside of the strings of a text. So whether
a text has one shows when the contents of its strings are left out (`bare`). A reader that keeps to the
standard refuses an acceptable text for these names and for nothing else.

* `bare`, `HasConstant`: a text without the contents of its strings, and the names in it.
* `Agrees`: a reader without the names either reads the same, over no name, or it stops at one.
* `readValue_agrees`, `readItems_agrees`, `readMembers_agrees`: the parts of a document, by induction on
  the fuel.
* `readDocument_agrees`: a whole document.
-/
namespace LogQuery

namespace Json

/-- What is left of a text without the contents of its strings, of which only the opening quotes are
kept. The text may begin inside of a string. -/
def bare : (inString : Bool) → Text → Text
  | _, [] => []
  | false, p :: rest => p :: bare (p = .scalar '"') rest
  | true, .scalar '\\' :: _ :: rest => bare true rest
  | true, p :: rest => bare (p ≠ .scalar '"') rest

/-- The name of a number without digits stands in a text, outside of its strings. -/
def Names (c : Constant) (t : Text) : Prop := Text.ofString c.name <:+: bare false t

/-- Some name of a number without digits stands in a text, outside of its strings. -/
def HasConstant (t : Text) : Prop := ∃ c, Names c t

/-- A capital letter that the names of numbers have, and no other token. -/
def isCapital (p : CodePoint) : Bool := p = .scalar 'N' ∨ p = .scalar 'I'

theorem exists_capital (c : Constant) : ∃ p ∈ Text.ofString c.name, isCapital p = true := by
  cases c
  · exact ⟨.scalar 'N', by decide, rfl⟩
  · exact ⟨.scalar 'I', by decide, rfl⟩
  · exact ⟨.scalar 'I', by decide, rfl⟩

/-- From one place in a text to another there is no capital outside of the strings. -/
def Skims (t rest : Text) : Prop :=
  ∃ u, bare false t = u ++ bare false rest ∧ ∀ p ∈ u, isCapital p = false

theorem Skims.refl (t : Text) : Skims t t := ⟨[], rfl, nofun⟩

theorem Skims.trans {t m rest : Text} (h : Skims t m) (h' : Skims m rest) : Skims t rest := by
  obtain ⟨u, hu, hplain⟩ := h
  obtain ⟨v, hv, hplain'⟩ := h'
  refine ⟨u ++ v, by rw [hu, hv, List.append_assoc], ?_⟩
  intro p hp
  rcases List.mem_append.mp hp with hp | hp
  · exact hplain p hp
  · exact hplain' p hp

theorem Skims.names {t rest : Text} (h : Skims t rest) {c : Constant} (hc : Names c rest) :
    Names c t := by
  obtain ⟨u, hu, -⟩ := h
  unfold Names
  rw [hu]
  exact hc.trans (List.suffix_append u _).isInfix

theorem Skims.not_hasConstant {t : Text} (h : Skims t []) : ¬ HasConstant t := by
  obtain ⟨u, hu, hplain⟩ := h
  rintro ⟨c, hc⟩
  obtain ⟨p, hp, hcapital⟩ := exists_capital c
  have hmem : p ∈ bare false t := hc.subset hp
  rw [hu, bare, List.append_nil] at hmem
  rw [hplain p hmem] at hcapital
  cases hcapital

/-! ## Tokens without strings -/

/-- A code point that is neither a quote nor a capital. -/
def isCommon (p : CodePoint) : Bool := p ≠ .scalar '"' && !isCapital p

theorem bare_cons {p : CodePoint} (h : p ≠ .scalar '"') (t : Text) :
    bare false (p :: t) = p :: bare false t := by
  simp [bare, h]

theorem skims_cons {p : CodePoint} (h : isCommon p = true) (t : Text) : Skims (p :: t) t := by
  simp only [isCommon, ne_eq, Bool.and_eq_true, decide_eq_true_eq, Bool.not_eq_true'] at h
  refine ⟨[p], bare_cons h.1 t, ?_⟩
  intro q hq
  rw [List.mem_singleton.mp hq]
  exact h.2

theorem skims_append : ∀ {u : Text}, (∀ p ∈ u, isCommon p = true) → ∀ t : Text, Skims (u ++ t) t
  | [], _, t => .refl t
  | p :: u, h, t => by
    rw [List.forall_mem_cons] at h
    exact (skims_cons h.1 (u ++ t)).trans (skims_append h.2 t)

theorem isCommon_of_isSpace {p : CodePoint} (h : isSpace p = true) : isCommon p = true := by
  cases p with
  | surrogate o => cases h
  | scalar c =>
    simp only [isSpace, Bool.decide_or, Bool.or_eq_true, decide_eq_true_eq] at h
    obtain rfl | rfl | rfl | rfl := h <;> rfl

theorem isCommon_of_isAsciiDigit {p : CodePoint} (h : p.isAsciiDigit = true) : isCommon p = true := by
  have hcode := CodePoint.code_of_isAsciiDigit h
  have hne : ∀ c : Char, 0x39 < c.toNat ∨ c.toNat < 0x30 → p ≠ .scalar c := by
    rintro c hc rfl
    simp only [CodePoint.code] at hcode
    omega
  simp [isCommon, isCapital, hne '"' (by decide), hne 'N' (by decide), hne 'I' (by decide)]

theorem skims_skipSpace (t : Text) : Skims t (skipSpace t) := by
  have hspace : ∀ p ∈ t.takeWhile isSpace, isCommon p = true := fun p hp =>
    isCommon_of_isSpace (List.mem_takeWhile_imp hp)
  have h := skims_append hspace (skipSpace t)
  rwa [skipSpace, List.takeWhile_append_dropWhile] at h

theorem skims_mark {t rest : Text} {p : CodePoint} (h : skipSpace t = p :: rest)
    (hp : isCommon p = true) : Skims t rest := by
  have hspace := skims_skipSpace t
  rw [h] at hspace
  exact hspace.trans (skims_cons hp rest)

/-! ## Strings -/

theorem bare_inside {p : CodePoint} (hquote : p ≠ .scalar '"') (hbackslash : p ≠ .scalar '\\')
    (t : Text) : bare true (p :: t) = bare true t := by
  rw [bare.eq_def]
  split
  · rename_i heq
    cases heq
  · rename_i heq _
    cases heq
  · rename_i heq
    exact absurd (List.cons.inj heq).1 hbackslash
  · rename_i heq
    obtain ⟨rfl, rfl⟩ := List.cons.inj heq
    simp [hquote]

theorem bare_escape (p : CodePoint) (t : Text) : bare true (.scalar '\\' :: p :: t) = bare true t := by
  rw [bare]

theorem bare_hexDigit {p : CodePoint} {n : Nat} (h : p.hexDigit? = some n) (t : Text) :
    bare true (p :: t) = bare true t := by
  refine bare_inside ?_ ?_ t
  · rintro rfl
    cases h
  · rintro rfl
    cases h

theorem bare_hex4? {t rest : Text} {n : Nat} (h : hex4? t = some (n, rest)) :
    bare true t = bare true rest := by
  unfold hex4? at h
  split at h
  · obtain ⟨_, ha, h⟩ := Option.bind_eq_some_iff.mp h
    obtain ⟨_, hb, h⟩ := Option.bind_eq_some_iff.mp h
    obtain ⟨_, hc, h⟩ := Option.bind_eq_some_iff.mp h
    obtain ⟨_, hd, h⟩ := Option.bind_eq_some_iff.mp h
    cases h
    rw [bare_hexDigit ha, bare_hexDigit hb, bare_hexDigit hc, bare_hexDigit hd]
  · cases h

theorem bare_unicodeEscape {u p : CodePoint} {t rest : Text}
    (h : readUnicodeEscape u t = .ok (p, rest)) : bare true t = bare true rest := by
  unfold readUnicodeEscape at h
  split at h
  · cases h
  · cases h
  next hhex =>
    rw [bare_hex4? hhex]
    split at h
    · split at h
      · split at h
        · obtain rfl := (Prod.mk.inj (Except.ok.inj h)).2
          rfl
        split at h
        · cases h
        next hlow =>
          split at h
          · obtain rfl := (Prod.mk.inj (Except.ok.inj h)).2
            rw [bare_escape, bare_hex4? hlow]
          · obtain rfl := (Prod.mk.inj (Except.ok.inj h)).2
            rfl
      · obtain rfl := (Prod.mk.inj (Except.ok.inj h)).2
        rfl
    · obtain rfl := (Prod.mk.inj (Except.ok.inj h)).2
      rfl

theorem bare_readString {start : Text} : ∀ {fuel : Nat} {t s rest : Text},
    readString start fuel t = .ok (s, rest) → bare true t = bare false rest
  | fuel + 1, p :: t, s, rest, h => by
    unfold readString at h
    split at h
    next hquote =>
      cases h
      rw [hquote]
      simp [bare]
    next hquote =>
    split at h
    next hbackslash =>
      rw [hbackslash]
      split at h
      · cases h
      rw [bare_escape]
      split at h
      · obtain ⟨⟨q, after⟩, hescape, h⟩ := eq_ok_of_bind h
        obtain ⟨⟨tail, after'⟩, htail, h⟩ := eq_ok_of_bind h
        cases h
        rw [bare_unicodeEscape hescape]
        exact bare_readString htail
      · split at h
        · cases h
        · obtain ⟨⟨tail, after⟩, htail, h⟩ := eq_ok_of_bind h
          cases h
          exact bare_readString htail
    next hbackslash =>
      split at h
      · cases h
      · obtain ⟨⟨tail, after⟩, htail, h⟩ := eq_ok_of_bind h
        cases h
        rw [bare_inside hquote hbackslash]
        exact bare_readString htail
  | _ + 1, [], _, _, h => by cases h
  | 0, _, _, _, h => by cases h

theorem skims_string {start : Text} {fuel : Nat} {t s rest : Text}
    (h : readString start fuel t = .ok (s, rest)) : Skims (.scalar '"' :: t) rest := by
  refine ⟨[.scalar '"'], ?_, by decide⟩
  rw [← bare_readString h]
  simp [bare]

theorem skims_readName {t name rest : Text} (h : readName t = .ok (name, rest)) : Skims t rest := by
  unfold readName at h
  split at h
  next t' =>
    obtain ⟨⟨s, after⟩, hstring, h⟩ := eq_ok_of_bind h
    have hname := skims_string hstring
    simp only at h
    split at h
    next hskip =>
      obtain ⟨-, rfl⟩ := Prod.mk.inj (Except.ok.inj h)
      exact (hname.trans (skims_mark hskip rfl)).trans (skims_skipSpace _)
    next => cases h
  next => cases h

/-! ## Numbers and words -/

theorem skims_spanDigits {t digits rest : Text} (h : spanDigits t = (digits, rest)) : Skims t rest := by
  rw [spanDigits, List.span_eq_takeWhile_dropWhile] at h
  cases h
  have hdigits : ∀ p ∈ t.takeWhile CodePoint.isAsciiDigit, isCommon p = true := fun p hp =>
    isCommon_of_isAsciiDigit (List.mem_takeWhile_imp hp)
  have hskims := skims_append hdigits (t.dropWhile CodePoint.isAsciiDigit)
  rwa [List.takeWhile_append_dropWhile] at hskims

theorem skims_spanWhole? {t whole rest : Text} (h : spanWhole? t = some (whole, rest)) :
    Skims t rest := by
  cases t with
  | nil => cases h
  | cons p t =>
    simp only [spanWhole?] at h
    split at h
    next hzero =>
      obtain ⟨-, rfl⟩ := Prod.mk.inj (Option.some.inj h)
      have hp : isCommon p = true := by
        rw [hzero]
        rfl
      exact skims_cons hp t
    next =>
      split at h
      next hdigit =>
        obtain ⟨-, rfl⟩ := Prod.mk.inj (Option.some.inj h)
        exact (skims_cons (isCommon_of_isAsciiDigit hdigit) t).trans (skims_spanDigits rfl)
      next => cases h

theorem skims_spanFraction (t : Text) : Skims t (spanFraction t).2 := by
  unfold spanFraction
  split
  · split
    · exact .refl _
    next hdigits =>
      have hpoint : isCommon (.scalar '.') = true := rfl
      exact (skims_cons hpoint _).trans (skims_spanDigits hdigits)
  · exact .refl _

theorem skims_spanSign (t : Text) : Skims t (spanSign t).2 := by
  unfold spanSign
  split
  · exact skims_cons rfl _
  · exact skims_cons rfl _
  · exact .refl _

theorem skims_spanExponent (t : Text) : Skims t (spanExponent t).2 := by
  cases t with
  | nil => exact .refl _
  | cons p t =>
    simp only [spanExponent]
    split
    next hp =>
      split
      · exact .refl _
      next hdigits =>
        have hletter : isCommon p = true := by rcases hp with rfl | rfl <;> rfl
        exact ((skims_cons hletter t).trans (skims_spanSign t)).trans (skims_spanDigits hdigits)
    next => exact .refl _

theorem skims_readNumber {t rest : Text} {x : Tree} (h : readNumber t = .ok (x, rest)) :
    Skims t rest := by
  unfold readNumber at h
  split at h
  next sign unsigned hsign =>
  have hunsigned : Skims t unsigned := by
    split at hsign <;> cases hsign
    · exact skims_cons rfl _
    · exact .refl _
  split at h
  · cases h
  next whole behind hwhole =>
    have hskims : Skims t (spanExponent (spanFraction behind).2).2 :=
      ((hunsigned.trans (skims_spanWhole? hwhole)).trans (skims_spanFraction behind)).trans
        (skims_spanExponent _)
    split at h
    next fraction middle hfraction =>
    split at h
    next exponent rest' hexponent =>
    rw [hfraction, hexponent] at hskims
    split at h
    · split at h
      · cases h
      · obtain ⟨-, rfl⟩ := Prod.mk.inj (Except.ok.inj h)
        exact hskims
    · obtain ⟨-, rfl⟩ := Prod.mk.inj (Except.ok.inj h)
      exact hskims

theorem readWord?_cases {t rest : Text} {x : Tree} (h : readWord? t = some (x, rest)) :
    ((∀ c, x ≠ .constant c) ∧ Skims t rest) ∨ ∃ c, x = .constant c ∧ Names c t := by
  obtain ⟨⟨word, tree⟩, hmem, hword⟩ := List.exists_of_findSome?_eq_some h
  obtain ⟨rest', hdrop, heq⟩ := Option.map_eq_some_iff.mp hword
  obtain ⟨rfl, rfl⟩ := Prod.mk.inj heq
  obtain rfl := Text.eq_append_of_dropPrefix? hdrop
  have hnames : ∀ c : Constant, Names c (Text.ofString c.name ++ rest') := by
    intro c
    refine ⟨[], bare false rest', ?_⟩
    cases c <;> rfl
  simp only [words, List.mem_cons, Prod.mk.injEq, List.not_mem_nil, or_false] at hmem
  rcases hmem with ⟨rfl, rfl⟩ | ⟨rfl, rfl⟩ | ⟨rfl, rfl⟩ | ⟨rfl, rfl⟩ | ⟨rfl, rfl⟩ | ⟨rfl, rfl⟩
  · exact Or.inl ⟨by simp, skims_append (by decide) rest'⟩
  · exact Or.inl ⟨by simp, skims_append (by decide) rest'⟩
  · exact Or.inl ⟨by simp, skims_append (by decide) rest'⟩
  · exact Or.inr ⟨.nan, rfl, hnames .nan⟩
  · exact Or.inr ⟨.infinity, rfl, hnames .infinity⟩
  · exact Or.inr ⟨.minusInfinity, rfl, hnames .minusInfinity⟩

/-! ## Two readers -/

/-- What a reader without the names of numbers makes of a text that a reader with them accepts: the same,
and there is no name in what was read, or it stops at a name. -/
inductive Agrees {α : Type} (strict : Except Stop (α × Text)) (x : α) (t rest : Text) : Prop
  | same (h : strict = .ok (x, rest)) (hskims : Skims t rest)
  | named {c : Constant} (h : strict = .error (.constant c)) (hc : Names c t)

theorem Agrees.of_skims {α : Type} {strict : Except Stop (α × Text)} {x : α} {t t' rest : Text}
    (h : Agrees strict x t' rest) (hskims : Skims t t') : Agrees strict x t rest := by
  cases h with
  | same h hrest => exact .same h (hskims.trans hrest)
  | named h hc => exact .named h (hskims.names hc)

theorem Agrees.bind {α β : Type} {strict : Except Stop (α × Text)} {x : α} {y : β} {t m rest : Text}
    {f : α × Text → Except Stop (β × Text)} (h : Agrees strict x t m)
    (hf : Agrees (f (x, m)) y m rest) : Agrees (strict >>= f) y t rest := by
  cases h with
  | same h hskims =>
    rw [h]
    exact hf.of_skims hskims
  | named h hc => exact .named (by rw [h]; rfl) hc

theorem Agrees.map {α β : Type} {strict : Except Stop (α × Text)} {x : α} {t rest : Text}
    (h : Agrees strict x t rest) (f : α → β) :
    Agrees (strict >>= fun found => .ok (f found.1, found.2)) (f x) t rest :=
  h.bind (.same rfl (.refl rest))

theorem readAtom_agrees {t rest : Text} {x : Tree} (h : readAtom true t = .ok (x, rest)) :
    Agrees (readAtom false t) x t rest := by
  unfold readAtom at h ⊢
  cases hword : readWord? t with
  | none =>
    rw [hword] at h
    exact .same h (skims_readNumber h)
  | some found =>
    obtain ⟨word, behind⟩ := found
    have hcases := readWord?_cases hword
    rw [hword] at h
    rcases hcases with ⟨hword, hskims⟩ | ⟨c, rfl, hc⟩
    · cases word with
      | constant c => exact absurd rfl (hword c)
      | _ =>
        obtain ⟨rfl, rfl⟩ := Prod.mk.inj (Except.ok.inj h)
        exact .same rfl hskims
    · exact .named rfl hc

mutual

theorem readValue_agrees : ∀ (fuel : Nat) {depth : Nat} {t rest : Text} {x : Tree},
    readValue true fuel depth t = .ok (x, rest) → Agrees (readValue false fuel depth t) x t rest
  | fuel + 1, depth, t, rest, x, h => by
    unfold readValue at h ⊢
    split at h
    next t' =>
      obtain ⟨⟨s, after⟩, hstring, h⟩ := eq_ok_of_bind h
      obtain ⟨rfl, rfl⟩ := Prod.mk.inj (Except.ok.inj h)
      simp only [hstring]
      exact .same rfl (skims_string hstring)
    next t' =>
      split at h
      · cases h
      next hskip =>
        obtain ⟨rfl, rfl⟩ := Prod.mk.inj (Except.ok.inj h)
        exact .same rfl ((skims_cons rfl t').trans (skims_mark hskip rfl))
      next hskip =>
        obtain ⟨⟨items, after⟩, hitems, h⟩ := eq_ok_of_bind h
        obtain ⟨rfl, rfl⟩ := Prod.mk.inj (Except.ok.inj h)
        have hbracket : isCommon (.scalar '[') = true := rfl
        exact ((readItems_agrees fuel hitems).map Tree.list).of_skims
          ((skims_cons hbracket t').trans (skims_skipSpace t'))
    next t' =>
      split at h
      · cases h
      next hskip =>
        obtain ⟨rfl, rfl⟩ := Prod.mk.inj (Except.ok.inj h)
        exact .same rfl ((skims_cons rfl t').trans (skims_mark hskip rfl))
      next hskip =>
        obtain ⟨⟨members, after⟩, hmembers, h⟩ := eq_ok_of_bind h
        obtain ⟨rfl, rfl⟩ := Prod.mk.inj (Except.ok.inj h)
        have hbrace : isCommon (.scalar '\x7b') = true := rfl
        exact ((readMembers_agrees fuel hmembers).map (fun found => Tree.map (Text.ofPairs found))).of_skims
          ((skims_cons hbrace t').trans (skims_skipSpace t'))
    next => exact readAtom_agrees h

theorem readItems_agrees : ∀ (fuel : Nat) {depth : Nat} {t rest : Text} {items : List Tree},
    readItems true fuel depth t = .ok (items, rest) →
    Agrees (readItems false fuel depth t) items t rest
  | fuel + 1, depth, t, rest, items, h => by
    unfold readItems at h ⊢
    obtain ⟨⟨x, after⟩, hvalue, h⟩ := eq_ok_of_bind h
    refine (readValue_agrees fuel hvalue).bind ?_
    simp only at h ⊢
    split at h
    next hskip =>
      obtain ⟨rfl, rfl⟩ := Prod.mk.inj (Except.ok.inj h)
      exact .same rfl (skims_mark hskip rfl)
    next more hskip =>
      obtain ⟨⟨xs, after'⟩, hitems, h⟩ := eq_ok_of_bind h
      obtain ⟨rfl, rfl⟩ := Prod.mk.inj (Except.ok.inj h)
      exact ((readItems_agrees fuel hitems).map (x :: ·)).of_skims
        ((skims_mark hskip rfl).trans (skims_skipSpace more))
    next => cases h

theorem readMembers_agrees : ∀ (fuel : Nat) {depth : Nat} {t rest : Text}
    {members : List (Text × Tree)}, readMembers true fuel depth t = .ok (members, rest) →
    Agrees (readMembers false fuel depth t) members t rest
  | fuel + 1, depth, t, rest, members, h => by
    unfold readMembers at h ⊢
    obtain ⟨⟨name, behind⟩, hname, h⟩ := eq_ok_of_bind h
    obtain ⟨⟨x, after⟩, hvalue, h⟩ := eq_ok_of_bind h
    rw [hname]
    refine Agrees.of_skims ?_ (skims_readName hname)
    refine (readValue_agrees fuel hvalue).bind ?_
    simp only at h ⊢
    split at h
    next hskip =>
      obtain ⟨rfl, rfl⟩ := Prod.mk.inj (Except.ok.inj h)
      exact .same rfl (skims_mark hskip rfl)
    next more hskip =>
      obtain ⟨⟨es, after'⟩, hmembers, h⟩ := eq_ok_of_bind h
      obtain ⟨rfl, rfl⟩ := Prod.mk.inj (Except.ok.inj h)
      exact ((readMembers_agrees fuel hmembers).map ((name, x) :: ·)).of_skims
        ((skims_mark hskip rfl).trans (skims_skipSpace more))
    next => cases h

end

/-! ## Whole documents -/

/-- **A document that is read with the names of numbers** has no name in it and is read without them as
well, or the reader without them stops at one of its names. -/
theorem readDocument_agrees {depth : Nat} {t : Text} {x : Tree} (h : readDocument true depth t = .ok x) :
    (readDocument false depth t = .ok x ∧ ¬ HasConstant t) ∨
      (∃ c, readDocument false depth t = .error (.constant c) ∧ Names c t) := by
  obtain ⟨⟨y, rest⟩, hvalue, h⟩ := eq_ok_of_bind h
  have hagrees := (readValue_agrees _ hvalue).of_skims (skims_skipSpace t)
  simp only at h
  split at h
  next hend =>
    cases h
    cases hagrees with
    | same hsame hskims =>
      have hrest := skims_skipSpace rest
      rw [hend] at hrest
      refine Or.inl ⟨?_, (hskims.trans hrest).not_hasConstant⟩
      simp only [readDocument, hsame, bind, Except.bind, hend]
    | named hnamed hc =>
      refine Or.inr ⟨_, ?_, hc⟩
      simp only [readDocument, hnamed, bind, Except.bind]
  next => cases h

end Json
end LogQuery
