import LogQuery.Filter.Token
import Mathlib.Data.List.Chain
/-!
# The lexical grammar of filter expressions

What a row of tokens is, without regard to how it is found: words, quoted texts and single marks with
white space around them, and some white space between two words (`Row`). `scan?` finds the one row that
an expression spells, if there is one; there is none just if a quote is never closed (`IsUnclosed`).

* `quotedSpan?_eq_some_iff`: a quoted text ends at the first quote that nothing protects.
* `scan?_append`: a row in front of anything that does not go on with its last word is found.
* `scan?_eq_some_iff`, `scan?_eq_none_iff`: what is found, and when nothing is.
* `tokenize_grammar`: the tokens of every expression.
-/
namespace LogQuery.Token

/-! ## Classes of characters -/

theorem not_isIdentifier_of_isSpace {p : CodePoint} (h : isSpace p = true) :
    isIdentifier p = false := by
  have hmem : p ∈ [CodePoint.scalar ' ', .scalar '\t', .scalar '\r', .scalar '\n'] :=
    List.contains_iff_mem.mp h
  simp only [List.mem_cons, List.not_mem_nil, or_false] at hmem
  rcases hmem with rfl | rfl | rfl | rfl <;> rfl

theorem not_isSpace_of_isIdentifier {p : CodePoint} (h : isIdentifier p = true) :
    isSpace p = false := by
  cases hs : isSpace p with
  | false => rfl
  | true =>
    rw [not_isIdentifier_of_isSpace hs] at h
    cases h

theorem eq_of_isQuote {p : CodePoint} (h : isQuote p = true) :
    p = .scalar '\'' ∨ p = .scalar '"' ∨ p = backquote := by
  simpa [isQuote, or_assoc] using h

theorem not_isIdentifier_of_isQuote {p : CodePoint} (h : isQuote p = true) :
    isIdentifier p = false := by
  rcases eq_of_isQuote h with rfl | rfl | rfl <;> rfl

theorem not_isSpace_of_isQuote {p : CodePoint} (h : isQuote p = true) : isSpace p = false := by
  rcases eq_of_isQuote h with rfl | rfl | rfl <;> rfl

theorem ne_backslash_of_isQuote {p : CodePoint} (h : isQuote p = true) : p ≠ .scalar '\\' := by
  rcases eq_of_isQuote h with rfl | rfl | rfl <;> decide

/-! ## Quoted texts -/

/-- A text that can stand between two quotes: the quote occurs in it only where a backslash protects
it. A backslash between backquotes is a character like any other. -/
inductive IsInside (quote : CodePoint) : Text → Prop
  | nil : IsInside quote []
  | plain {p : CodePoint} {t : Text} (hquote : p ≠ quote)
    (hplain : p ≠ .scalar '\\' ∨ quote = backquote) (ht : IsInside quote t) : IsInside quote (p :: t)
  | escaped {p : CodePoint} {t : Text} (hquote : quote ≠ backquote) (ht : IsInside quote t) :
    IsInside quote (.scalar '\\' :: p :: t)

section
variable {quote p : CodePoint} {t inside after : Text}

theorem quotedSpan?_quote (hq : isQuote quote = true) (after : Text) :
    quotedSpan? quote (quote :: after) = some ([quote], after) := by
  have hslash := ne_backslash_of_isQuote hq
  cases after with
  | nil => simp [quotedSpan?]
  | cons q rest => simp [quotedSpan?, hslash]

theorem quotedSpan?_plain (hquote : p ≠ quote) (hplain : p ≠ .scalar '\\' ∨ quote = backquote)
    (t : Text) :
    quotedSpan? quote (p :: t) = (quotedSpan? quote t).map fun (i, a) => (p :: i, a) := by
  cases t with
  | nil => simp [quotedSpan?, hquote]
  | cons q rest =>
    have hopen : ¬ (p = .scalar '\\' ∧ quote ≠ backquote) := by
      rintro ⟨hp, hb⟩
      exact hplain.elim (fun h => h hp) hb
    simp only [quotedSpan?, Bool.and_eq_true, decide_eq_true_eq, if_neg hopen, if_neg hquote]

theorem quotedSpan?_escaped (hquote : quote ≠ backquote) (t : Text) :
    quotedSpan? quote (.scalar '\\' :: p :: t)
      = (quotedSpan? quote t).map fun (i, a) => (.scalar '\\' :: p :: i, a) := by
  simp [quotedSpan?, hquote]

theorem quotedSpan?_of_isInside (hq : isQuote quote = true) (h : IsInside quote inside)
    (after : Text) :
    quotedSpan? quote (inside ++ quote :: after) = some (inside ++ [quote], after) := by
  induction h with
  | nil => exact quotedSpan?_quote hq after
  | plain hquote hplain _ ih =>
    rw [List.cons_append, quotedSpan?_plain hquote hplain, ih]
    rfl
  | escaped hquote _ ih =>
    rw [List.cons_append, List.cons_append, quotedSpan?_escaped hquote, ih]
    rfl

theorem isInside_of_quotedSpan? {span : Text} (hq : isQuote quote = true)
    (h : quotedSpan? quote t = some (span, after)) :
    ∃ inside, IsInside quote inside ∧ span = inside ++ [quote] ∧ t = inside ++ quote :: after := by
  induction t using quotedSpan?.induct quote generalizing span after with
  | case1 => simp [quotedSpan?] at h
  | case2 =>
    obtain ⟨rfl, rfl⟩ : [quote] = span ∧ [] = after := by simpa [quotedSpan?] using h
    exact ⟨[], .nil, rfl, rfl⟩
  | case3 p hp => simp [quotedSpan?, hp] at h
  | case4 p q rest hp ih =>
    obtain ⟨rfl, hb⟩ : p = .scalar '\\' ∧ quote ≠ backquote := by simpa using hp
    rw [quotedSpan?_escaped hb] at h
    obtain ⟨⟨i, a⟩, hi, heq⟩ := Option.map_eq_some_iff.mp h
    cases heq
    obtain ⟨inside, hin, rfl, rfl⟩ := ih hi
    exact ⟨_, .escaped hb hin, rfl, rfl⟩
  | case5 q rest hp =>
    rw [quotedSpan?_quote hq] at h
    cases h
    exact ⟨[], .nil, rfl, rfl⟩
  | case6 p q rest hslash hp ih =>
    have hplain : p ≠ .scalar '\\' ∨ quote = backquote := by
      by_cases hb : quote = backquote
      · exact Or.inr hb
      · exact Or.inl fun hp => hslash (by simp [hp, hb])
    rw [quotedSpan?_plain hp hplain] at h
    obtain ⟨⟨i, a⟩, hi, heq⟩ := Option.map_eq_some_iff.mp h
    cases heq
    obtain ⟨inside, hin, rfl, hrest⟩ := ih hi
    exact ⟨_, .plain hp hplain hin, rfl, congrArg (p :: ·) hrest⟩

theorem quotedSpan?_eq_some_iff {span : Text} (hq : isQuote quote = true) :
    quotedSpan? quote t = some (span, after) ↔
      ∃ inside, IsInside quote inside ∧ span = inside ++ [quote] ∧ t = inside ++ quote :: after := by
  constructor
  · exact isInside_of_quotedSpan? hq
  · rintro ⟨inside, hin, rfl, rfl⟩
    exact quotedSpan?_of_isInside hq hin after

theorem quotedSpan?_eq_none_iff (hq : isQuote quote = true) :
    quotedSpan? quote t = none ↔
      ∀ inside after, IsInside quote inside → t ≠ inside ++ quote :: after := by
  constructor
  · rintro h inside after hin rfl
    rw [quotedSpan?_of_isInside hq hin] at h
    cases h
  · intro h
    cases hspan : quotedSpan? quote t with
    | none => rfl
    | some found =>
      obtain ⟨inside, hin, -, ht⟩ := isInside_of_quotedSpan? hq hspan
      exact absurd ht (h inside found.2 hin)

end

/-! ## Tokens -/

/-- A run of identifier characters. -/
def IsWord (t : Text) : Prop := t ≠ [] ∧ t.all isIdentifier = true

/-- What a row consists of: words, texts between two equal quotes, and single characters of any other
kind. -/
inductive IsToken : Text → Prop
  | word {t : Text} (h : IsWord t) : IsToken t
  | quoted {quote : CodePoint} {inside : Text} (hq : isQuote quote = true)
    (hin : IsInside quote inside) : IsToken (quote :: (inside ++ [quote]))
  | mark {p : CodePoint} (hs : isSpace p = false) (hi : isIdentifier p = false)
    (hq : isQuote p = false) : IsToken [p]

def StartsNoWord (t : Text) : Prop := ∀ p rest, t = p :: rest → isIdentifier p = false

theorem startsNoWord_cons {p : CodePoint} {t : Text} (h : isIdentifier p = false) :
    StartsNoWord (p :: t) := by
  intro q rest heq
  cases heq
  exact h

theorem startsNoWord_space {gap t : Text} (hgap : gap.all isSpace = true) (hne : gap ≠ []) :
    StartsNoWord (gap ++ t) := by
  obtain ⟨p, rest, rfl⟩ := List.exists_cons_of_ne_nil hne
  rw [List.all_cons, Bool.and_eq_true] at hgap
  exact startsNoWord_cons (not_isIdentifier_of_isSpace hgap.1)

theorem IsToken.startsNoWord {t : Text} (h : IsToken t) (hword : ¬ IsWord t) (rest : Text) :
    StartsNoWord (t ++ rest) := by
  cases h with
  | word h => exact absurd h hword
  | quoted hq _ => exact startsNoWord_cons (not_isIdentifier_of_isQuote hq)
  | mark _ hi _ => exact startsNoWord_cons hi

theorem IsWord.not_startsNoWord {t : Text} (h : IsWord t) (rest : Text) :
    ¬ StartsNoWord (t ++ rest) := by
  obtain ⟨hne, hall⟩ := h
  obtain ⟨p, t, rfl⟩ := List.exists_cons_of_ne_nil hne
  rw [List.all_cons, Bool.and_eq_true] at hall
  intro hstart
  rw [hstart p (t ++ rest) rfl] at hall
  cases hall.1

/-! ## Rows of tokens -/

/-- Tokens with white space in front of the first one and behind each of them. Between two words there
is some. -/
structure Row where
  lead : Text
  /-- Each token and the white space behind it. -/
  pieces : List (Text × Text)
  lead_isSpace : lead.all isSpace = true
  isToken : ∀ piece ∈ pieces, IsToken piece.1
  gap_isSpace : ∀ piece ∈ pieces, piece.2.all isSpace = true
  apart : pieces.IsChain fun a b => IsWord a.1 → IsWord b.1 → a.2 ≠ []

namespace Row

/-- The expression that a row spells. -/
def text (r : Row) : Text := r.lead ++ r.pieces.flatMap fun piece => piece.1 ++ piece.2

def tokens (r : Row) : List Text := r.pieces.map Prod.fst

/-- White space alone. -/
def ofSpace (lead : Text) (h : lead.all isSpace = true) : Row where
  lead
  pieces := []
  lead_isSpace := h
  isToken := by simp
  gap_isSpace := by simp
  apart := .nil

/-- A row behind one more white space. -/
def indent (p : CodePoint) (hp : isSpace p = true) (r : Row) : Row where
  lead := p :: r.lead
  pieces := r.pieces
  lead_isSpace := by rw [List.all_cons, hp, r.lead_isSpace]; rfl
  isToken := r.isToken
  gap_isSpace := r.gap_isSpace
  apart := r.apart

/-- Where a row has no white space in front, and its text no identifier character, its first token is
no word. -/
theorem startsNoWord_head {r : Row} (h : StartsNoWord r.text) (hlead : r.lead = [])
    {piece : Text × Text} (hpiece : r.pieces.head? = some piece) : ¬ IsWord piece.1 := by
  intro hword
  obtain ⟨pieces, hp⟩ := List.head?_eq_some_iff.mp hpiece
  rw [text, hlead, hp, List.nil_append, List.flatMap_cons, List.append_assoc] at h
  exact hword.not_startsNoWord _ h

def cons (t : Text) (ht : IsToken t) (r : Row) (h : IsWord t → StartsNoWord r.text) : Row where
  lead := []
  pieces := (t, r.lead) :: r.pieces
  lead_isSpace := rfl
  isToken := by
    intro piece hpiece
    rcases List.mem_cons.mp hpiece with rfl | hmem
    · exact ht
    · exact r.isToken piece hmem
  gap_isSpace := by
    intro piece hpiece
    rcases List.mem_cons.mp hpiece with rfl | hmem
    · exact r.lead_isSpace
    · exact r.gap_isSpace piece hmem
  apart := by
    refine List.isChain_cons.mpr ⟨?_, r.apart⟩
    intro piece hpiece hword hnext hlead
    exact startsNoWord_head (h hword) hlead hpiece hnext

@[simp] theorem text_ofSpace (lead : Text) (h : lead.all isSpace = true) :
    (ofSpace lead h).text = lead := by
  simp [ofSpace, text]

@[simp] theorem tokens_ofSpace (lead : Text) (h : lead.all isSpace = true) :
    (ofSpace lead h).tokens = [] := rfl

@[simp] theorem text_indent (p : CodePoint) (hp : isSpace p = true) (r : Row) :
    (r.indent p hp).text = p :: r.text := rfl

@[simp] theorem tokens_indent (p : CodePoint) (hp : isSpace p = true) (r : Row) :
    (r.indent p hp).tokens = r.tokens := rfl

@[simp] theorem text_cons (t : Text) (ht : IsToken t) (r : Row)
    (h : IsWord t → StartsNoWord r.text) : (cons t ht r h).text = t ++ r.text := by
  simp [cons, text]

@[simp] theorem tokens_cons (t : Text) (ht : IsToken t) (r : Row)
    (h : IsWord t → StartsNoWord r.text) : (cons t ht r h).tokens = t :: r.tokens := rfl

end Row

/-! ## Finding the tokens -/

section
variable {p : CodePoint} {t rest : Text}

theorem scan?_space (h : isSpace p = true) (t : Text) : scan? (p :: t) = scan? t := by
  rw [scan?, if_pos h]

theorem scan?_identifier (h : isIdentifier p = true) (t : Text) :
    scan? (p :: t)
      = (scan? (t.dropWhile isIdentifier)).map ((p :: t.takeWhile isIdentifier) :: ·) := by
  have hspace : ¬ isSpace p = true := by simp [not_isSpace_of_isIdentifier h]
  rw [scan?, if_neg hspace, if_pos h]

theorem scan?_quote (h : isQuote p = true) (t : Text) :
    scan? (p :: t)
      = (quotedSpan? p t).bind fun (span, after) => (scan? after).map ((p :: span) :: ·) := by
  have hspace : ¬ isSpace p = true := by simp [not_isSpace_of_isQuote h]
  have hident : ¬ isIdentifier p = true := by simp [not_isIdentifier_of_isQuote h]
  rw [scan?, if_neg hspace, if_neg hident, if_pos h]
  split
  next hspan => rw [hspan]; rfl
  next span after hspan => rw [hspan]; rfl

theorem scan?_mark (hs : isSpace p = false) (hi : isIdentifier p = false) (hq : isQuote p = false)
    (t : Text) : scan? (p :: t) = (scan? t).map ([p] :: ·) := by
  rw [scan?]
  simp only [hs, hi, hq, Bool.false_eq_true, if_false]

theorem scan?_lead {lead : Text} (h : lead.all isSpace = true) (t : Text) :
    scan? (lead ++ t) = scan? t := by
  induction lead with
  | nil => rfl
  | cons p lead ih =>
    rw [List.all_cons, Bool.and_eq_true] at h
    rw [List.cons_append, scan?_space h.1, ih h.2]

theorem takeWhile_of_startsNoWord (h : StartsNoWord rest) : rest.takeWhile isIdentifier = [] := by
  cases rest with
  | nil => rfl
  | cons p rest => rw [List.takeWhile_cons, h p rest rfl]; rfl

theorem dropWhile_of_startsNoWord (h : StartsNoWord rest) : rest.dropWhile isIdentifier = rest := by
  cases rest with
  | nil => rfl
  | cons p rest => rw [List.dropWhile_cons, h p rest rfl]; rfl

theorem scan?_word (h : IsWord t) (hrest : StartsNoWord rest) :
    scan? (t ++ rest) = (scan? rest).map (t :: ·) := by
  obtain ⟨hne, hall⟩ := h
  obtain ⟨p, t, rfl⟩ := List.exists_cons_of_ne_nil hne
  rw [List.all_cons, Bool.and_eq_true, List.all_eq_true] at hall
  obtain ⟨hp, ht⟩ := hall
  rw [List.cons_append, scan?_identifier hp, List.takeWhile_append_of_pos ht,
    List.dropWhile_append_of_pos ht, takeWhile_of_startsNoWord hrest,
    dropWhile_of_startsNoWord hrest, List.append_nil]

/-- A token is found in front of anything, a word in front of anything that does not go on with it. -/
theorem scan?_token (ht : IsToken t) (hrest : IsWord t → StartsNoWord rest) :
    scan? (t ++ rest) = (scan? rest).map (t :: ·) := by
  cases ht with
  | word hword => exact scan?_word hword (hrest hword)
  | quoted hq hin =>
    rw [List.cons_append, List.append_assoc, List.singleton_append, scan?_quote hq,
      quotedSpan?_of_isInside hq hin]
    rfl
  | mark hs hi hq => exact scan?_mark hs hi hq rest

/-- The pieces of a row in front of something that does not go on with their last word. -/
theorem Row.startsNoWord_behind {t gap : Text} {pieces : List (Text × Text)}
    (hgap : gap.all isSpace = true) (htoken : ∀ piece ∈ pieces, IsToken piece.1)
    (happart : ((t, gap) :: pieces).IsChain fun a b => IsWord a.1 → IsWord b.1 → a.2 ≠ [])
    (hword : IsWord t) (hrest : StartsNoWord rest) :
    StartsNoWord (gap ++ (pieces.flatMap fun piece => piece.1 ++ piece.2) ++ rest) := by
  by_cases hne : gap = []
  · subst hne
    cases pieces with
    | nil => exact hrest
    | cons next pieces =>
      have hnext : ¬ IsWord next.1 := fun h => (List.isChain_cons_cons.mp happart).1 hword h rfl
      rw [List.nil_append, List.flatMap_cons, List.append_assoc, List.append_assoc]
      exact (htoken next List.mem_cons_self).startsNoWord hnext _
  · rw [List.append_assoc]
    exact startsNoWord_space hgap hne

/-- **A row is found.** In front of anything that does not go on with its last word, a row of tokens is
found as it is. -/
theorem scan?_append (r : Row) (hrest : StartsNoWord rest) :
    scan? (r.text ++ rest) = (scan? rest).map (r.tokens ++ ·) := by
  obtain ⟨lead, pieces, hlead, htoken, hgap, happart⟩ := r
  -- The white space behind a token leads the row of the tokens behind it.
  induction pieces generalizing lead with
  | nil =>
    simp only [Row.text, Row.tokens, List.flatMap_nil, List.append_nil, List.map_nil,
      List.nil_append, scan?_lead hlead, Option.map_id']
  | cons piece pieces ih =>
    obtain ⟨t, gap⟩ := piece
    have hgap' : gap.all isSpace = true := hgap (t, gap) List.mem_cons_self
    have htoken' : ∀ piece ∈ pieces, IsToken piece.1 := fun piece h =>
      htoken piece (List.mem_cons_of_mem _ h)
    have htail := ih gap hgap' htoken' (fun piece h => hgap piece (List.mem_cons_of_mem _ h))
      (List.isChain_cons.mp happart).2
    simp only [Row.text, Row.tokens] at htail ⊢
    have hstart := fun hword : IsWord t =>
      Row.startsNoWord_behind hgap' htoken' happart hword hrest
    rw [List.flatMap_cons, List.append_assoc, scan?_lead hlead, List.append_assoc,
      List.append_assoc, ← List.append_assoc gap, scan?_token (htoken (t, gap) List.mem_cons_self) hstart,
      htail, Option.map_map]
    rfl

end

/-! ## What there is to find -/

/-- A text that begins with a quote that is never closed. -/
def StartsUnclosed (t : Text) : Prop :=
  ∃ quote rest, isQuote quote = true ∧ t = quote :: rest ∧
    ∀ inside after, IsInside quote inside → rest ≠ inside ++ quote :: after

/-- A quote of an expression, behind some whole tokens, is never closed. -/
def IsUnclosed (e : Text) : Prop := ∃ (r : Row) (rest : Text), e = r.text ++ rest ∧ StartsUnclosed rest

theorem StartsUnclosed.startsNoWord {t : Text} (h : StartsUnclosed t) : StartsNoWord t := by
  obtain ⟨quote, rest, hq, rfl, -⟩ := h
  exact startsNoWord_cons (not_isIdentifier_of_isQuote hq)

theorem StartsUnclosed.scan? {t : Text} (h : StartsUnclosed t) : scan? t = none := by
  obtain ⟨quote, rest, hq, rfl, hopen⟩ := h
  rw [scan?_quote hq, (quotedSpan?_eq_none_iff hq).mpr hopen]
  rfl

theorem StartsNoWord.of_append {t rest : Text} (h : StartsNoWord (t ++ rest)) : StartsNoWord t := by
  rintro p t rfl
  exact h p (t ++ rest) rfl

theorem startsNoWord_dropWhile (t : Text) : StartsNoWord (t.dropWhile isIdentifier) := by
  intro p rest h
  have hne : t.dropWhile isIdentifier ≠ [] := by rw [h]; exact List.cons_ne_nil p rest
  have hhead := List.head_dropWhile_not isIdentifier hne
  simpa only [h, List.head_cons] using hhead

theorem isWord_takeWhile {p : CodePoint} (h : isIdentifier p = true) (t : Text) :
    IsWord (p :: t.takeWhile isIdentifier) := by
  refine ⟨List.cons_ne_nil _ _, ?_⟩
  rw [List.all_cons, h, List.all_takeWhile]
  rfl

theorem exists_row (e : Text) :
    ∃ (r : Row) (rest : Text), e = r.text ++ rest ∧ (rest = [] ∨ StartsUnclosed rest) := by
  induction e using scan?.induct with
  | case1 => exact ⟨.ofSpace [] rfl, [], rfl, Or.inl rfl⟩
  | case2 p t hs ih =>
    obtain ⟨r, rest, rfl, hrest⟩ := ih
    exact ⟨r.indent p hs, rest, rfl, hrest⟩
  | case3 p t hs hi ih =>
    obtain ⟨r, rest, heq, hrest⟩ := ih
    have hstart : StartsNoWord r.text := (heq ▸ startsNoWord_dropWhile t).of_append
    refine ⟨.cons _ (.word (isWord_takeWhile hi t)) r fun _ => hstart, rest, ?_, hrest⟩
    rw [Row.text_cons, List.append_assoc, ← heq, List.cons_append, List.takeWhile_append_dropWhile]
  | case4 p t hs hi hq hspan =>
    exact ⟨.ofSpace [] rfl, p :: t, rfl,
      Or.inr ⟨p, t, hq, rfl, (quotedSpan?_eq_none_iff hq).mp hspan⟩⟩
  | case5 p t hs hi hq span after hspan ih =>
    obtain ⟨r, rest, rfl, hrest⟩ := ih
    obtain ⟨inside, hin, rfl, rfl⟩ := (quotedSpan?_eq_some_iff hq).mp hspan
    have hword : ¬ IsWord (p :: (inside ++ [p])) := by
      rintro ⟨-, hall⟩
      rw [List.all_cons, not_isIdentifier_of_isQuote hq] at hall
      cases hall
    refine ⟨.cons _ (.quoted hq hin) r fun h => absurd h hword, rest, ?_, hrest⟩
    simp only [Row.text_cons, List.cons_append, List.append_assoc, List.nil_append]
  | case6 p t hs hi hq ih =>
    obtain ⟨r, rest, rfl, hrest⟩ := ih
    have hword : ¬ IsWord [p] := by
      rintro ⟨-, hall⟩
      rw [List.all_cons, Bool.and_eq_true] at hall
      exact hi hall.1
    rw [Bool.not_eq_true] at hs hi hq
    refine ⟨.cons [p] (.mark hs hi hq) r fun h => absurd h hword, rest, ?_, hrest⟩
    rw [Row.text_cons]
    rfl

theorem scan?_text (r : Row) : scan? r.text = some r.tokens := by
  have hend : StartsNoWord [] := fun p rest h => by cases h
  have h := scan?_append r hend
  rw [List.append_nil] at h
  rw [h, scan?, Option.map_some, List.append_nil]

theorem scan?_eq_some_iff {e : Text} {ts : List Text} :
    scan? e = some ts ↔ ∃ r : Row, r.text = e ∧ r.tokens = ts := by
  constructor
  · intro h
    obtain ⟨r, rest, rfl, rfl | hopen⟩ := exists_row e
    · rw [List.append_nil, scan?_text] at h
      exact ⟨r, (List.append_nil _).symm, Option.some.inj h⟩
    · rw [scan?_append r hopen.startsNoWord, hopen.scan?] at h
      cases h
  · rintro ⟨r, rfl, rfl⟩
    exact scan?_text r

theorem scan?_eq_none_iff {e : Text} : scan? e = none ↔ IsUnclosed e := by
  constructor
  · intro h
    obtain ⟨r, rest, rfl, rfl | hopen⟩ := exists_row e
    · rw [List.append_nil, scan?_text] at h
      cases h
    · exact ⟨r, rest, rfl, hopen⟩
  · rintro ⟨r, rest, rfl, hopen⟩
    rw [scan?_append r hopen.startsNoWord, hopen.scan?]
    rfl

/-! ## The tokens of an expression -/

theorem filter_of_isSpace {gap : Text} (h : gap.all isSpace = true) :
    gap.filter (fun p => !isSpace p) = [] := by
  rw [List.filter_eq_nil_iff]
  intro p hp
  rw [List.all_eq_true.mp h p hp]
  decide

theorem Row.filter_text (r : Row) :
    r.text.filter (fun p => !isSpace p) = r.tokens.flatten.filter (fun p => !isSpace p) := by
  have hgap := r.gap_isSpace
  simp only [text, tokens, List.filter_append, filter_of_isSpace r.lead_isSpace,
    List.nil_append]
  generalize r.pieces = pieces at hgap
  induction pieces with
  | nil => rfl
  | cons piece pieces ih =>
    have hrest := ih fun piece h => hgap piece (List.mem_cons_of_mem _ h)
    simp only [List.flatMap_cons, List.filter_append, List.map_cons, List.flatten_cons, hrest,
      filter_of_isSpace (hgap piece List.mem_cons_self), List.append_nil]

theorem exists_row_nil_iff {e : Text} :
    (∃ r : Row, r.text = e ∧ r.tokens = []) ↔ e.all isSpace = true := by
  constructor
  · rintro ⟨r, rfl, htokens⟩
    have hpieces : r.pieces = [] := List.map_eq_nil_iff.mp htokens
    rw [Row.text, hpieces, List.flatMap_nil, List.append_nil]
    exact r.lead_isSpace
  · intro h
    exact ⟨.ofSpace e h, Row.text_ofSpace e h, rfl⟩

theorem tokenize_eq_cons_iff {e t : Text} {ts : List Text} :
    tokenize e = t :: ts ↔ scan? e = some (t :: ts) := by
  unfold tokenize
  cases scan? e <;> simp

theorem tokenize_eq_nil_iff {e : Text} :
    tokenize e = [] ↔ scan? e = some [] ∨ scan? e = none := by
  unfold tokenize
  cases scan? e <;> simp

/-- **The tokens of an expression.** They are those of the row that the expression spells. There are
none just if it spells no row of tokens, which is the case just if it is white space or a quote in it
is never closed. If no quote is, then nothing but white space gets lost. -/
theorem tokenize_grammar (e : Text) :
    (∀ t ts, tokenize e = t :: ts ↔ ∃ r : Row, r.text = e ∧ r.tokens = t :: ts) ∧
    (tokenize e = [] ↔ ¬ ∃ r : Row, r.text = e ∧ r.tokens ≠ []) ∧
    (tokenize e = [] ↔ e.all isSpace = true ∨ IsUnclosed e) ∧
    (IsUnclosed e ∨
      (tokenize e).flatten.filter (fun p => !isSpace p) = e.filter fun p => !isSpace p) := by
  have hcons : ∀ t ts, tokenize e = t :: ts ↔ ∃ r : Row, r.text = e ∧ r.tokens = t :: ts :=
    fun t ts => tokenize_eq_cons_iff.trans scan?_eq_some_iff
  refine ⟨hcons, ?_, ?_, ?_⟩
  · constructor
    · rintro hnil ⟨r, hr, hne⟩
      obtain ⟨t, ts, hts⟩ := List.exists_cons_of_ne_nil hne
      rw [(hcons t ts).mpr ⟨r, hr, hts⟩] at hnil
      cases hnil
    · intro hnone
      cases htokens : tokenize e with
      | nil => rfl
      | cons t ts =>
        obtain ⟨r, hr, hts⟩ := (hcons t ts).mp htokens
        exact absurd ⟨r, hr, hts ▸ List.cons_ne_nil t ts⟩ hnone
  · rw [tokenize_eq_nil_iff, scan?_eq_some_iff, scan?_eq_none_iff, exists_row_nil_iff]
  · cases hscan : scan? e with
    | none => exact Or.inl (scan?_eq_none_iff.mp hscan)
    | some ts =>
      obtain ⟨r, rfl, rfl⟩ := scan?_eq_some_iff.mp hscan
      refine Or.inr ?_
      rw [tokenize, hscan, r.filter_text]
      rfl

end LogQuery.Token
