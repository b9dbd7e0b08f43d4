import LogQuery.Proofs.Filter.Read
import LogQuery.Proofs.Search.Meaning
import LogQuery.Proofs.Text.Split
/-!
# Descriptions are expressions

The form in which a filter appears in messages has the grammar of filter expressions: the key, the symbol of
the operation, and each value in single quotes. Whatever a value looks like, its quotes keep it from being
taken for an operator or for several values, as long as no quote and no backslash is in it (`IsQuotable`).

* `tokenize_describe`: the tokens of a description, the marks of a symbol one by one.
* `parse_describe`: a described filter is read back, unless it is a time filter, whose bounds are resolved.
* `parseTimeRange_eq_ok_iff`: the short form of a time range is the description of a time filter with the
  trimmed bounds as values.
-/
namespace LogQuery

open Token (IsWord StartsNoWord isIdentifier isSpace isQuote scan?)

/-! ## Quoted values -/

/-- A text that can stand between single quotes. -/
def IsQuotable (t : Text) : Prop := .scalar '\'' ∉ t ∧ .scalar '\\' ∉ t

theorem IsQuotable.strip {t : Text} (h : IsQuotable t) : IsQuotable t.strip :=
  ⟨fun hmem => h.1 (Text.mem_of_mem_trim hmem), fun hmem => h.2 (Text.mem_of_mem_trim hmem)⟩

namespace Token

variable {t rest : Text}

/-- The token of a value in single quotes. -/
def quoted (t : Text) : Text := .scalar '\'' :: (t ++ [.scalar '\''])

theorem isInside_of_isQuotable : ∀ {t : Text}, IsQuotable t → IsInside (.scalar '\'') t
  | [], _ => .nil
  | p :: t, ⟨hquote, hslash⟩ => by
    rw [List.mem_cons, not_or] at hquote hslash
    exact .plain (Ne.symm hquote.1) (Or.inl (Ne.symm hslash.1))
      (isInside_of_isQuotable ⟨hquote.2, hslash.2⟩)

theorem not_isWord_quoted (t : Text) : ¬ IsWord (quoted t) := by
  rintro ⟨-, hall⟩
  rw [quoted, List.all_cons, Bool.and_eq_true] at hall
  exact absurd hall.1 (by decide)

theorem scan?_quoted (h : IsQuotable t) (rest : Text) :
    scan? (quoted t ++ rest) = (scan? rest).map (quoted t :: ·) :=
  scan?_token (.quoted (by decide) (isInside_of_isQuotable h))
    fun hword => absurd hword (not_isWord_quoted t)

theorem unquote_quoted (t : Text) : unquote (quoted t) = t := by
  have hquotes : isQuote (.scalar '\'') = true ∧
      (t ++ [CodePoint.scalar '\'']).getLast? = some (.scalar '\'') := ⟨by decide, List.getLast?_concat⟩
  simp only [quoted, unquote, if_pos hquotes, List.dropLast_concat]

theorem unquote_of_isWord (h : IsWord t) : unquote t = t := by
  obtain ⟨hne, hall⟩ := h
  obtain ⟨p, t, rfl⟩ := List.exists_cons_of_ne_nil hne
  rw [List.all_cons, Bool.and_eq_true] at hall
  have hquote : ¬ (isQuote p = true ∧ t.getLast? = some p) := by
    rintro ⟨hquote, -⟩
    rw [not_isIdentifier_of_isQuote hquote] at hall
    exact Bool.false_ne_true hall.1
  simp only [unquote, if_neg hquote]

theorem startsNoWord_blank (rest : Text) : StartsNoWord (.scalar ' ' :: rest) :=
  startsNoWord_cons (by decide)

/-- A row of quoted values with a blank in front of each. -/
def quotedRow (values : List Text) : Text := values.flatMap fun v => .scalar ' ' :: quoted v

theorem startsNoWord_quotedRow (values : List Text) : StartsNoWord (quotedRow values) := by
  cases values with
  | nil => exact fun p rest h => by cases h
  | cons v values => exact startsNoWord_blank _

theorem scan?_quotedRow : ∀ {values : List Text}, (∀ v ∈ values, IsQuotable v) →
    scan? (quotedRow values) = some (values.map quoted)
  | [], _ => by rw [quotedRow, List.flatMap_nil, scan?]; rfl
  | v :: values, h => by
    obtain ⟨hv, hvalues⟩ := List.forall_mem_cons.mp h
    have hrest := scan?_quotedRow hvalues
    rw [quotedRow] at hrest ⊢
    rw [List.flatMap_cons, List.cons_append, scan?_space (by decide), scan?_quoted hv, hrest]
    rfl

theorem scan?_marks : ∀ {t : Text},
    (∀ p ∈ t, isSpace p = false ∧ isIdentifier p = false ∧ isQuote p = false) → ∀ rest,
      scan? (t ++ rest) = (scan? rest).map (t.map ([·]) ++ ·)
  | [], _, rest => by
    cases h : scan? rest <;> simp [h]
  | p :: t, h, rest => by
    obtain ⟨⟨hs, hi, hq⟩, hrest⟩ := List.forall_mem_cons.mp h
    rw [List.cons_append, scan?_mark hs hi hq, scan?_marks hrest rest, Option.map_map]
    rfl

end Token

/-! ## Descriptions -/

/-- The tokens of the symbol of an operation: a word is one, and each mark is one. -/
def Operation.tokens (o : Operation) : List Text :=
  if o.symbol.all isIdentifier then [o.symbol] else o.symbol.map ([·])

theorem Operation.scan?_symbol {o : Operation} (ho : o ∈ known) {rest : Text} (hrest : StartsNoWord rest) :
    scan? (o.symbol ++ rest) = (scan? rest).map (o.tokens ++ ·) := by
  unfold tokens
  split
  next hword =>
    have hne : ∀ o ∈ known, o.symbol ≠ [] := by decide
    exact Token.scan?_word ⟨hne o ho, hword⟩ hrest
  next hmarks =>
    have hmark : ∀ o ∈ known, ¬ o.symbol.all isIdentifier = true → ∀ p ∈ o.symbol,
        isSpace p = false ∧ isIdentifier p = false ∧ isQuote p = false := by decide
    exact Token.scan?_marks (hmark o ho hmarks) rest

namespace Filter

variable {f : Filter} {settings : TimeSettings} {aliases : Aliases}

theorem describe_eq (f : Filter) :
    f.describe = f.key ++ .scalar ' ' :: (f.operation.symbol ++ Token.quotedRow f.values) := by
  rw [describe, List.cons_append, List.singleton_append, Text.join_cons, List.flatMap_cons,
    List.flatMap_map, Token.quotedRow]
  simp [Text.ofString, Text.ofChars, Text.single, Token.quoted]

/-- **The tokens of a description.** -/
theorem tokenize_describe (hkey : IsWord f.key) (hknown : f.operation ∈ Operation.known)
    (hvalues : ∀ v ∈ f.values, IsQuotable v) :
    Token.tokenize f.describe = f.key :: (f.operation.tokens ++ f.values.map Token.quoted) := by
  rw [Token.tokenize_eq_cons_iff, describe_eq, Token.scan?_word hkey (Token.startsNoWord_blank _),
    Token.scan?_space (by decide), Operation.scan?_symbol hknown (Token.startsNoWord_quotedRow _),
    Token.scan?_quotedRow hvalues]
  rfl

theorem exists_spells (hcomplete : f.IsComplete) (htime : f.operation ≠ .during) :
    ∃ form : Form, form.Spells f.operation.tokens (f.values.map Token.quoted) ∧
      form.operation = f.operation := by
  obtain ⟨key, operation, values⟩ := f
  have hone : (decide (values.length = 1)) = true → ∃ v, values = [v] := fun h =>
    List.length_eq_one_iff.mp (of_decide_eq_true h)
  have hsign : ∀ v, Token.quoted v ≠ "=" := fun v h => absurd (List.cons.inj h).1 (by decide)
  cases operation with
  | eq =>
    obtain ⟨v, rfl⟩ := hone hcomplete
    exact ⟨_, .alone .equal (hsign v), rfl⟩
  | gt =>
    obtain ⟨v, rfl⟩ := hone hcomplete
    exact ⟨_, .alone .greater (hsign v), rfl⟩
  | lt =>
    obtain ⟨v, rfl⟩ := hone hcomplete
    exact ⟨_, .alone .less (hsign v), rfl⟩
  | teq =>
    obtain ⟨v, rfl⟩ := hone hcomplete
    exact ⟨_, .withEquals .equal _, rfl⟩
  | gte =>
    obtain ⟨v, rfl⟩ := hone hcomplete
    exact ⟨_, .withEquals .greater _, rfl⟩
  | lte =>
    obtain ⟨v, rfl⟩ := hone hcomplete
    exact ⟨_, .withEquals .less _, rfl⟩
  | neq =>
    obtain ⟨v, rfl⟩ := hone hcomplete
    exact ⟨_, .differs _, rfl⟩
  | oneOf =>
    have hsome : 1 ≤ values.length := of_decide_eq_true hcomplete
    obtain ⟨v, values, rfl⟩ := List.exists_cons_of_length_pos hsome
    exact ⟨_, .oneOf rfl _ _, rfl⟩
  | between =>
    obtain ⟨v, w, rfl⟩ := List.length_eq_two.mp (of_decide_eq_true hcomplete)
    exact ⟨_, .between (Or.inl rfl) _ _, rfl⟩
  | exist =>
    obtain rfl := List.length_eq_zero_iff.mp (of_decide_eq_true hcomplete)
    exact ⟨_, .exist (Or.inl rfl), rfl⟩
  | absent =>
    obtain rfl := List.length_eq_zero_iff.mp (of_decide_eq_true hcomplete)
    exact ⟨_, .absent (Or.inl rfl), rfl⟩
  | during => exact absurd rfl htime
  | other name => cases hcomplete

theorem IsComplete.known (h : f.IsComplete) : f.operation ∈ Operation.known := by
  obtain ⟨key, operation, values⟩ := f
  cases operation with
  | other name => cases h
  | _ => simp [Operation.known]

/-- A described filter is read as a question about the field that its key is an alias of. -/
theorem parse_describe_alias [ZoneDatabase] (settings : TimeSettings) (aliases : Aliases)
    (hkey : IsWord f.key)
    (hcomplete : f.IsComplete) (htime : f.operation ≠ .during) (hvalues : ∀ v ∈ f.values, IsQuotable v) :
    parse f.describe settings aliases = .ok { f with key := aliases.apply f.key } := by
  obtain ⟨form, hspells, hoperation⟩ := exists_spells hcomplete htime
  rw [parse_of_spells (tokenize_describe hkey hcomplete.known hvalues) hspells,
    Token.unquote_of_isWord hkey, hoperation, List.map_map]
  have hunquote : Token.unquote ∘ Token.quoted = id := funext Token.unquote_quoted
  rw [hunquote, List.map_id]

/-- **A described filter is read back**, whatever its values look like, unless it is a time filter. -/
theorem parse_describe [ZoneDatabase] (f : Filter) (settings : TimeSettings) (hkey : IsWord f.key)
    (hcomplete : f.IsComplete) (htime : f.operation ≠ .during) (hvalues : ∀ v ∈ f.values, IsQuotable v) :
    parse f.describe settings [] = .ok f :=
  parse_describe_alias settings [] hkey hcomplete htime hvalues

/-- Values that look like an operator, like nothing, and like several lines of a filter. -/
def lookalikes : Filter :=
  { key := "code", operation := .oneOf, values := ["=", [], "a in b", "x\n!= \"y\""] }

attribute [local instance] Region.database in
theorem parse_describe_lookalikes :
    lookalikes.describe = Text.ofString "code in '=' '' 'a in b' 'x\n!= \"y\"'" ∧
    parse lookalikes.describe { now := default } [] = .ok lookalikes := by
  refine ⟨by decide, parse_describe lookalikes { now := default } ⟨by decide, by decide⟩ (by decide)
    (by decide) ?_⟩
  unfold IsQuotable
  decide

/-! ## Time ranges -/

/-- A time filter on the bounds as they are written. -/
def ofBounds (key first last : Text) : Filter := { key, operation := .during, values := [first, last] }

theorem describe_ofBounds (key first last : Text) :
    (ofBounds key first last).describe = key ++ " intime '" ++ first ++ "' '" ++ last ++ "'" := by
  simp [describe_eq, ofBounds, Operation.symbol, Token.quotedRow, Token.quoted, Text.ofString, Text.ofChars]

section
variable [ZoneDatabase] {expression expression' first last bound key : Text} {now : Moment}

/-- What a bound means does not depend on the expression that it stands in, only the report of an error
does. -/
theorem timeBound_eq_ok_of (expression' : Text) {v : Text}
    (h : timeBound expression settings now bound = .ok v) :
    timeBound expression' settings now bound = .ok v := by
  obtain ⟨m, hm, h⟩ := eq_ok_of_bind h
  rw [timeBound, eq_ok_of_mapError hm]
  exact h

theorem answer_eq_ok_of (expression' : Text) {q : Question}
    (h : answer expression settings key q = .ok f) : answer expression' settings key q = .ok f := by
  cases q with
  | plain operation values => exact h
  | timeRange first last =>
    obtain ⟨values, hvalues, h⟩ := eq_ok_of_bind h
    obtain ⟨now, hnow, hvalues⟩ := eq_ok_of_bind hvalues
    obtain ⟨v, hv, hvalues⟩ := eq_ok_of_bind hvalues
    obtain ⟨w, hw, hvalues⟩ := eq_ok_of_bind hvalues
    simp only [answer, timeBounds, hnow, timeBound_eq_ok_of expression' hv,
      timeBound_eq_ok_of expression' hw, bind, Except.bind]
    cases hvalues
    exact h

theorem answer_eq_ok_iff (expression expression' : Text) {q : Question} :
    answer expression settings key q = .ok f ↔ answer expression' settings key q = .ok f :=
  ⟨answer_eq_ok_of expression', answer_eq_ok_of expression⟩

theorem parse_ofBounds (settings : TimeSettings) (aliases : Aliases) (hkey : IsWord key)
    (hfirst : IsQuotable first) (hlast : IsQuotable last) :
    parse (ofBounds key first last).describe settings aliases
      = answer (ofBounds key first last).describe settings (aliases.apply key) (.timeRange first last) := by
  have hvalues : ∀ v ∈ (ofBounds key first last).values, IsQuotable v := by
    simp only [ofBounds, List.forall_mem_cons, List.not_mem_nil, false_imp_iff, implies_true, and_true]
    exact ⟨hfirst, hlast⟩
  have htokens : Token.tokenize (ofBounds key first last).describe
      = [key, Text.ofString "intime", Token.quoted first, Token.quoted last] :=
    tokenize_describe hkey (show Operation.during ∈ Operation.known by decide) hvalues
  simp only [parse, htokens, question_time (Or.inl rfl : IsTimeWord "intime"), twoValues,
    Token.unquote_of_isWord hkey, Token.unquote_quoted]
  rfl

theorem parseTimeRange_slash (settings : TimeSettings) (key : Text) (aliases : Aliases)
    (hfirst : .scalar '/' ∉ first) (hlast : .scalar '/' ∉ last) :
    parseTimeRange (first ++ "/" ++ last) settings key aliases
      = answer (first ++ "/" ++ last) settings (aliases.apply key)
          (.timeRange first.strip last.strip) := by
  have hsplit : (first ++ "/" ++ last).splitOn (.scalar '/') = [first, last] := by
    rw [List.append_assoc]
    show Text.splitOn _ (first ++ .scalar '/' :: last) = _
    rw [Text.splitOn_append_sep, Text.splitOn_of_not_mem hfirst, Text.splitOn_of_not_mem hlast]
    rfl
  simp only [parseTimeRange, hsplit]

/-- **The short form of a time filter.** With two bounds it is read just if the expression is that has the
trimmed bounds in quotes, and as the same filter; with one bound it ranges to the present; and there are no
other short forms. -/
theorem parseTimeRange_eq_ok_iff (settings : TimeSettings) (key : Text) (aliases : Aliases) :
    (∀ first last : Text, IsWord key → .scalar '/' ∉ first ∧ IsQuotable first →
      .scalar '/' ∉ last ∧ IsQuotable last →
      ∀ f, parseTimeRange (first ++ "/" ++ last) settings key aliases = .ok f ↔
        parse (key ++ " intime '" ++ first.strip ++ "' '" ++ last.strip ++ "'") settings aliases
          = .ok f) ∧
    (∀ first : Text, .scalar '/' ∉ first →
      ∀ f, parseTimeRange first settings key aliases = .ok f ↔
        parseTimeRange (first ++ "/now") settings key aliases = .ok f) ∧
    (∀ expression : Text, 2 ≤ expression.count (.scalar '/') →
      parseTimeRange expression settings key aliases
        = .error (.error (.tooManyDelimiters expression))) := by
  refine ⟨fun first last hkey hfirst hlast f => ?_, fun first hfirst f => ?_,
    fun expression hcount => ?_⟩
  · rw [parseTimeRange_slash settings key aliases hfirst.1 hlast.1, ← describe_ofBounds,
      parse_ofBounds settings aliases hkey hfirst.2.strip hlast.2.strip]
    exact answer_eq_ok_iff _ _
  · have hnow := parseTimeRange_slash settings key aliases hfirst
      (show CodePoint.scalar '/' ∉ Text.ofString "now" by decide)
    have hstrip : (Text.ofString "now").strip = Text.ofString "now" := by decide
    have hslash : first ++ Text.ofString "/now" = first ++ "/" ++ "now" := by
      rw [List.append_assoc]
      rfl
    rw [hslash, hnow, hstrip]
    simp only [parseTimeRange, Text.splitOn_of_not_mem hfirst]
    exact answer_eq_ok_iff _ _
  · have hlength := Text.length_splitOn (.scalar '/') expression
    unfold parseTimeRange
    split
    next h =>
      rw [h, List.length_singleton] at hlength
      omega
    next h =>
      rw [h, List.length_cons, List.length_singleton] at hlength
      omega
    next => rfl

end

/-- The beginning of a day in July. -/
def julySettings : TimeSettings where
  now := { date := ⟨2021, 7, 15, by decide⟩, time := .midnight, zone := .utc, later := false }

def dayBefore : Filter where
  key := timestampField
  operation := .during
  values := ["2021-07-14T00:00:00Z", "2021-07-15T00:00:00Z"]

attribute [local instance] Region.database in
/-- The day before with blanks around its bounds, with one bound, and with one too many. -/
theorem parseTimeRange_dayBefore :
    parse (timestampField ++ " intime '-1d' 'now'") julySettings [] = .ok dayBefore ∧
    parseTimeRange (" -1d " ++ "/" ++ "now") julySettings timestampField [] = .ok dayBefore ∧
    parseTimeRange " -1d " julySettings timestampField [] = .ok dayBefore ∧
    parseTimeRange "-1d/now/" julySettings timestampField []
      = .error (.error (.tooManyDelimiters "-1d/now/")) := by
  have hday : parse (timestampField ++ " intime '-1d' 'now'") julySettings [] = .ok dayBefore :=
    eq_ok_of_toOption (by decide +kernel)
  have hfirst : .scalar '/' ∉ Text.ofString " -1d " ∧ IsQuotable " -1d " := by
    unfold IsQuotable
    decide
  have hlast : .scalar '/' ∉ Text.ofString "now" ∧ IsQuotable "now" := by
    unfold IsQuotable
    decide
  obtain ⟨hboth, hone, hmany⟩ := parseTimeRange_eq_ok_iff julySettings timestampField []
  have hrange := (hboth " -1d " "now" ⟨by decide, by decide⟩ hfirst hlast dayBefore).mpr hday
  exact ⟨hday, hrange, (hone _ hfirst.1 dayBefore).mpr hrange, hmany _ (by decide)⟩

end Filter
end LogQuery
