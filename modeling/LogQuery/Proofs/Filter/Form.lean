import LogQuery.Calendar.Region
import LogQuery.Filter.Parse
import LogQuery.Proofs.Filter.Token
import Mathlib.Logic.ExistsUnique
/-!
# The forms of a filter expression

Behind its key a filter expression has the operator tokens of some form and value tokens behind them
(`Form.Spells`). The forms exclude one another, though operators are made of one token or two and a
token behind a mark may belong to the operator or be a value.

* `question_of_spells`: what a form asks.
* `question_cases`: tokens of no form are an error, and its report has the expression in it.
* `Form.unique`: tokens have one form at most.
* `parse_grammar`: which expressions are filters, and which filters they are.
-/
namespace LogQuery.Filter

/-! ## Forms -/

/-- A mark that compares, alone or with an equals sign behind it. -/
inductive Comparison where
  | equal
  | greater
  | less
  deriving DecidableEq

namespace Comparison

def mark : Comparison → Text
  | equal => "="
  | greater => ">"
  | less => "<"

/-- What the mark alone asks. -/
def alone : Comparison → Operation
  | equal => .eq
  | greater => .gt
  | less => .lt

/-- What the mark asks with an equals sign behind it. -/
def withEquals : Comparison → Operation
  | equal => .teq
  | greater => .gte
  | less => .lte

end Comparison

/-- The ways to write a filter. -/
inductive Form where
  | alone (c : Comparison)
  | withEquals (c : Comparison)
  | differs
  | oneOf
  | between
  | exist
  | absent
  /-- That a field is not there, in marks. -/
  | crossed
  deriving DecidableEq

namespace Form

def operation : Form → Operation
  | alone c => c.alone
  | withEquals c => c.withEquals
  | differs => .neq
  | oneOf => .oneOf
  | between => .between
  | exist => .exist
  | absent => .absent
  | crossed => .absent

/-- The operator tokens of a form, and the value tokens that may stand behind them. Words have
letters of either case. -/
inductive Spells : Form → (operators values : List Text) → Prop
  | alone (c : Comparison) {x : Text} (hx : x ≠ "=") : Spells (.alone c) [c.mark] [x]
  | withEquals (c : Comparison) (x : Text) : Spells (.withEquals c) [c.mark, ("=" : Text)] [x]
  | differs (x : Text) : Spells .differs [("!" : Text), ("=" : Text)] [x]
  | oneOf {w : Text} (hw : w.asciiLower = "in") (x : Text) (xs : List Text) :
    Spells .oneOf [w] (x :: xs)
  | between {w : Text} (hw : w.asciiLower = "bt" ∨ w.asciiLower = "between") (x y : Text) :
    Spells .between [w] [x, y]
  | exist {w : Text}
    (hw : w.asciiLower = "ex" ∨ w.asciiLower = "exists" ∨ w.asciiLower = "^") : Spells .exist [w] []
  | absent {w : Text} (hw : w.asciiLower = "nex" ∨ w.asciiLower = "notexists") :
    Spells .absent [w] []
  | crossed : Spells .crossed [("!" : Text), ("^" : Text)] []

def Matches (form : Form) (tokens : List Text) : Prop :=
  ∃ key operators values, tokens = key :: (operators ++ values) ∧ form.Spells operators values

end Form

/-- A word for a time range, in letters of any case. -/
def IsTimeWord (w : Text) : Prop := w.asciiLower = "intime" ∨ w.asciiLower = "time"
  deriving Decidable

/-! ## What a form asks -/

/-- The marks that operators begin with. -/
def marks : List Text := ["=", ">", "<", "!"]

section
variable {expression w : Text} {rest : List Text} {form : Form} {operators values : List Text}

theorem isString_iff {t : Text} {s : String} : t.isString s = true ↔ t = Text.ofString s := by
  rw [Text.isString, beq_iff_eq]

theorem not_mark_of_asciiLower {word : Text} (hw : w.asciiLower = word) (hword : word ∉ marks) :
    w ∉ marks := by
  intro hmem
  have hcase : ∀ m ∈ marks, m.asciiLower = m := by decide
  rw [hcase w hmem] at hw
  exact hword (hw ▸ hmem)

theorem not_isString_of_not_mark (hw : w ∉ marks) {m : String} (hm : Text.ofString m ∈ marks) :
    ¬ w.isString m = true := by
  intro h
  rw [isString_iff.mp h] at hw
  exact hw hm

theorem comparison?_mark (c : Comparison) : comparison? c.mark = some (c.alone, c.withEquals) := by
  cases c <;> rfl

theorem comparison?_eq_none (hw : w ∉ marks) : comparison? w = none := by
  unfold comparison?
  rw [if_neg (not_isString_of_not_mark hw (by decide)),
    if_neg (not_isString_of_not_mark hw (by decide)),
    if_neg (not_isString_of_not_mark hw (by decide))]

theorem exists_comparison {pair : Operation × Operation} (h : comparison? w = some pair) :
    ∃ c : Comparison, w = c.mark ∧ pair = (c.alone, c.withEquals) := by
  unfold comparison? at h
  split at h
  next hw => exact ⟨.equal, isString_iff.mp hw, (Option.some.inj h).symm⟩
  split at h
  next hw => exact ⟨.greater, isString_iff.mp hw, (Option.some.inj h).symm⟩
  split at h
  next hw => exact ⟨.less, isString_iff.mp hw, (Option.some.inj h).symm⟩
  next => cases h

theorem not_mark (hc : comparison? w = none) (hbang : w ≠ "!") : w ∉ marks := by
  intro hmem
  simp only [marks, List.mem_cons, List.not_mem_nil, or_false] at hmem
  rcases hmem with rfl | rfl | rfl | rfl
  · exact absurd hc (by decide)
  · exact absurd hc (by decide)
  · exact absurd hc (by decide)
  · exact hbang rfl

theorem question_word {word : Text} (hw : w.asciiLower = word) (hnot : w ∉ marks) :
    question expression w rest =
      if word.isString "in" then someValues expression .oneOf rest
      else if ["bt", "between"].any word.isString then
        twoValues expression (fun first last => .plain .between [first, last]) rest
      else if ["intime", "time"].any word.isString then twoValues expression .timeRange rest
      else if ["ex", "exists", "^"].any word.isString then noValue expression .exist rest
      else if ["nex", "notexists"].any word.isString then noValue expression .absent rest
      else .error (.unknownOperation expression w) := by
  unfold question
  rw [comparison?_eq_none hnot]
  simp only [if_neg (not_isString_of_not_mark hnot (m := "!") (by decide)), hw]

theorem question_alone (c : Comparison) {x : Text} (hx : x ≠ "=") (rest : List Text) :
    question expression c.mark (x :: rest) = oneValue expression c.alone (x :: rest) := by
  simp only [question, comparison?_mark]
  split
  next heq =>
    cases heq
    exact absurd rfl hx
  next => rfl

theorem question_withEquals (c : Comparison) (rest : List Text) :
    question expression c.mark (("=" : Text) :: rest) = oneValue expression c.withEquals rest := by
  simp only [question, comparison?_mark]
  rfl

theorem question_comparison_nil (c : Comparison) :
    question expression c.mark [] = .error (.missingValue expression) := by
  simp only [question, comparison?_mark]
  rfl

theorem question_differs (rest : List Text) :
    question expression "!" (("=" : Text) :: rest) = oneValue expression .neq rest := rfl

theorem question_crossed (rest : List Text) :
    question expression "!" (("^" : Text) :: rest) = noValue expression .absent rest := rfl

theorem question_bang (hne : rest.head? ≠ some "=" ∧ rest.head? ≠ some "^") :
    question expression "!" rest = .error (.badNegation expression (rest.headD [])) := by
  have hbang : comparison? "!" = none := rfl
  have hstring : (Text.ofString "!").isString "!" = true := rfl
  simp only [question, hbang, hstring, if_true]
  split
  next => exact absurd rfl hne.2
  next => exact absurd rfl hne.1
  next => rfl

/-- **What a form asks.** -/
theorem question_of_spells (h : form.Spells (w :: rest) values) :
    question expression w (rest ++ values)
      = .ok (.plain form.operation (values.map Token.unquote)) := by
  cases h with
  | alone c hx => exact question_alone c hx []
  | withEquals c x => exact question_withEquals c [x]
  | differs x => exact question_differs [x]
  | oneOf hw x xs =>
    rw [question_word hw (not_mark_of_asciiLower hw (by decide))]
    rfl
  | between hw x y =>
    rcases hw with hw | hw <;>
      rw [question_word hw (not_mark_of_asciiLower hw (by decide))] <;> rfl
  | exist hw =>
    rcases hw with hw | hw | hw <;>
      rw [question_word hw (not_mark_of_asciiLower hw (by decide))] <;> rfl
  | absent hw =>
    rcases hw with hw | hw <;>
      rw [question_word hw (not_mark_of_asciiLower hw (by decide))] <;> rfl
  | crossed => exact question_crossed []

/-! ## Tokens of no form -/

theorem isInfix_inFilter (expression reason : Text) :
    expression <:+: ParseError.inFilter expression reason :=
  ⟨"failed to parse filter='", "': " ++ reason, by
    simp only [ParseError.inFilter, List.append_assoc]⟩

/-- The result is an error whose report has the expression in it. -/
def IsRejected (expression : Text) (result : Except ParseError Question) : Prop :=
  ∃ e, result = .error e ∧ expression <:+: e.message

theorem isRejected_missingValue (expression : Text) :
    IsRejected expression (.error (.missingValue expression)) :=
  ⟨_, rfl, isInfix_inFilter _ _⟩

theorem isRejected_tooManyValues (expression : Text) :
    IsRejected expression (.error (.tooManyValues expression)) :=
  ⟨_, rfl, isInfix_inFilter _ _⟩

theorem oneValue_cases (expression : Text) (operation : Operation) (rest : List Text) :
    (∃ x, rest = [x]) ∨ IsRejected expression (oneValue expression operation rest) := by
  match rest with
  | [] => exact Or.inr (isRejected_missingValue expression)
  | [x] => exact Or.inl ⟨x, rfl⟩
  | _ :: _ :: _ => exact Or.inr (isRejected_tooManyValues expression)

theorem twoValues_cases (expression : Text) (ask : Text → Text → Question) (rest : List Text) :
    (∃ x y, rest = [x, y]) ∨ IsRejected expression (twoValues expression ask rest) := by
  match rest with
  | [] => exact Or.inr (isRejected_missingValue expression)
  | [_] => exact Or.inr (isRejected_missingValue expression)
  | [x, y] => exact Or.inl ⟨x, y, rfl⟩
  | _ :: _ :: _ :: _ => exact Or.inr (isRejected_tooManyValues expression)

theorem noValue_cases (expression : Text) (operation : Operation) (rest : List Text) :
    rest = [] ∨ IsRejected expression (noValue expression operation rest) := by
  cases rest with
  | nil => exact Or.inl rfl
  | cons x rest => exact Or.inr (isRejected_tooManyValues expression)

theorem someValues_cases (expression : Text) (operation : Operation) (rest : List Text) :
    (∃ x xs, rest = x :: xs) ∨ IsRejected expression (someValues expression operation rest) := by
  cases rest with
  | nil => exact Or.inr ⟨_, rfl, isInfix_inFilter _ _⟩
  | cons x xs => exact Or.inl ⟨x, xs, rfl⟩

/-- The tokens behind the key are those of a form. -/
def HasForm (w : Text) (rest : List Text) : Prop :=
  ∃ (form : Form) (operators values : List Text), form.Spells (w :: operators) values ∧
    rest = operators ++ values

theorem comparison_cases (c : Comparison) (rest : List Text) :
    HasForm c.mark rest ∨ IsRejected expression (question expression c.mark rest) := by
  cases rest with
  | nil =>
    rw [question_comparison_nil]
    exact Or.inr (isRejected_missingValue expression)
  | cons x rest =>
    by_cases hx : x = "="
    · subst hx
      rw [question_withEquals]
      rcases oneValue_cases expression c.withEquals rest with ⟨v, rfl⟩ | h
      · exact Or.inl ⟨_, _, _, .withEquals c v, rfl⟩
      · exact Or.inr h
    · rw [question_alone c hx]
      rcases oneValue_cases expression c.alone (x :: rest) with ⟨v, hv⟩ | h
      · cases hv
        exact Or.inl ⟨_, _, _, .alone c hx, rfl⟩
      · exact Or.inr h

theorem bang_cases (expression : Text) (rest : List Text) :
    HasForm "!" rest ∨ IsRejected expression (question expression "!" rest) := by
  by_cases heq : rest.head? = some "="
  · obtain ⟨rest, rfl⟩ := List.head?_eq_some_iff.mp heq
    rw [question_differs]
    rcases oneValue_cases expression .neq rest with ⟨x, rfl⟩ | h
    · exact Or.inl ⟨_, _, _, .differs x, rfl⟩
    · exact Or.inr h
  by_cases hcaret : rest.head? = some "^"
  · obtain ⟨rest, rfl⟩ := List.head?_eq_some_iff.mp hcaret
    rw [question_crossed]
    rcases noValue_cases expression .absent rest with rfl | h
    · exact Or.inl ⟨_, _, _, .crossed, rfl⟩
    · exact Or.inr h
  · rw [question_bang ⟨heq, hcaret⟩]
    exact Or.inr ⟨_, rfl, isInfix_inFilter _ _⟩

theorem word_cases (hw : w ∉ marks) (htime : ¬ IsTimeWord w) (rest : List Text) :
    HasForm w rest ∨ IsRejected expression (question expression w rest) := by
  rw [question_word rfl hw]
  split
  next hin =>
    rcases someValues_cases expression .oneOf rest with ⟨x, xs, rfl⟩ | h
    · exact Or.inl ⟨_, _, _, .oneOf (isString_iff.mp hin) x xs, rfl⟩
    · exact Or.inr h
  split
  next hbetween =>
    rcases twoValues_cases expression _ rest with ⟨x, y, rfl⟩ | h
    · refine Or.inl ⟨_, _, _, .between ?_ x y, rfl⟩
      simpa [isString_iff] using hbetween
    · exact Or.inr h
  split
  next htimes =>
    refine absurd ?_ htime
    simpa [isString_iff, IsTimeWord] using htimes
  split
  next hexist =>
    rcases noValue_cases expression .exist rest with rfl | h
    · refine Or.inl ⟨_, _, _, .exist ?_, rfl⟩
      simpa [isString_iff] using hexist
    · exact Or.inr h
  split
  next habsent =>
    rcases noValue_cases expression .absent rest with rfl | h
    · refine Or.inl ⟨_, _, _, .absent ?_, rfl⟩
      simpa [isString_iff] using habsent
    · exact Or.inr h
  next => exact Or.inr ⟨_, rfl, isInfix_inFilter _ _⟩

/-- **Tokens of no form.** They are rejected, but for the words of a time range. -/
theorem question_cases (expression : Text) (htime : ¬ IsTimeWord w) (rest : List Text) :
    HasForm w rest ∨ IsRejected expression (question expression w rest) := by
  cases hc : comparison? w with
  | some pair =>
    obtain ⟨c, rfl, -⟩ := exists_comparison hc
    exact comparison_cases c rest
  | none =>
    by_cases hbang : w = "!"
    · subst hbang
      exact bang_cases expression rest
    · exact word_cases (not_mark hc hbang) htime rest

/-! ## Operators -/

namespace Form

/-- How many tokens the operator has. -/
def width : Form → Nat
  | withEquals _ => 2
  | differs => 2
  | crossed => 2
  | _ => 1

theorem Spells.length_operators (h : form.Spells operators values) :
    operators.length = form.width := by
  cases h <;> rfl

theorem Spells.operators_ne_nil (h : form.Spells operators values) : operators ≠ [] := by
  cases h <;> exact List.cons_ne_nil _ _

/-- The form that asks something in a number of tokens. -/
def of? : Operation → Nat → Option Form
  | .eq, _ => some (.alone .equal)
  | .gt, _ => some (.alone .greater)
  | .lt, _ => some (.alone .less)
  | .teq, _ => some (.withEquals .equal)
  | .gte, _ => some (.withEquals .greater)
  | .lte, _ => some (.withEquals .less)
  | .neq, _ => some .differs
  | .oneOf, _ => some .oneOf
  | .between, _ => some .between
  | .exist, _ => some .exist
  | .absent, width => some (if width = 1 then .absent else .crossed)
  | .during, _ => none
  | .other _, _ => none

theorem of?_operation_width (form : Form) : of? form.operation form.width = some form := by
  cases form with
  | alone c => cases c <;> rfl
  | withEquals c => cases c <;> rfl
  | _ => rfl

/-- **Tokens have one form at most.** -/
theorem unique {f g : Form} {tokens : List Text} (hf : f.Matches tokens) (hg : g.Matches tokens) :
    f = g := by
  obtain ⟨key, operators, values, rfl, hf⟩ := hf
  obtain ⟨key', operators', values', htokens, hg⟩ := hg
  obtain ⟨w, rest, rfl⟩ := List.exists_cons_of_ne_nil hf.operators_ne_nil
  obtain ⟨w', rest', rfl⟩ := List.exists_cons_of_ne_nil hg.operators_ne_nil
  simp only [List.cons_append, List.cons.injEq] at htokens
  obtain ⟨rfl, rfl, htokens⟩ := htokens
  -- The same tokens ask the same, so that as many of them are values and as many are operators.
  have hf' : question [] w (rest ++ values) = _ := question_of_spells hf
  have hg' : question [] w (rest' ++ values') = _ := question_of_spells hg
  rw [htokens, hg'] at hf'
  obtain ⟨hoperation, hvalues⟩ := Question.plain.inj (Except.ok.inj hf')
  have hlength := congrArg List.length hvalues
  have happend := congrArg List.length htokens
  have hwidth : f.width = g.width := by
    rw [← hf.length_operators, ← hg.length_operators]
    simp only [List.length_map, List.length_append, List.length_cons] at hlength happend ⊢
    omega
  have hof := of?_operation_width f
  rw [← hoperation, hwidth, of?_operation_width g] at hof
  exact (Option.some.inj hof).symm

/-- The marks and the words of which operators are made. -/
def operatorWords : List Text :=
  ["=", ">", "<", "!", "^", "in", "bt", "between", "ex", "exists", "nex", "notexists"]

theorem Spells.asciiLower_mem (h : form.Spells operators values) :
    ∀ o ∈ operators, o.asciiLower ∈ operatorWords := by
  cases h with
  | alone c | withEquals c => cases c <;> decide
  | differs | crossed => decide
  | oneOf hw =>
    rw [List.forall_mem_singleton, hw]
    decide
  | between hw | absent hw =>
    rw [List.forall_mem_singleton]
    rcases hw with hw | hw <;> rw [hw] <;> decide
  | exist hw =>
    rw [List.forall_mem_singleton]
    rcases hw with hw | hw | hw <;> rw [hw] <;> decide

/-- **No operator is quoted**: a quote has no case, and no word begins with one. -/
theorem Spells.not_quoted (h : form.Spells operators values) {p : CodePoint} {t : Text}
    (hmem : p :: t ∈ operators) : Token.isQuote p = false := by
  refine Bool.eq_false_iff.mpr fun hquote => ?_
  have hwords : ∀ w ∈ operatorWords, ∀ q ∈ w.head?, Token.isQuote q = false := by decide
  have hnot := hwords _ (h.asciiLower_mem _ hmem) p.asciiLower rfl
  rcases Token.eq_of_isQuote hquote with rfl | rfl | rfl <;> exact absurd hnot (by decide)

end Form

/-! ## Filters -/

variable [ZoneDatabase] {key : Text} {settings : TimeSettings} {aliases : Aliases}

theorem parse_of_question_ok {operation : Operation}
    (htokens : Token.tokenize expression = key :: w :: rest)
    (hquestion : question expression w rest = .ok (.plain operation values)) :
    parse expression settings aliases =
      .ok { key := aliases.apply (Token.unquote key), operation, values } := by
  simp only [parse, htokens, hquestion]
  rfl

theorem parse_of_question_error {e : ParseError}
    (htokens : Token.tokenize expression = key :: w :: rest)
    (hquestion : question expression w rest = .error e) :
    parse expression settings aliases = .error (.error e) := by
  simp only [parse, htokens, hquestion]
  rfl

theorem parse_of_spells (htokens : Token.tokenize expression = key :: (operators ++ values))
    (h : form.Spells operators values) :
    parse expression settings aliases =
      .ok { key := aliases.apply (Token.unquote key), operation := form.operation,
            values := values.map Token.unquote } := by
  obtain ⟨w, rest, rfl⟩ := List.exists_cons_of_ne_nil h.operators_ne_nil
  exact parse_of_question_ok htokens (question_of_spells h)

theorem parse_of_not_matches (settings : TimeSettings) (aliases : Aliases)
    (htime : ∀ w, (Token.tokenize expression)[1]? = some w → ¬ IsTimeWord w)
    (h : ¬ ∃ form : Form, form.Matches (Token.tokenize expression)) :
    ∃ e, parse expression settings aliases = .error (.error e) ∧ expression <:+: e.message := by
  match htokens : Token.tokenize expression with
  | [] | [_] =>
    refine ⟨.tooFewTokens expression, ?_, isInfix_inFilter _ _⟩
    simp only [parse, htokens]
  | key :: w :: rest =>
    rw [htokens] at htime h
    rcases question_cases expression (htime w rfl) rest with hform | ⟨e, he, hinfix⟩
    · obtain ⟨form, operators, values, hspells, rfl⟩ := hform
      exact absurd ⟨form, key, w :: operators, values, rfl, hspells⟩ h
    · exact ⟨e, parse_of_question_error htokens he, hinfix⟩

/-- **The grammar of filters.** An expression that asks for no time range is a filter exactly when
its tokens have one form, and just one. The filter is then what the form asks of the values without
their quotes, and of the field that the key without its quotes is an alias of; none of the tokens
read as an operator is quoted. An expression of no form is reported, and the report has the whole
expression in it. -/
theorem parse_grammar (expression : Text) (settings : TimeSettings) (aliases : Aliases)
    (htime : ∀ w, (Token.tokenize expression)[1]? = some w → ¬ IsTimeWord w) :
    ((∃ f, parse expression settings aliases = .ok f) ↔
      ∃! form : Form, form.Matches (Token.tokenize expression)) ∧
    (∀ (form : Form) (key : Text) (operators values : List Text),
      Token.tokenize expression = key :: (operators ++ values) → form.Spells operators values →
        parse expression settings aliases =
          .ok { key := aliases.apply (Token.unquote key), operation := form.operation,
                values := values.map Token.unquote } ∧
        ∀ o ∈ operators, ∀ p ∈ o.head?, Token.isQuote p = false) ∧
    ((¬ ∃ form : Form, form.Matches (Token.tokenize expression)) →
      ∃ e, parse expression settings aliases = .error (.error e) ∧ expression <:+: e.message) := by
  refine ⟨⟨?_, ?_⟩, ?_, parse_of_not_matches settings aliases htime⟩
  · rintro ⟨f, hf⟩
    by_cases h : ∃ form : Form, form.Matches (Token.tokenize expression)
    · obtain ⟨form, hform⟩ := h
      exact ⟨form, hform, fun other hother => Form.unique hother hform⟩
    · obtain ⟨e, he, -⟩ := parse_of_not_matches settings aliases htime h
      rw [he] at hf
      cases hf
  · rintro ⟨form, ⟨key, operators, values, htokens, hspells⟩, -⟩
    exact ⟨_, parse_of_spells htokens hspells⟩
  · intro form key operators values htokens hspells
    refine ⟨parse_of_spells htokens hspells, ?_⟩
    intro o ho p hp
    obtain ⟨t, rfl⟩ := List.head?_eq_some_iff.mp hp
    exact hspells.not_quoted ho

end

attribute [local instance] Region.database in
/-- A quoted key that is an alias, and a quoted value. -/
theorem parse_grammar_quoted :
    Token.tokenize "'a key' != \x60x y\x60" = (["'a key'", "!", "=", "\x60x y\x60"] : List Text) ∧
    parse "'a key' != \x60x y\x60" { now := default } [("a key", "b")] =
      .ok { key := "b", operation := .neq, values := ["x y"] } := by
  have htokens : Token.tokenize "'a key' != \x60x y\x60" =
      (["'a key'", "!", "=", "\x60x y\x60"] : List Text) := by
    decide +kernel
  refine ⟨htokens, ?_⟩
  have hgrammar := parse_grammar "'a key' != \x60x y\x60" { now := default } [("a key", "b")] (by
    rw [htokens]
    rintro w ⟨⟩
    decide)
  exact (hgrammar.2.1 .differs "'a key'" ["!", "="] ["\x60x y\x60"] htokens (.differs _)).1

end LogQuery.Filter
