import LogQuery.Text.Class
/-!
# Tokens of filter expressions

A filter expression is a row of tokens with white space between them: runs of identifier characters,
quoted texts, and single marks for everything else. A quoted token keeps its quotes; a backslash
inside it protects the character behind it, except in backquotes, and `unquote` takes the quotes
off and nothing else.

An expression with a quote that is never closed has no tokens at all.
-/
namespace LogQuery.Token

/-- What separates tokens: space, tab and the two line ends. -/
def isSpace (p : CodePoint) : Bool := (" \t\r\n" : Text).contains p

/-- A character of a word: a letter, a digit, or one of the marks found in field names and plain
values. -/
def isIdentifier (p : CodePoint) : Bool :=
  p.isLetter || p.isDigit || (".,:/-_()@" : Text).contains p

/-- The character with the number 96, which quotes without a protecting backslash. -/
def backquote : CodePoint := .scalar '\x60'

/-- A character that begins and ends a quoted token. -/
def isQuote (p : CodePoint) : Bool := p = .scalar '\'' || p = .scalar '"' || p = backquote

/-- The text behind an opening quote, up to and with the closing one; and the rest. -/
def quotedSpan? (quote : CodePoint) : Text → Option (Text × Text)
  | [] => none
  | [p] => if p = quote then some ([p], []) else none
  | p :: q :: rest =>
    if p = .scalar '\\' && quote ≠ backquote then
      (quotedSpan? quote rest).map fun (inside, after) => (p :: q :: inside, after)
    else if p = quote then some ([p], q :: rest)
    else (quotedSpan? quote (q :: rest)).map fun (inside, after) => (p :: inside, after)

theorem quotedSpan?_length (quote : CodePoint) :
    ∀ (t inside after : Text), quotedSpan? quote t = some (inside, after) →
      after.length < t.length
  | [], _, _, h => by simp [quotedSpan?] at h
  | [p], inside, after, h => by
    simp only [quotedSpan?] at h
    split at h
    · simp only [Option.some.injEq, Prod.mk.injEq] at h
      simp [← h.2]
    · simp at h
  | p :: q :: rest, inside, after, h => by
    simp only [quotedSpan?] at h
    split at h
    · obtain ⟨⟨i, a⟩, h1, h2⟩ := Option.map_eq_some_iff.1 h
      have := quotedSpan?_length quote rest i a h1
      simp only [Prod.mk.injEq] at h2
      simp [← h2.2]; omega
    · split at h
      · simp only [Option.some.injEq, Prod.mk.injEq] at h
        simp [← h.2]
      · obtain ⟨⟨i, a⟩, h1, h2⟩ := Option.map_eq_some_iff.1 h
        have := quotedSpan?_length quote (q :: rest) i a h1
        simp only [Prod.mk.injEq] at h2
        simp only [List.length_cons] at this ⊢
        rw [← h2.2]; omega

/-- The tokens of a text; there are none if a quote is not closed. -/
def scan? : Text → Option (List Text)
  | [] => some []
  | p :: rest =>
    if isSpace p then scan? rest
    else if isIdentifier p then
      (scan? (rest.dropWhile isIdentifier)).map ((p :: rest.takeWhile isIdentifier) :: ·)
    else if isQuote p then
      match _h : quotedSpan? p rest with
      | none => none
      | some (inside, after) => (scan? after).map ((p :: inside) :: ·)
    else (scan? rest).map ([p] :: ·)
termination_by t => t.length
decreasing_by
  · simp
  · have := (List.dropWhile_suffix isIdentifier (l := rest)).length_le
    simp; omega
  · have := quotedSpan?_length _ _ _ _ _h
    simp; omega
  · simp

/-- The tokens of an expression, none for one with a quote that is not closed. -/
def tokenize (expression : Text) : List Text := (scan? expression).getD []

/-- A token without the pair of quotes around it. -/
def unquote (token : Text) : Text :=
  match token with
  | p :: rest =>
    if isQuote p ∧ rest.getLast? = some p then rest.dropLast else token
  | [] => []

end LogQuery.Token
