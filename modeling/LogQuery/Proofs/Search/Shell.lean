import LogQuery.Proofs.Text.Split
import LogQuery.Search.Request
/-!
# Words on a command line

What a shell takes a command line for. Blanks end a word; quotes and backslashes make characters stand for
themselves. Everything else that a shell may take for more than itself (an operator, an expansion, a comment)
must not stand open: such a line is not a row of words (`words?`). A quoted text is a word or a part of one.

* `foldlM_step_shellWord`: a word as it is given to a shell is taken for the word.
* `words?_join`: a row of such words is taken for the words.
-/
namespace LogQuery.Shell

/-! ## Reading a line -/

/-- What protects the next character of a line. -/
inductive Mode where
  | bare
  /-- A backslash outside quotes. -/
  | escaped
  /-- Single quotes. -/
  | single
  /-- Double quotes. -/
  | double
  /-- A backslash between double quotes. -/
  | doubleEscaped
  deriving DecidableEq

/-- A line up to some place: the words that have ended, and the one that has begun. -/
structure Reading where
  words : List Text := []
  word : Option Text := none
  mode : Mode := .bare
  deriving DecidableEq

/-- The characters between words. -/
def blanks : Text := " \t"

/-- The characters that begin an expansion, also between double quotes. -/
def expanding : Text := "$`"

/-- The characters that can be more than themselves outside quotes. -/
def active : Text := expanding ++ "\n|&;<>()*?[]#~!\x7b\x7d"

namespace Reading

/-- Go on with a word, or begin one. -/
def push (r : Reading) (t : Text) (mode : Mode) : Reading :=
  { r with word := some (match r.word with | some word => word ++ t | none => t), mode }

/-- End a word, if one has begun. -/
def stop (r : Reading) : Reading := { words := r.words ++ r.word.toList }

/-- Read one character. There is no reading of a character that stands open and is more than itself. -/
def step (r : Reading) (p : CodePoint) : Option Reading :=
  match r.mode with
  | .bare =>
    if p ∈ blanks then some r.stop
    else if p = .scalar '\'' then some (r.push [] .single)
    else if p = .scalar '"' then some (r.push [] .double)
    else if p = .scalar '\\' then some { r with mode := .escaped }
    else if p ∈ active then none
    else some (r.push [p] .bare)
  -- A backslash and the end of a line are nothing together.
  | .escaped => some (if p = .scalar '\n' then { r with mode := .bare } else r.push [p] .bare)
  | .single => some (if p = .scalar '\'' then { r with mode := .bare } else r.push [p] .single)
  | .double =>
    if p = .scalar '"' then some { r with mode := .bare }
    else if p = .scalar '\\' then some { r with mode := .doubleEscaped }
    else if p ∈ expanding then none
    else some (r.push [p] .double)
  | .doubleEscaped =>
    some (if p = .scalar '\n' then { r with mode := .double }
      else if p ∈ expanding ++ "\"\\" then r.push [p] .double
      else r.push [.scalar '\\', p] .double)

/-- The words of a line that has been read to its end, unless a quote is still open. -/
def finish (r : Reading) : Option (List Text) :=
  if r.mode = .bare then some r.stop.words else none

end Reading

/-- The words that a shell takes a line for, if the line is nothing but words. -/
def words? (line : Text) : Option (List Text) := (line.foldlM Reading.step {}).bind Reading.finish

example : words? "a'b c'\"d\\$\" \\'\\\n -x=\"\"" = some [("ab cd$" : Text), "'", "-x="] := by decide

example : words? "curl \"$x\"" = none ∧ words? "curl a;b" = none ∧ words? "curl 'a" = none := by decide

/-! ## Words given to a shell -/

namespace Reading

open Request (isHarmless quotePoint shellWord)

variable {p : CodePoint} {t : Text}

theorem step_of_isHarmless (h : isHarmless p = true) (words : List Text) (word : Option Text) :
    step ⟨words, word, .bare⟩ p = some (push ⟨words, word, .bare⟩ [p] .bare) := by
  have hother : ∀ q : CodePoint, isHarmless q = false → p ≠ q := by
    rintro q hq rfl
    rw [h] at hq
    cases hq
  have hblank : p ∉ blanks := fun hmem =>
    hother p ((by decide : ∀ q ∈ blanks, isHarmless q = false) p hmem) rfl
  have hactive : p ∉ active := fun hmem =>
    hother p ((by decide : ∀ q ∈ active, isHarmless q = false) p hmem) rfl
  simp only [step, if_neg hblank, if_neg hactive, if_neg (hother (.scalar '\'') rfl),
    if_neg (hother (.scalar '"') rfl), if_neg (hother (.scalar '\\') rfl)]

theorem foldlM_step_of_isHarmless (h : t.all isHarmless = true) (words : List Text) (word : Text) :
    t.foldlM step ⟨words, some word, .bare⟩ = some ⟨words, some (word ++ t), .bare⟩ := by
  induction t generalizing word with
  | nil => rw [List.append_nil]; rfl
  | cons p t ih =>
    rw [List.all_cons, Bool.and_eq_true] at h
    rw [List.foldlM_cons, step_of_isHarmless h.1]
    show t.foldlM step ⟨words, some (word ++ [p]), .bare⟩ = _
    rw [ih h.2, List.append_assoc]
    rfl

/-- Between single quotes every character is read as itself. A single quote leaves them, is read between
double quotes, and comes back. -/
theorem foldlM_step_quotePoint (p : CodePoint) (words : List Text) (word : Text) :
    (quotePoint p).foldlM step ⟨words, some word, .single⟩ = some ⟨words, some (word ++ [p]), .single⟩ := by
  unfold quotePoint
  split
  next hp =>
    have hread : (Text.ofString "'\"'\"'").foldlM step ⟨words, some word, .single⟩
        = some ⟨words, some (word ++ [] ++ [.scalar '\''] ++ []), .single⟩ := rfl
    rw [hread, List.append_nil, List.append_nil, hp]
  next hp =>
    rw [List.foldlM_cons]
    simp only [step, if_neg hp]
    rfl

theorem foldlM_step_quoted (t : Text) (words : List Text) (word : Text) :
    (t.flatMap quotePoint).foldlM step ⟨words, some word, .single⟩ =
      some ⟨words, some (word ++ t), .single⟩ := by
  induction t generalizing word with
  | nil => rw [List.append_nil]; rfl
  | cons p t ih =>
    rw [List.flatMap_cons, List.foldlM_append, foldlM_step_quotePoint]
    show (t.flatMap quotePoint).foldlM step ⟨words, some (word ++ [p]), .single⟩ = _
    rw [ih, List.append_assoc]
    rfl

theorem foldlM_step_shellWord (t : Text) (words : List Text) :
    (shellWord t).foldlM step ⟨words, none, .bare⟩ = some ⟨words, some t, .bare⟩ := by
  unfold shellWord
  split
  next h =>
    obtain ⟨p, t, rfl⟩ := List.exists_cons_of_ne_nil h.1
    have hall := h.2
    rw [List.all_cons, Bool.and_eq_true] at hall
    rw [List.foldlM_cons, step_of_isHarmless hall.1]
    exact foldlM_step_of_isHarmless hall.2 words [p]
  next =>
    rw [List.foldlM_cons]
    show (t.flatMap quotePoint ++ [CodePoint.scalar '\'']).foldlM step ⟨words, some [], .single⟩ = _
    rw [List.foldlM_append, foldlM_step_quoted]
    rfl

theorem finish_words (ts words : List Text) (word : Text) :
    ((ts.flatMap fun t => CodePoint.scalar ' ' :: shellWord t).foldlM step
      ⟨words, some word, .bare⟩).bind finish = some (words ++ word :: ts) := by
  induction ts generalizing words word with
  | nil => rfl
  | cons t ts ih =>
    rw [List.flatMap_cons, List.cons_append, List.foldlM_cons]
    show ((shellWord t ++ _).foldlM step ⟨words ++ [word], none, .bare⟩).bind finish = _
    rw [List.foldlM_append, foldlM_step_shellWord]
    refine (ih (words ++ [word]) t).trans ?_
    rw [List.append_assoc]
    rfl

end Reading

/-- **A row of words.** Words that are given to a shell with a blank between them are taken for these words,
whatever is in them. -/
theorem words?_join (ts : List Text) :
    words? (Text.join " " (ts.map Request.shellWord)) = some ts := by
  cases ts with
  | nil => rfl
  | cons t ts =>
    rw [List.map_cons, Text.join_cons, List.flatMap_map, words?, List.foldlM_append,
      Reading.foldlM_step_shellWord]
    exact Reading.finish_words ts [] t

end LogQuery.Shell
