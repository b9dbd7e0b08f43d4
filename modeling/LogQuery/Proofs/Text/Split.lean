import LogQuery.Text.Basic
/-!
# The pieces of a text

Nothing is lost where a text is split (`flatMap_splitOn`, `join_splitOn`), and a separator splits it
wherever it stands (`splitOn_append_sep`, `splitOnPair_append_pair`). A text without separators is one piece,
and one without blanks has none around it.

Pieces of a text and the separators between them take no more room than the text. Every piece counts with
a separator behind it, so that the pieces of a text have room for one code point more than there are
(`room_splitOn`, `room_splitOnPair`).
-/
namespace LogQuery.Text

variable {sep : CodePoint}

theorem splitOn_of_not_mem : ∀ {t : Text}, sep ∉ t → t.splitOn sep = [t]
  | [], _ => rfl
  | p :: t, h => by
    rw [List.mem_cons, not_or] at h
    simp only [splitOn, splitOn_of_not_mem h.2, if_neg (Ne.symm h.1)]

theorem splitOn_ne_nil (sep : CodePoint) (t : Text) : t.splitOn sep ≠ [] := by
  cases t with
  | nil => simp [splitOn]
  | cons p t =>
    rw [splitOn]
    split
    · simp
    · split <;> simp

theorem splitOn_cons_sep (sep : CodePoint) (t : Text) : splitOn sep (sep :: t) = [] :: splitOn sep t := by
  rw [splitOn]
  split
  next h => exact absurd h (splitOn_ne_nil sep t)
  next h => rw [h, if_pos rfl]

theorem splitOn_cons {p : CodePoint} (hp : p ≠ sep) {t piece : Text} {pieces : List Text}
    (h : splitOn sep t = piece :: pieces) : splitOn sep (p :: t) = (p :: piece) :: pieces := by
  rw [splitOn, h]
  simp [hp]

theorem head?_splitOn {t first : Text} {pieces : List Text} (h : splitOn sep t = first :: pieces)
    {p : CodePoint} (hp : p ≠ sep) (ht : t.head? = some p) : first.head? = some p := by
  obtain ⟨rest, rfl⟩ := List.head?_eq_some_iff.mp ht
  obtain ⟨piece, more, hrest⟩ := List.exists_cons_of_ne_nil (splitOn_ne_nil sep rest)
  rw [splitOn_cons hp hrest] at h
  rw [← (List.cons.inj h).1]
  rfl

theorem splitOn_append_sep (t u : Text) : splitOn sep (t ++ sep :: u) = splitOn sep t ++ splitOn sep u := by
  induction t with
  | nil => exact splitOn_cons_sep sep u
  | cons p t ih =>
    by_cases hp : p = sep
    · rw [hp, List.cons_append, splitOn_cons_sep, splitOn_cons_sep, ih, List.cons_append]
    · obtain ⟨piece, pieces, h⟩ := List.exists_cons_of_ne_nil (splitOn_ne_nil sep t)
      have hboth : splitOn sep (t ++ sep :: u) = piece :: (pieces ++ splitOn sep u) := by
        rw [ih, h, List.cons_append]
      rw [List.cons_append, splitOn_cons hp h, splitOn_cons hp hboth, List.cons_append]

theorem flatMap_splitOn (sep : CodePoint) (t : Text) :
    (splitOn sep t).flatMap (· ++ [sep]) = t ++ [sep] := by
  induction t with
  | nil => simp [splitOn]
  | cons p t ih =>
    by_cases hp : p = sep
    · rw [hp, splitOn_cons_sep, List.flatMap_cons, ih]
      rfl
    · obtain ⟨piece, pieces, h⟩ := List.exists_cons_of_ne_nil (splitOn_ne_nil sep t)
      rw [h, List.flatMap_cons] at ih
      rw [splitOn_cons hp h, List.flatMap_cons, List.cons_append, List.cons_append, ih, List.cons_append]

theorem length_splitOn (sep : CodePoint) (t : Text) : (t.splitOn sep).length = t.count sep + 1 := by
  induction t with
  | nil => rfl
  | cons p t ih =>
    by_cases hp : p = sep
    · rw [hp, splitOn_cons_sep, List.length_cons, ih, List.count_cons_self]
    · obtain ⟨piece, pieces, h⟩ := List.exists_cons_of_ne_nil (splitOn_ne_nil sep t)
      rw [splitOn_cons hp h, List.count_cons_of_ne hp, ← ih, h]
      rfl

theorem join_cons (sep t : Text) (ts : List Text) : join sep (t :: ts) = t ++ ts.flatMap (sep ++ ·) := by
  induction ts generalizing t with
  | nil => simp only [join, List.intercalate_singleton, List.flatMap_nil, List.append_nil]
  | cons u ts ih =>
    simp only [join] at ih ⊢
    rw [List.intercalate_cons_cons, ih, List.flatMap_cons, List.append_assoc, List.append_assoc]

theorem join_splitOn (sep : CodePoint) (t : Text) : join [sep] (t.splitOn sep) = t := by
  induction t with
  | nil => rfl
  | cons p t ih =>
    obtain ⟨piece, pieces, h⟩ := List.exists_cons_of_ne_nil (splitOn_ne_nil sep t)
    rw [h, join_cons] at ih
    by_cases hp : p = sep
    · rw [hp, splitOn_cons_sep, h, join_cons, List.flatMap_cons, List.nil_append, List.append_assoc, ih]
      rfl
    · rw [splitOn_cons hp h, join_cons, List.cons_append, ih]

section
variable {a b : CodePoint}

theorem splitOnPair_ne_nil (a b : CodePoint) (t : Text) : splitOnPair a b t ≠ [] := by
  match t with
  | [] => simp [splitOnPair]
  | [p] => simp [splitOnPair]
  | p :: q :: t =>
    rw [splitOnPair]
    split
    · simp
    · split <;> simp

theorem splitOnPair_append_pair (hne : a ≠ b) : ∀ {t : Text}, ¬ [a, b] <:+: t → ∀ u : Text,
    splitOnPair a b (t ++ a :: b :: u) = t :: splitOnPair a b u
  | [], _, u => by rw [List.nil_append, splitOnPair, if_pos ⟨rfl, rfl⟩]
  | [p], _, u => by
    have hrest : splitOnPair a b (a :: b :: u) = [] :: splitOnPair a b u :=
      splitOnPair_append_pair hne (t := []) (by simp) u
    rw [List.singleton_append, splitOnPair, if_neg fun h => hne h.2, hrest]
  | p :: q :: t, h, u => by
    have hpair : ¬ (p = a ∧ q = b) := by
      rintro ⟨rfl, rfl⟩
      exact h ⟨[], t, rfl⟩
    have hrest : splitOnPair a b (q :: t ++ a :: b :: u) = (q :: t) :: splitOnPair a b u :=
      splitOnPair_append_pair hne (fun hq => h (List.infix_cons hq)) u
    rw [List.cons_append] at hrest
    rw [List.cons_append, List.cons_append, splitOnPair, if_neg hpair, hrest]

theorem cutPair?_append_pair (hne : a ≠ b) : ∀ {t : Text}, ¬ [a, b] <:+: t → ∀ u : Text,
    cutPair? a b (t ++ a :: b :: u) = some (t, u)
  | [], _, u => by rw [List.nil_append, cutPair?, if_pos ⟨rfl, rfl⟩]
  | [p], _, u => by
    rw [List.singleton_append, cutPair?, if_neg fun h => hne h.2, cutPair?, if_pos ⟨rfl, rfl⟩]
    rfl
  | p :: q :: t, h, u => by
    have hpair : ¬ (p = a ∧ q = b) := by
      rintro ⟨rfl, rfl⟩
      exact h ⟨[], t, rfl⟩
    have hrest : cutPair? a b (q :: t ++ a :: b :: u) = some (q :: t, u) :=
      cutPair?_append_pair hne (fun hq => h (List.infix_cons hq)) u
    rw [List.cons_append] at hrest
    rw [List.cons_append, List.cons_append, cutPair?, if_neg hpair, hrest]
    rfl

end

theorem mem_of_mem_trim {isBlank : CodePoint → Bool} {t : Text} {p : CodePoint} (h : p ∈ t.trim isBlank) :
    p ∈ t := by
  rw [trim, trimEnd, List.mem_reverse] at h
  have hrest := (List.dropWhile_sublist isBlank).mem h
  exact (List.dropWhile_sublist isBlank).mem (List.mem_reverse.mp hrest)

theorem trim_eq_self {isBlank : CodePoint → Bool} {t : Text} (h : ∀ p ∈ t, isBlank p = false) :
    t.trim isBlank = t := by
  have hdrop : ∀ {u : Text}, (∀ p ∈ u, isBlank p = false) → u.dropWhile isBlank = u := by
    intro u hu
    cases u with
    | nil => rfl
    | cons p u =>
      rw [List.dropWhile_cons_of_neg]
      rw [hu p List.mem_cons_self]
      exact Bool.false_ne_true
  rw [trim, trimEnd, hdrop h, hdrop fun p hp => h p (List.mem_reverse.mp hp), List.reverse_reverse]

/-- The room of some pieces, each with a separator behind it. -/
def room : List Text → Nat
  | [] => 0
  | piece :: rest => piece.length + 1 + room rest

theorem length_join_le (sep : CodePoint) : ∀ pieces : List Text,
    (join [sep] pieces).length ≤ room pieces
  | [] => Nat.le_refl 0
  | [piece] => by
    rw [join, List.intercalate_singleton, room, room]
    omega
  | piece :: next :: rest => by
    have := length_join_le sep (next :: rest)
    rw [join] at this
    rw [join, List.intercalate_cons_cons, List.length_append, List.length_append,
      List.length_singleton, room]
    omega

theorem room_splitOn (sep : CodePoint) : ∀ t : Text, room (t.splitOn sep) = t.length + 1
  | [] => rfl
  | p :: t => by
    have ih := room_splitOn sep t
    unfold splitOn
    split
    next h =>
      rw [h, room] at ih
      omega
    next piece pieces h =>
      rw [h, room] at ih
      split <;> simp only [room, List.length_cons, List.length_nil] <;> omega

theorem room_splitOnPair (a b : CodePoint) : ∀ t : Text, room (t.splitOnPair a b) ≤ t.length + 1
  | [] => Nat.le_refl 1
  | [_] => Nat.le_refl 2
  | p :: q :: t => by
    unfold splitOnPair
    split
    · have := room_splitOnPair a b t
      simp only [room, List.length_cons, List.length_nil]
      omega
    · have ih := room_splitOnPair a b (q :: t)
      split
      next h =>
        simp only [room, List.length_cons, List.length_nil]
        omega
      next piece pieces h =>
        rw [h] at ih
        simp only [room, List.length_cons] at ih ⊢
        omega

theorem eq_append_of_dropPrefix? : ∀ {t u rest : Text}, dropPrefix? t u = some rest → u = t ++ rest
  | [], _, _, h => by
    cases h
    rfl
  | a :: t, b :: u, rest, h => by
    unfold dropPrefix? at h
    split at h
    next hab => rw [hab, eq_append_of_dropPrefix? h, List.cons_append]
    next => cases h

theorem length_cutPair? {a b : CodePoint} : ∀ {t before after : Text},
    t.cutPair? a b = some (before, after) → before.length + after.length + 2 = t.length
  | p :: q :: t, before, after, h => by
    unfold cutPair? at h
    split at h
    · cases h
      simp only [List.length_cons, List.length_nil]
      omega
    · obtain ⟨⟨before', after'⟩, hmore, heq⟩ := Option.map_eq_some_iff.mp h
      cases heq
      have := length_cutPair? hmore
      simp only [List.length_cons] at this ⊢
      omega

end LogQuery.Text
