import LogQuery.Calendar.Region
import LogQuery.Filter.Parse
import LogQuery.Proofs.Search.Escape
import LogQuery.Proofs.Steps
import Mathlib.Data.List.Forall2
/-!
# Terms of a query text

The terms of a query text stand between spaces. A service tells these from the spaces inside of a term
by what is in front of them: a backslash (`barePieces`), or a bracket that is not closed yet
(`pieces`). Cutting a text up and joining terms are inverse to one another where every term keeps to
itself (`IsClosed`), which escaped values always do.

* `add_eq_ok`: a filter adds its term to what is asked for, or it changes the window.
* `barePieces_join`, `pieces_join`: terms that are joined are found again.
* `isClosed_escape`: an escaped value keeps to itself.
* `text_pieces`: there is one term for every filter, if its key and its range keep to themselves.
-/
namespace LogQuery.EventSearch

/-! ## Terms of filters -/

def range (a b : Text) : Text := "[" ++ a ++ " TO " ++ b ++ "]"

/-- The term of a filter. Values behind the ones that it needs do not count. -/
inductive IsTerm : Filter → Text → Prop
  | eq (key v : Text) (rest : List Text) :
    IsTerm ⟨key, .eq, v :: rest⟩ (keyPart key ++ "*" ++ escape key v ++ "*")
  | teq (key v : Text) (rest : List Text) :
    IsTerm ⟨key, .teq, v :: rest⟩ (keyPart key ++ escape key v)
  | neq (key v : Text) (rest : List Text) :
    IsTerm ⟨key, .neq, v :: rest⟩ ("-" ++ keyPart key ++ escape key v)
  | between (key a b : Text) (rest : List Text) :
    IsTerm ⟨key, .between, a :: b :: rest⟩ (keyPart key ++ range a b)

/-- A filter adds a term to what is asked for, and nothing else. -/
def Becomes (f : Filter) (t : Text) : Prop :=
  ∀ q : EventQuery, q.add f = .ok { q with terms := q.terms ++ [t] }

theorem IsTerm.becomes {f : Filter} {t : Text} (h : IsTerm f t) : Becomes f t := by
  intro q
  cases h with
  | between key a b rest => simp only [EventQuery.add, range, List.append_assoc]
  | _ => rfl

/-- All that a filter can do to what is asked for: it adds its term, or it changes the window. -/
theorem add_eq_ok {f : Filter} {q q' : EventQuery} (h : q.add f = .ok q') :
    (∃ t, IsTerm f t ∧ q' = { q with terms := q.terms ++ [t] }) ∨
    (f.operation = .during ∧ ∃ a b rest start stop, f.values = a :: b :: rest ∧
      milliseconds a = .ok start ∧ milliseconds b = .ok stop ∧
        q' = { q with window := some ⟨start, stop⟩ }) := by
  obtain ⟨key, operation, values⟩ := f
  have hterm : ∀ {t}, IsTerm ⟨key, operation, values⟩ t →
      ∃ t, IsTerm ⟨key, operation, values⟩ t ∧ q' = { q with terms := q.terms ++ [t] } := by
    intro t ht
    exact ⟨t, ht, Except.ok.inj (h.symm.trans (ht.becomes q))⟩
  unfold EventQuery.add at h
  simp only at h
  split at h
  · exact Or.inl (hterm (.eq key _ _))
  · exact Or.inl (hterm (.teq key _ _))
  · exact Or.inl (hterm (.neq key _ _))
  · exact Or.inl (hterm (.between key _ _ _))
  · obtain ⟨start, hstart, h⟩ := eq_ok_of_bind h
    split at h
    · obtain ⟨stop, hstop, h⟩ := eq_ok_of_bind h
      cases h
      exact Or.inr ⟨rfl, _, _, _, start, stop, rfl, hstart, hstop, rfl⟩
    · cases h
  all_goals cases h

theorem compileFrom_of_becomes {filters : List Filter} {ts : List Text}
    (h : List.Forall₂ Becomes filters ts) (q : EventQuery) :
    compileFrom q filters = .ok { q with terms := q.terms ++ ts } := by
  induction h generalizing q with
  | nil => rw [List.append_nil]; rfl
  | cons hf _ ih =>
    rw [compileFrom, hf q]
    exact (ih _).trans (by rw [List.append_assoc, List.singleton_append])

theorem compile_of_becomes {filters : List Filter} {ts : List Text}
    (h : List.Forall₂ Becomes filters ts) : compile filters = .ok { terms := ts } :=
  compileFrom_of_becomes h {}

theorem exists_terms_of_compileFrom {filters : List Filter} {q q' : EventQuery}
    (hoperation : ∀ f ∈ filters, f.operation ≠ .during) (h : compileFrom q filters = .ok q') :
    ∃ ts, List.Forall₂ IsTerm filters ts := by
  induction filters generalizing q with
  | nil => exact ⟨[], .nil⟩
  | cons f filters ih =>
    rw [List.forall_mem_cons] at hoperation
    obtain ⟨next, hadd, hrest⟩ := eq_ok_of_bind h
    obtain ⟨t, ht, -⟩ := (add_eq_ok hadd).resolve_right fun h => hoperation.1 h.1
    obtain ⟨ts, hts⟩ := ih hoperation.2 hrest
    exact ⟨t :: ts, .cons ht hts⟩

theorem exists_filter_of_mem {R : Filter → Text → Prop} {filters : List Filter} {ts : List Text}
    (h : List.Forall₂ R filters ts) : ∀ t ∈ ts, ∃ f ∈ filters, R f t := by
  induction h with
  | nil => exact fun t ht => absurd ht List.not_mem_nil
  | @cons f t filters ts hf _ ih =>
    refine List.forall_mem_cons.mpr ⟨⟨f, List.mem_cons_self, hf⟩, fun u hu => ?_⟩
    obtain ⟨g, hg, hu⟩ := ih u hu
    exact ⟨g, List.mem_cons_of_mem f hg, hu⟩

theorem Becomes.compile {f : Filter} {t : Text} (h : Becomes f t) :
    compile [f] = .ok { terms := [t] } :=
  compile_of_becomes (.cons h .nil)

/-! ## Reading joined texts -/

theorem signs_append {t : Text} (h : .bare (.scalar '\\') ∉ signs t) (u : Text) :
    signs (t ++ u) = signs t ++ signs u := by
  have hspell := signs_spell h u
  rwa [spell_signs] at hspell

theorem signs_plain {t : Text} (h : .scalar '\\' ∉ t) : signs t = t.map .bare := by
  have hrow : .bare (.scalar '\\') ∉ t.map Sign.bare := by simpa using h
  have hspell := signs_spell hrow []
  rwa [spell_map_bare, List.append_nil, signs, List.append_nil] at hspell

def space : Sign := .bare (.scalar ' ')

theorem read_intercalate {α β : Type} {read : List α → List β} {sep : List α} {sep' : List β}
    {rows : List (List α)} (hnil : read [] = [])
    (h : ∀ row ∈ rows, ∀ t, read (row ++ (sep ++ t)) = read row ++ (sep' ++ read t)) :
    read (sep.intercalate rows) = sep'.intercalate (rows.map read) := by
  induction rows with
  | nil => simpa using hnil
  | cons row rows ih =>
    rw [List.forall_mem_cons] at h
    cases rows with
    | nil => simp
    | cons next rows =>
      rw [List.intercalate_cons_cons, List.append_assoc, h.1, ih h.2]
      simp only [List.map_cons, List.intercalate_cons_cons, List.append_assoc]

theorem signs_join {ts : List Text} (h : ∀ t ∈ ts, .bare (.scalar '\\') ∉ signs t) :
    signs (Text.join " " ts) = [space].intercalate (ts.map signs) := by
  refine read_intercalate rfl fun t ht u => ?_
  rw [signs_append (h t ht)]
  exact congrArg _ (signs_cons (by decide) u)

/-! ## Pieces between bare spaces -/

/-- The pieces of a text between the spaces that no backslash escapes. -/
def barePieces (t : Text) : List Text := ((signs t).splitOn space).map spell

theorem barePieces_join {ts : List Text} (hne : ts ≠ [])
    (hescape : ∀ t ∈ ts, .bare (.scalar '\\') ∉ signs t) (hspace : ∀ t ∈ ts, space ∉ signs t) :
    barePieces (Text.join " " ts) = ts := by
  have hrows : ∀ row ∈ ts.map signs, space ∉ row := by simpa using hspace
  rw [barePieces, signs_join hescape, List.splitOn_intercalate space hrows (by simpa using hne),
    List.map_map]
  exact (List.map_congr_left fun t _ => spell_signs t).trans (List.map_id ts)

/-! ## Pieces outside of brackets -/

/-- Whether a bracket is open behind a sign, given whether one is open in front of it. -/
def Sign.opens (inside : Bool) : Sign → Bool
  | .bare p => if p = .scalar '[' then true else if p = .scalar ']' then false else inside
  | .escaped _ => inside

/-- Signs, each with whether a bracket is open in front of it. -/
def placed : (inside : Bool) → List Sign → List (Bool × Sign)
  | _, [] => []
  | inside, s :: row => (inside, s) :: placed (s.opens inside) row

/-- The pieces of a text between the spaces that no backslash escapes and that are not in brackets. -/
def pieces (t : Text) : List Text :=
  ((placed false (signs t)).splitOn (false, space)).map fun piece => spell (piece.map Prod.snd)

theorem placed_append (inside : Bool) (row row' : List Sign) :
    placed inside (row ++ row')
      = placed inside row ++ placed (row.foldl Sign.opens inside) row' := by
  induction row generalizing inside with
  | nil => rfl
  | cons s row ih => rw [List.cons_append, placed, ih]; rfl

@[simp] theorem map_snd_placed (inside : Bool) (row : List Sign) :
    (placed inside row).map Prod.snd = row := by
  induction row generalizing inside with
  | nil => rfl
  | cons s row ih => rw [placed, List.map_cons, ih]

/-- A text that keeps to itself: no space of it is bare and outside of brackets, and behind it neither a
bracket nor an escape is open. -/
structure IsClosed (t : Text) : Prop where
  escape : .bare (.scalar '\\') ∉ signs t
  space : (false, space) ∉ placed false (signs t)
  bracket : (signs t).foldl Sign.opens false = false

theorem isClosed_iff (t : Text) : IsClosed t ↔
    .bare (.scalar '\\') ∉ signs t ∧ (false, space) ∉ placed false (signs t) ∧
      (signs t).foldl Sign.opens false = false :=
  ⟨fun h => ⟨h.escape, h.space, h.bracket⟩, fun h => ⟨h.1, h.2.1, h.2.2⟩⟩

instance (t : Text) : Decidable (IsClosed t) := decidable_of_iff' _ (isClosed_iff t)

theorem IsClosed.append {t u : Text} (ht : IsClosed t) (hu : IsClosed u) : IsClosed (t ++ u) where
  escape := by
    rw [signs_append ht.escape, List.mem_append]
    exact fun h => h.elim ht.escape hu.escape
  space := by
    rw [signs_append ht.escape, placed_append, ht.bracket, List.mem_append]
    exact fun h => h.elim ht.space hu.space
  bracket := by rw [signs_append ht.escape, List.foldl_append, ht.bracket, hu.bracket]

theorem placed_intercalate {rows : List (List Sign)}
    (h : ∀ row ∈ rows, row.foldl Sign.opens false = false) :
    placed false ([space].intercalate rows) =
      [(false, space)].intercalate (rows.map (placed false)) := by
  refine read_intercalate rfl fun row hrow rest => ?_
  rw [placed_append, h row hrow]
  rfl

theorem pieces_join {ts : List Text} (hne : ts ≠ []) (h : ∀ t ∈ ts, IsClosed t) :
    pieces (Text.join " " ts) = ts := by
  have hbracket : ∀ row ∈ ts.map signs, row.foldl Sign.opens false = false := by
    simpa using fun t ht => (h t ht).bracket
  have hspace : ∀ row ∈ (ts.map signs).map (placed false), (false, space) ∉ row := by
    simpa using fun t ht => (h t ht).space
  rw [pieces, signs_join fun t ht => (h t ht).escape, placed_intercalate hbracket,
    List.splitOn_intercalate _ hspace (by simpa using hne), List.map_map, List.map_map]
  refine (List.map_congr_left fun t _ => ?_).trans (List.map_id ts)
  simp only [Function.comp_apply, map_snd_placed, spell_signs, id]

/-! ## Texts that keep to themselves -/

/-- The characters that a query text is cut up by. -/
def cutting : Text := "\\ []"

theorem placed_eq_map {row : List Sign} {inside : Bool}
    (h : ∀ s ∈ row, s.opens inside = inside) :
    placed inside row = row.map (inside, ·) ∧ row.foldl Sign.opens inside = inside := by
  induction row with
  | nil => exact ⟨rfl, rfl⟩
  | cons s row ih =>
    obtain ⟨hplaced, hfold⟩ := ih fun s' hmem => h s' (List.mem_cons_of_mem s hmem)
    rw [placed, List.foldl_cons, h s List.mem_cons_self, hplaced, hfold]
    exact ⟨rfl, rfl⟩

theorem Sign.opens_eq {s : Sign} (inside : Bool) (hopen : s ≠ .bare (.scalar '['))
    (hclose : s ≠ .bare (.scalar ']')) : s.opens inside = inside := by
  cases s with
  | escaped p => rfl
  | bare p =>
    rw [Sign.opens, if_neg fun h => hopen (congrArg _ h), if_neg fun h => hclose (congrArg _ h)]

theorem isClosed_of_signs {t : Text} (h : ∀ p ∈ cutting, .bare p ∉ signs t) : IsClosed t := by
  have hne : ∀ p ∈ cutting, ∀ s ∈ signs t, s ≠ .bare p := by
    rintro p hp s hs rfl
    exact h p hp hs
  have hopens : ∀ s ∈ signs t, s.opens false = false := fun s hs =>
    Sign.opens_eq false (hne _ (by decide) s hs) (hne _ (by decide) s hs)
  refine ⟨h _ (by decide), ?_, (placed_eq_map hopens).2⟩
  rw [(placed_eq_map hopens).1]
  intro hmem
  obtain ⟨s, hs, heq⟩ := List.mem_map.mp hmem
  exact hne _ (by decide) s hs (Prod.mk.inj heq).2

theorem isClosed_of_plain {t : Text} (h : ∀ p ∈ cutting, p ∉ t) : IsClosed t := by
  refine isClosed_of_signs fun p hp => ?_
  rw [signs_plain (h _ (by decide))]
  simpa using h p hp

theorem isClosed_escape (key v : Text) : IsClosed (escape key v) := by
  have hcutting : ∀ p ∈ cutting, p ≠ .scalar '?' ∧ .single p ∈ specials := by decide
  by_cases hkey : key = messageKey
  · subst hkey
    refine isClosed_of_plain fun p hp hmem => ?_
    obtain ⟨hne, hspecial⟩ := hcutting p hp
    exact (single_not_mem_of_mem_escape hmem).elim hne fun h => h hspecial
  · refine isClosed_of_signs fun p hp hmem => ?_
    rw [signs_escape hkey] at hmem
    exact single_not_mem_specials hmem (hcutting p hp).2

theorem isClosed_bracketed {t : Text} (hslash : .scalar '\\' ∉ t) (hclose : .scalar ']' ∉ t) :
    IsClosed (.scalar '[' :: (t ++ [.scalar ']'])) := by
  have hopens : ∀ s ∈ t.map Sign.bare, s.opens true = true := by
    intro s hs
    obtain ⟨p, hp, rfl⟩ := List.mem_map.mp hs
    have hne : p ≠ .scalar ']' := fun h => hclose (h ▸ hp)
    rw [Sign.opens, if_neg hne, ite_self]
  obtain ⟨hplaced, hfold⟩ := placed_eq_map hopens
  have hrow : signs (.scalar '[' :: (t ++ [.scalar ']']))
      = .bare (.scalar '[') :: (t.map .bare ++ [.bare (.scalar ']')]) := by
    rw [signs_plain (by simpa using hslash)]
    simp
  have hopen : (Sign.bare (.scalar '[')).opens false = true := rfl
  refine ⟨by simpa [hrow] using hslash, ?_, ?_⟩
  · rw [hrow, placed, hopen, placed_append, hplaced, hfold]
    simp [placed, space]
  · rw [hrow, List.foldl_cons, List.foldl_append, hopen, hfold]
    rfl

theorem isClosed_range {a b : Text} (ha : .scalar '\\' ∉ a ∧ .scalar ']' ∉ a)
    (hb : .scalar '\\' ∉ b ∧ .scalar ']' ∉ b) : IsClosed (range a b) := by
  have hto : CodePoint.scalar '\\' ∉ Text.ofString " TO " ∧
      CodePoint.scalar ']' ∉ Text.ofString " TO " := by decide
  have htext : range a b
      = .scalar '[' :: ((a ++ Text.ofString " TO " ++ b) ++ [.scalar ']']) := by
    simp only [range, List.append_assoc]
    rfl
  rw [htext]
  exact isClosed_bracketed (by simp [ha.1, hb.1, hto.1]) (by simp [ha.2, hb.2, hto.2])

/-- The term of a filter keeps to itself if its key does, and its range if it has one. -/
theorem IsTerm.isClosed {f : Filter} {t : Text} (h : IsTerm f t) (hkey : IsClosed (keyPart f.key))
    (hrange : f.operation = .between → ∀ a b rest, f.values = a :: b :: rest →
      IsClosed (range a b)) : IsClosed t := by
  have hstar : IsClosed "*" := by decide
  have hminus : IsClosed "-" := by decide
  cases h with
  | eq key v rest => exact ((hkey.append hstar).append (isClosed_escape key v)).append hstar
  | teq key v rest => exact hkey.append (isClosed_escape key v)
  | neq key v rest => exact (hminus.append hkey).append (isClosed_escape key v)
  | between key a b rest => exact hkey.append (hrange rfl a b rest rfl)

/-- **One term for every filter.** Cut up at the spaces that are neither escaped nor in brackets, a query
text has the term of every filter as one piece, provided that the keys keep to themselves, and so do the
ranges. Nothing is asked of the values, which are escaped. -/
theorem text_pieces {filters : List Filter} {q : EventQuery} (hne : filters ≠ [])
    (hoperation : ∀ f ∈ filters, f.operation ∈ [.eq, .teq, .neq, .between])
    (hkey : ∀ f ∈ filters, IsClosed (keyPart f.key))
    (hrange : ∀ f ∈ filters, f.operation = .between →
      ∀ a b rest, f.values = a :: b :: rest → IsClosed (range a b))
    (hcompile : compile filters = .ok q) :
    List.Forall₂ (fun f piece => compile [f] = .ok { terms := [piece] }) filters
      (pieces q.text) := by
  have hduring : ∀ f ∈ filters, f.operation ≠ .during := by
    intro f hf heq
    exact absurd (heq ▸ hoperation f hf) (by decide)
  obtain ⟨ts, hts⟩ := exists_terms_of_compileFrom hduring hcompile
  have hq := compile_of_becomes (hts.imp fun f t h => h.becomes)
  rw [hcompile] at hq
  cases hq
  have hne' : ts ≠ [] := by
    rintro rfl
    exact hne (List.forall₂_nil_right_iff.mp hts)
  have hclosed : ∀ t ∈ ts, IsClosed t := by
    intro t ht
    obtain ⟨f, hf, hterm⟩ := exists_filter_of_mem hts t ht
    exact hterm.isClosed (hkey f hf) (hrange f hf)
  rw [EventQuery.text, pieces_join hne' hclosed]
  exact hts.imp fun f t h => h.becomes.compile

theorem text_pieces_mixed :
    let filters : List Filter := [⟨"a\\ b", .neq, ["x] y["]⟩, ⟨"n", .between, ["[1 0", "2"]⟩]
    let q : EventQuery := { terms := ["-a\\ b:x\\]\\ y\\[", "n:[[1 0 TO 2]"] }
    filters ≠ [] ∧ (∀ f ∈ filters, f.operation ∈ [Operation.eq, .teq, .neq, .between]) ∧
    (∀ f ∈ filters, IsClosed (keyPart f.key)) ∧ compile filters = .ok q ∧
    List.Forall₂ (fun f piece => compile [f] = .ok { terms := [piece] }) filters
      (pieces q.text) := by
  intro filters q
  have hoperation : ∀ f ∈ filters, f.operation ∈ [Operation.eq, .teq, .neq, .between] := by decide
  have hkey : ∀ f ∈ filters, IsClosed (keyPart f.key) := by decide
  have hcompile : compile filters = .ok q := by decide
  refine ⟨by decide, hoperation, hkey, hcompile,
    text_pieces (by decide) hoperation hkey ?_ hcompile⟩
  intro f hf hbetween a b rest hvalues
  simp only [filters, List.mem_cons, List.not_mem_nil, or_false] at hf
  rcases hf with rfl | rfl
  · cases hbetween
  · cases hvalues
    exact isClosed_range (by decide) (by decide)

attribute [local instance] Region.database in
/-- What an operator quotes gets into the query text as it is: a bound that closes the bracket adds a
term. -/
theorem range_adds_term : ¬ ∀ (expressions : List Text) (settings : TimeSettings) (aliases : Aliases)
    (filters : List Filter) (q : EventQuery),
    Filter.parseAll expressions settings aliases = .ok filters → filters ≠ [] →
    (∀ f ∈ filters, f.operation ∈ [.eq, .teq, .neq, .between]) → compile filters = .ok q →
    (pieces q.text).length = filters.length := by
  intro h
  have hparse : Filter.parseAll ["code bt 1 '2] level:error'"] { now := default } []
      = .ok [⟨"code", .between, ["1", "2] level:error"]⟩] := by decide +kernel
  have hlength := h _ _ _ _ { terms := ["code:[1 TO 2] level:error]"] } hparse (by decide)
    (by decide) (by decide)
  exact absurd hlength (by decide)

end LogQuery.EventSearch
