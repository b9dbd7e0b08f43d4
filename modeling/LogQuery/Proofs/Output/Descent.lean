import LogQuery.Proofs.Output.Failure
import LogQuery.Proofs.Output.Settled
import LogQuery.Proofs.Output.Shorter
/-!
# Decoding comes to an end

The strings in a document are shorter than its text, so strings that are decoded inside one another get
shorter and shorter, and there are at most as many of them as the first one has characters
(`length_le_of_isPath`). The rules of decoding alone, which know of no bound, therefore lead to a value from
every value (`exists_unfolds`), and that is the one that `decodeAll` finds with room on the stack
(`decodeAll_terminates`).
-/
namespace LogQuery

section

variable [Runtime] {targets : List Target} {t s : Text} {v r : Value}

/-! ## Paths -/

/-- Strings that are decoded inside one another, each with some frames: each of them decodes, and the next one
is among the strings of what it decodes to. -/
inductive IsPath (targets : List Target) : List Text → Prop
  | last {frames : Nat} {t : Text} {v : Value} (h : decodeString targets frames t = .ok (some v)) :
    IsPath targets [t]
  | step {frames : Nat} {t s : Text} {v : Value} {path : List Text}
    (h : decodeString targets frames t = .ok (some v)) (hs : s ∈ v.strings)
    (hpath : IsPath targets (s :: path)) : IsPath targets (t :: s :: path)

theorem ne_nil_of_decodeString {frames : Nat} (hyaml : .yaml ∉ targets)
    (h : decodeString targets frames t = .ok (some v)) : t ≠ [] := by
  rintro rfl
  rcases decodeString_eq_some h with ⟨depth, hjson⟩ | ⟨hmem, -⟩ | ⟨request, hrequest, -⟩
  · cases hjson
  · exact hyaml hmem
  · cases hrequest

/-- **As many as characters.** On a path there are at most as many strings as the first one has
characters. -/
theorem length_le_of_isPath (hyaml : .yaml ∉ targets) : ∀ {path : List Text} {t : Text},
    IsPath targets (t :: path) → (t :: path).length ≤ t.length
  | [], t, .last h => List.length_pos_iff.mpr (ne_nil_of_decodeString hyaml h)
  | s :: path, t, .step h hs hpath => by
    have hshorter := length_lt_of_decodeString hyaml h hs
    have hrest := length_le_of_isPath hyaml hpath
    simp only [List.length_cons] at hrest ⊢
    omega

/-! ## The end -/

mutual

theorem exists_unfolds_of_strings : ∀ {v : Value},
    (∀ t ∈ v.strings, ∃ r, Unfolds targets (.string t) (.ok r)) → ∃ r, Unfolds targets v (.ok r)
  | .scalar s, h => by
    cases s with
    | string t => exact h t List.mem_cons_self
    | _ => exact ⟨_, .scalar nofun⟩
  | .list _, h => by
    obtain ⟨items', hitems⟩ := exists_itemsUnfold h
    exact ⟨_, .list hitems⟩
  | .map _, h => by
    obtain ⟨entries', hentries⟩ := exists_entriesUnfold h
    exact ⟨_, .map hentries⟩
  | .tuple items, _ => ⟨_, .tuple items⟩
  | .set items, _ => ⟨_, .set items⟩

theorem exists_itemsUnfold : ∀ {items : List Value},
    (∀ t ∈ Value.itemStrings items, ∃ r, Unfolds targets (.string t) (.ok r)) →
    ∃ items', ItemsUnfold targets items (.ok items')
  | [], _ => ⟨[], .nil⟩
  | v :: items, h => by
    obtain ⟨hv, hrest⟩ := List.forall_mem_append.mp h
    obtain ⟨r, hr⟩ := exists_unfolds_of_strings hv
    obtain ⟨items', hitems⟩ := exists_itemsUnfold hrest
    exact ⟨r :: items', .cons hr hitems⟩

theorem exists_entriesUnfold : ∀ {entries : List (Scalar × Value)},
    (∀ t ∈ Value.entryStrings entries, ∃ r, Unfolds targets (.string t) (.ok r)) →
    ∃ entries', EntriesUnfold targets entries (.ok entries')
  | [], _ => ⟨[], .nil⟩
  | (key, v) :: entries, h => by
    obtain ⟨hv, hrest⟩ := List.forall_mem_append.mp h
    obtain ⟨r, hr⟩ := exists_unfolds_of_strings hv
    obtain ⟨entries', hentries⟩ := exists_entriesUnfold hrest
    exact ⟨(key, r) :: entries', .cons hr hentries⟩

end

/-- The rules lead to an end for every string, as the strings that they come to get shorter. -/
theorem exists_unfolds_string (hyaml : .yaml ∉ targets) (t : Text) :
    ∃ r, Unfolds targets (.string t) (.ok r) := by
  cases hdecode : decodeString targets Runtime.frames t with
  | error f => exact absurd (decodeString_eq_error hdecode).1 hyaml
  | ok document =>
    cases document with
    | none => exact ⟨_, .kept hdecode⟩
    | some v =>
      obtain ⟨r, hr⟩ := exists_unfolds_of_strings fun s hs => exists_unfolds_string hyaml s
      exact ⟨r, .decoded hdecode hr⟩
termination_by t.length
decreasing_by exact length_lt_of_decodeString hyaml hdecode hs

theorem exists_unfolds (hyaml : .yaml ∉ targets) (v : Value) : ∃ r, Unfolds targets v (.ok r) :=
  exists_unfolds_of_strings fun t _ => exists_unfolds_string hyaml t

/-- **Decoding comes to an end.** Whatever a string decodes to as JSON or as a request, the strings in it
are shorter than it was, so of strings that are decoded inside one another there are at most as many as the
first one has characters. From every value the rules of decoding lead to one value and to nothing else,
without any bound on how far they are followed. A walk with enough frames finds that value, and so does
decoding with the stack there is, if there is room; it fails for nothing but nesting. -/
theorem decodeAll_terminates (targets : List Target) (hyaml : .yaml ∉ targets) :
    (∀ frames t v, decodeString targets frames t = .ok (some v) →
      ∀ s ∈ v.strings, s.length < t.length) ∧
    (∀ t path, IsPath targets (t :: path) → (t :: path).length ≤ t.length) ∧
    ∀ v, ∃ r, (∀ x, Unfolds targets v x ↔ x = .ok r) ∧
      (∃ least, ∀ n, least ≤ n → walk targets n v = .ok r) ∧
      (HasRoom targets Runtime.frames v → decodeAll targets v = .ok r) ∧
      ∀ f, decodeAll targets v = .error f → f = .tooDeep := by
  refine ⟨fun frames t v h s hs => length_lt_of_decodeString hyaml h hs,
    fun t path h => length_le_of_isPath hyaml h, fun v => ?_⟩
  obtain ⟨r, hr⟩ := exists_unfolds hyaml v
  refine ⟨r, fun x => ⟨fun hx => hx.unique hr, fun h => h ▸ hr⟩, exists_frames_of_unfolds hr,
    fun hroom => decodeAll_of_unfolds hroom hr, fun f hf => ?_⟩
  exact (decodeAll_eq_error hf).resolve_right fun hfault => hyaml hfault.1

end

attribute [local instance] Runtime.standard in
/-- A list in a string of a list in a string: the inner text is the shorter one, the two strings are no more
than the outer one has characters, and the rules lead to the list without a string and to nothing else. -/
theorem decodeAll_terminates_folded : Target.yaml ∉ [Target.json] ∧
    ("[1]" : Text).length < ("[\"[1]\",\"x\"]" : Text).length ∧
    (["[\"[1]\",\"x\"]", "[1]"] : List Text).length ≤ ("[\"[1]\",\"x\"]" : Text).length ∧
    ∀ x, Unfolds [.json] (.string "[\"[1]\",\"x\"]") x ↔ x = .ok unfolded := by
  have hyaml : Target.yaml ∉ [Target.json] := by decide
  have hinner : decodeString [.json] Runtime.frames "[1]" = .ok (some (.list [.integer 1])) := rfl
  have hmem : ("[1]" : Text) ∈ folded.strings := List.mem_cons_self
  obtain ⟨hshorter, hpath, hend⟩ := decodeAll_terminates [.json] hyaml
  refine ⟨hyaml, hshorter _ _ _ decodeString_folded _ hmem,
    hpath _ _ (.step decodeString_folded hmem (.last hinner)), ?_⟩
  obtain ⟨r, honly, -⟩ := hend (.string "[\"[1]\",\"x\"]")
  obtain rfl := Except.ok.inj ((honly _).mp unfolds_folded)
  exact honly

end LogQuery
