import LogQuery.Proofs.Json.Tagging
import LogQuery.Proofs.Output.Nested
import LogQuery.Proofs.Text.Split
/-!
# The strings inside a document are shorter than its text

Whatever a string decodes to in JSON or as a request, the strings in that are shorter than it was: a JSON
string lacks its quotes, and a part of a request the rest of its line (`length_lt_of_decodeString`). That is
why decoding a string over and over comes to an end.
-/
namespace LogQuery

open Json (Tree)

variable {t s : Text} {v : Value}

/-! ## JSON -/

theorem strings_plain_ofLiteral (literal : Text) : (Tagged.ofLiteral literal).plain.strings = [] := by
  rcases Tagged.ofLiteral_cases literal with h | h | h <;> rw [h] <;> rfl

theorem length_lt_of_fits {tree : Tree} {depth size : Nat} (h : tree.Fits depth size)
    (hs : s ∈ (Tagged.ofTree tree).plain.strings) : s.length < size := by
  induction h with
  | null | bool | decimal | constant => cases hs
  | integer =>
    rw [Tagged.ofTree, strings_plain_ofLiteral] at hs
    cases hs
  | string hlength =>
    rw [List.mem_singleton.mp hs]
    omega
  | @list _ _ items _ ih =>
    rw [Tagged.ofTree, Tagged.plain, Tagged.ofTrees_eq_map, Tagged.plainItems_eq_map,
      Value.strings, Value.mem_itemStrings] at hs
    obtain ⟨w, hw, hs⟩ := hs
    obtain ⟨x, hx, rfl⟩ := List.mem_map.mp hw
    obtain ⟨tree, htree, rfl⟩ := List.mem_map.mp hx
    exact ih tree htree hs
  | @map _ _ members _ _ ih =>
    rw [Tagged.ofTree, Tagged.plain, Tagged.ofTreeMembers_eq_map, Tagged.plainMembers_eq_map,
      Value.strings, Value.mem_entryStrings] at hs
    obtain ⟨e, he, hs⟩ := hs
    obtain ⟨x, hx, rfl⟩ := List.mem_map.mp he
    obtain ⟨member, hmember, rfl⟩ := List.mem_map.mp hx
    exact ih member hmember hs

theorem length_lt_of_decode {depth : Nat} {x : Tagged} (h : Tagged.decode depth t = .ok x)
    (hs : s ∈ x.plain.strings) :
    s.length < t.length := by
  obtain ⟨tree, htree, rfl⟩ := eq_ok_of_map h
  exact length_lt_of_fits (Json.fits_of_read htree) hs

theorem length_lt_of_jsonDocument? {depth : Nat} (h : jsonDocument? depth t = some v) (hs : s ∈ v.strings) :
    s.length < t.length := by
  unfold jsonDocument? at h
  split at h
  · cases h
  split at h
  · split at h
    next hread =>
      cases h
      exact length_lt_of_decode hread hs
    next hread =>
      cases h
      exact length_lt_of_decode hread hs
    next => cases h
  · cases h

/-! ## Requests -/

namespace HttpRequest

theorem room_lines? {lines : List Text} (h : lines? t = some lines) :
    Text.room lines ≤ t.length + 1 := by
  have hsplit := Text.room_splitOn (.scalar '\n') t
  unfold lines? at h
  split at h
  next hlines =>
    split at h
    · cases h
      exact Text.room_splitOnPair _ _ t
    · cases h
      rw [← hlines]
      exact Nat.le_of_eq hsplit
  next => cases h

theorem length_headersAndBody? {headers' : List (Text × Text)} {body : Option Text} :
    ∀ {lines : List Text} {headers : List (Text × Text)},
    headersAndBody? headers lines = some (headers', body) →
    (∀ e ∈ headers', e ∈ headers ∨ e.2.length < Text.room lines) ∧
      ∀ b, body = some b → b.length < Text.room lines
  | [], headers, h => by
    cases h
    exact ⟨fun e he => Or.inl he, fun b hb => by cases hb⟩
  | line :: rest, headers, h => by
    unfold headersAndBody? at h
    split at h
    next heq => cases heq
    next heq =>
      cases heq
      cases h
      refine ⟨fun e he => Or.inl he, ?_⟩
      rintro b ⟨⟩
      have hjoin : (Text.join (Text.ofString "\n") rest).length ≤ Text.room rest :=
        Text.length_join_le (.scalar '\n') rest
      rw [Text.room]
      omega
    next heq =>
      cases heq
      split at h
      next name value hcut =>
        obtain ⟨hheaders, hbody⟩ := length_headersAndBody? h
        have hvalue := Text.length_cutPair? hcut
        refine ⟨fun e he => ?_, fun b hb => ?_⟩
        · rcases hheaders e he with he | he
          · rcases Text.mem_of_mem_insert he with rfl | he
            · refine Or.inr ?_
              simp only [Text.room]
              omega
            · exact Or.inl he
          · refine Or.inr ?_
            rw [Text.room]
            omega
        · have := hbody b hb
          rw [Text.room]
          omega
      next => cases h

/-- The strings of a request are the parts of its first line, the values of its headers and its body. -/
theorem mem_strings_toValue {r : HttpRequest} (h : s ∈ r.toValue.strings) :
    s = r.method ∨ s = r.url ∨ s = r.version ∨ (∃ e ∈ r.headers, s = e.2) ∨ r.body = some s := by
  have hheaders : s ∈ (Value.ofMembers (r.headers.map fun e => (e.1, Value.string e.2))).strings →
      ∃ e ∈ r.headers, s = e.2 := by
    intro h
    rw [Value.ofMembers, Value.strings, Value.mem_entryStrings] at h
    obtain ⟨entry, hentry, h⟩ := h
    obtain ⟨member, hmember, rfl⟩ := List.mem_map.mp hentry
    obtain ⟨e, he, rfl⟩ := List.mem_map.mp hmember
    exact ⟨e, he, List.mem_singleton.mp h⟩
  rw [toValue, Value.ofMembers, Value.strings, Value.mem_entryStrings] at h
  obtain ⟨entry, hentry, h⟩ := h
  obtain ⟨member, hmember, rfl⟩ := List.mem_map.mp hentry
  rcases List.mem_append.mp hmember with hmember | hmember
  · simp only [List.mem_cons, List.not_mem_nil, or_false] at hmember
    rcases hmember with rfl | rfl | rfl | rfl
    · exact Or.inl (List.mem_singleton.mp h)
    · exact Or.inr (Or.inl (List.mem_singleton.mp h))
    · exact Or.inr (Or.inr (Or.inl (List.mem_singleton.mp h)))
    · exact Or.inr (Or.inr (Or.inr (Or.inl (hheaders h))))
  · cases hbody : r.body with
    | none =>
      rw [hbody] at hmember
      cases hmember
    | some body =>
      rw [hbody] at hmember
      obtain rfl := List.mem_singleton.mp hmember
      rw [List.mem_singleton.mp h]
      exact Or.inr (Or.inr (Or.inr (Or.inr rfl)))

theorem length_lt_of_ofText? {r : HttpRequest} (h : ofText? t = some r) (hs : s ∈ r.toValue.strings) :
    s.length < t.length := by
  obtain ⟨lines, hlines, h⟩ := Option.bind_eq_some_iff.mp h
  have hroom := room_lines? hlines
  split at h
  · cases h
  next first rest =>
  split at h
  next method url version hsplit =>
    split at h
    · obtain ⟨⟨headers, body⟩, hrest, h⟩ := Option.bind_eq_some_iff.mp h
      cases h
      have hfirst := Text.room_splitOn (.scalar ' ') first
      rw [hsplit] at hfirst
      simp only [Text.room] at hfirst hroom
      obtain ⟨hheaders, hbody⟩ := length_headersAndBody? hrest
      rcases mem_strings_toValue hs with rfl | rfl | rfl | ⟨e, he, rfl⟩ | hb
      · omega
      · omega
      · omega
      · have := (hheaders e he).resolve_left List.not_mem_nil
        omega
      · have := hbody s hb
        omega
    · cases h
  next => cases h

end HttpRequest

/-! ## Any document -/

variable [Runtime] {targets : List Target} {frames : Nat}

theorem decodeString_eq_some (h : decodeString targets frames t = .ok (some v)) :
    (∃ depth, jsonDocument? depth t = some v) ∨
      .yaml ∈ targets ∧ yamlDocument? frames t = .ok (some v) ∨
      ∃ r, HttpRequest.ofText? t = some r ∧ r.toValue = v := by
  cases hjson : jsonTarget? targets frames t with
  | some w =>
    rw [decodeString_of_json hjson] at h
    cases h
    unfold jsonTarget? at hjson
    split at hjson
    · exact Or.inl ⟨_, hjson⟩
    · cases hjson
  | none =>
    rw [decodeString_of_noJson hjson] at h
    obtain ⟨yaml, hyaml, h⟩ := eq_ok_of_map h
    rcases Option.or_eq_some_iff.mp h with rfl | ⟨-, h⟩
    · unfold yamlTarget? at hyaml
      split at hyaml
      next hmem => exact Or.inr (Or.inl ⟨List.contains_iff_mem.mp hmem, hyaml⟩)
      next => cases hyaml
    · split at h
      · exact Or.inr (Or.inr (Option.map_eq_some_iff.mp h))
      · cases h

/-- **Shorter.** Whatever a string decodes to in JSON or as a request, the strings in it are shorter than the
string was. -/
theorem length_lt_of_decodeString (hyaml : .yaml ∉ targets)
    (h : decodeString targets frames t = .ok (some v)) (hs : s ∈ v.strings) : s.length < t.length := by
  rcases decodeString_eq_some h with ⟨depth, hjson⟩ | ⟨hmem, -⟩ | ⟨r, hr, rfl⟩
  · exact length_lt_of_jsonDocument? hjson hs
  · exact absurd hmem hyaml
  · exact HttpRequest.length_lt_of_ofText? hr hs

end LogQuery
