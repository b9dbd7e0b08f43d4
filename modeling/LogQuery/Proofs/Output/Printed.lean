import LogQuery.Proofs.Json.Standard
import LogQuery.Proofs.Output.Render
import LogQuery.Search.Reply
/-!
# What records are shown as

A plain profile shows every field of a record as it is. Records that were read from a response then come
to one JSON document each, or they do not come to bytes at all, because one of them is nested too deeply to
be written or a string in one of them holds a lone surrogate. The documents are accepted by whoever keeps to
the standard if the numbers in them have digits (`IsDocument`).

* `render_plain`: the documents, or the failure.
-/
namespace LogQuery

/-- A profile in JSON that shows all fields as they are. -/
structure Profile.IsPlain (p : Profile) : Prop where
  hasFormat : p.hasFormat = true
  only : p.only = none
  exclude : p.exclude = none
  decode : p.decode = []

/-- The bytes of the JSON document that a record is shown as, where records have some levels of nesting at
most. -/
structure IsDocument (depth : Nat) (record : TaggedRecord) (bytes : Bytes) : Prop where
  written : Utf8.encode? (Json.write .indented (Tagged.map record).plain) = some bytes
  /-- They are UTF-8. -/
  valid : ∃ t, Utf8.strict bytes = .ok t
  /-- They are accepted as JSON exactly if all numbers of the record have digits. -/
  accepted : (∃ x, Tagged.decodeBytes depth bytes = .ok x) ↔ (Tagged.map record).isFinite = true

/-- The text of a record in JSON, with a line end. -/
def Record.shown (r : Record) : Text := Json.write .indented (.map r) ++ "\n"

def TaggedRecord.shown (r : TaggedRecord) : Text :=
  Json.write .indented (Tagged.map r).plain ++ "\n"

variable {depth : Nat}

section
variable [Runtime] {p : Profile}

theorem apply_plain (hp : p.IsPlain) (r : Record) : p.apply r = .ok r := by
  simp only [Profile.apply, Profile.select, hp.only, hp.exclude, hp.decode, bind, Except.bind, if_true]

theorem recordText_plain (hp : p.IsPlain) (r : Record) : recordText p r
    = ((Json.encodeWithin (some (Runtime.writeDepth Runtime.frames)) .indented (.map r)).mapError
        recordFailure).map (· ++ Text.ofString "\n") := by
  rw [recordText, apply_plain hp]
  refine (bind_of_eq_ok (a := r) rfl).trans ?_
  simp only
  cases Json.encodeWithin (some (Runtime.writeDepth Runtime.frames)) .indented (.map r) <;> rfl

theorem recordTexts_of_refusal (hp : p.IsPlain) : ∀ {records : List Record},
    (∀ r ∈ records,
      Json.refusalWithin? (some (Runtime.writeDepth Runtime.frames)) (.map r) = none) →
    recordTexts p records = .ok (records.flatMap Record.shown)
  | [], _ => rfl
  | r :: records, h => by
    obtain ⟨hr, hrest⟩ := List.forall_mem_cons.mp h
    refine (recordTexts_append p [r] records _).mpr ⟨_, _, ?_, recordTexts_of_refusal hp hrest, rfl⟩
    rw [recordTexts, List.mapM_cons, recordText_plain hp, Json.encodeWithin, hr]
    exact congrArg Except.ok (List.append_nil _)

/-- If there is nothing wrong with records but the nesting of one of them, they have no texts. -/
theorem recordTexts_of_tooDeep (hp : p.IsPlain) {records : List Record}
    (h : ∀ r ∈ records, Json.refusal? (.map r) = none) {r : Record} (hr : r ∈ records)
    (hdeep : Json.refusalWithin? (some (Runtime.writeDepth Runtime.frames)) (.map r) ≠ none) :
    recordTexts p records = .error (.decode .tooDeep) := by
  have hcases : ∀ s ∈ records, (∃ t, recordText p s = .ok t) ∧
      Json.refusalWithin? (some (Runtime.writeDepth Runtime.frames)) (.map s) = none ∨
        recordText p s = .error (.decode .tooDeep) := by
    intro s hs
    rw [recordText_plain hp, Json.encodeWithin]
    rcases Json.refusalWithin?_cases (h s hs) with hnone | hrefusal
    · rw [hnone]
      exact Or.inl ⟨⟨_, rfl⟩, rfl⟩
    · rw [hrefusal]
      exact Or.inr rfl
  have halike : ∀ s ∈ records, ∀ e, recordText p s = .error e → e = .decode .tooDeep := by
    intro s hs e he
    rcases hcases s hs with ⟨⟨t, ht⟩, -⟩ | hfail
    · rw [ht] at he
      cases he
    · exact Except.error.inj (he.symm.trans hfail)
  have hfail := (hcases r hr).resolve_left fun hnone => hdeep hnone.2
  exact map_eq_error_iff.mpr ((mapM_eq_error_iff_exists halike).mpr ⟨rfl, r, hr, hfail⟩)

end

variable {records : List TaggedRecord}

/-- **Where records come to bytes**, each of them comes to a document. -/
theorem exists_documents : ∀ {records : List TaggedRecord} {out : Bytes},
    (∀ r ∈ records, (Tagged.map r).Fits depth) →
    Utf8.encode? (records.flatMap TaggedRecord.shown) = some out →
    ∃ documents, List.Forall₂ (IsDocument depth) records documents ∧ out = documents.flatMap (· ++ [0x0a])
  | [], out, _, h => by
    cases h
    exact ⟨[], .nil, rfl⟩
  | r :: records, out, hfits, h => by
    obtain ⟨hr, hrest⟩ := List.forall_mem_cons.mp hfits
    rw [List.flatMap_cons, TaggedRecord.shown, List.append_assoc, Utf8.encode?_append] at h
    obtain ⟨bytes, hbytes, h⟩ := Option.bind_eq_some_iff.mp h
    obtain ⟨behind, hbehind, rfl⟩ := Option.map_eq_some_iff.mp h
    obtain ⟨later, hlater, rfl⟩ := Option.map_eq_some_iff.mp
      (show (Utf8.encode? (records.flatMap TaggedRecord.shown)).map ([0x0a] ++ ·) = some behind
        from hbehind)
    obtain ⟨documents, hdocuments, rfl⟩ := exists_documents hrest hlater
    refine ⟨bytes :: documents, .cons ⟨hbytes, ⟨_, Utf8.strict_encode hbytes⟩, ?_⟩ hdocuments, ?_⟩
    · exact hr.decodeBytes_iff Json.Style.isPlain_indented hbytes
    · rw [List.flatMap_cons, List.append_assoc]

theorem exists_surrogate (h : Utf8.encode? (records.flatMap TaggedRecord.shown) = none) :
    ∃ r ∈ records, (Tagged.map r).plain.isUnicode = false := by
  by_contra hnone
  have hall : (records.flatMap TaggedRecord.shown).all CodePoint.isScalar = true := by
    rw [List.all_flatMap, List.all_eq_true]
    intro r hr
    have hunicode : (Tagged.map r).plain.isUnicode = true :=
      Bool.of_not_eq_false fun hfalse => hnone ⟨r, hr, hfalse⟩
    rw [TaggedRecord.shown, List.all_append, Utf8.exists_encode_iff.mp
      ((Json.exists_encode_write_iff Json.Style.isPlain_indented _).mpr hunicode)]
    rfl
  obtain ⟨bytes, hbytes⟩ := Utf8.exists_encode_iff.mpr hall
  rw [h] at hbytes
  cases hbytes

/-- **What records are shown as.** They come to one document each, unless one of them is nested too deeply
or holds a lone surrogate. -/
theorem render_plain [Runtime] {p : Profile} (hp : p.IsPlain)
    (hfits : ∀ r ∈ records, (Tagged.map r).Fits depth) :
    (∃ documents, List.Forall₂ (IsDocument depth) records documents ∧
      render p (records.map TaggedRecord.plain) = .ok (documents.flatMap (· ++ [0x0a]))) ∨
    (render p (records.map TaggedRecord.plain) = .error (.fault .unencodable) ∧
      ∃ r ∈ records, (Tagged.map r).plain.isUnicode = false) ∨
    (render p (records.map TaggedRecord.plain) = .error (.decode .tooDeep) ∧
      ∃ r ∈ records, ¬ (Tagged.map r).Fits (Runtime.writeDepth Runtime.frames)) := by
  by_cases hall : ∀ r ∈ records,
      Json.refusalWithin? (some (Runtime.writeDepth Runtime.frames)) (Tagged.map r).plain = none
  · have hall' : ∀ r ∈ records.map TaggedRecord.plain,
        Json.refusalWithin? (some (Runtime.writeDepth Runtime.frames)) (.map r) = none :=
      List.forall_mem_map.mpr hall
    have htexts : recordTexts p (records.map TaggedRecord.plain)
        = .ok (records.flatMap TaggedRecord.shown) := by
      rw [recordTexts_of_refusal hp hall', List.flatMap_map]
      rfl
    unfold render
    rw [if_pos hp.hasFormat, htexts]
    simp only [bind, Except.bind]
    cases hbytes : Utf8.encode? (records.flatMap TaggedRecord.shown) with
    | none => exact Or.inr (Or.inl ⟨rfl, exists_surrogate hbytes⟩)
    | some out =>
      obtain ⟨documents, hdocuments, rfl⟩ := exists_documents hfits hbytes
      exact Or.inl ⟨documents, hdocuments, rfl⟩
  · simp only [not_forall] at hall
    obtain ⟨r, hr, hdeep⟩ := hall
    have hwritten : ∀ r ∈ records.map TaggedRecord.plain, Json.refusal? (.map r) = none :=
      List.forall_mem_map.mpr fun r hr => (hfits r hr).refusal?_plain
    refine Or.inr (Or.inr ⟨?_, r, hr, fun hfits => hdeep (hfits.refusalWithin?_plain (Nat.le_refl _))⟩)
    rw [render, if_pos hp.hasFormat,
      recordTexts_of_tooDeep hp hwritten (List.mem_map_of_mem hr) hdeep]
    rfl

end LogQuery
