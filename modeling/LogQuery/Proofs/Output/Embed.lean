import LogQuery.Proofs.Output.Settled
/-!
# Embedded documents

In the place of a list or a map there may be a string with its JSON text, in that text strings with the
JSON texts of its own parts, and so on (`Value.Embeds`). By the rules of decoding all of these come to the
same (`unfolds_iff_of_embeds`), and what is embedded needs more of the stack than what it stands for
(`HasRoom.of_embeds`).
-/
namespace LogQuery

section

variable [Runtime]

namespace Value

mutual

/-- Whether one value is another with strings in the places of some of its lists and maps: the JSON texts
of what these become, each of which may have such strings in it again. -/
inductive Embeds : Value → Value → Prop
  | same (v : Value) : Embeds v v
  | list {items items' : List Value} (h : ItemsEmbed items items') : Embeds (list items) (list items')
  | map {entries entries' : List (Scalar × Value)} (h : EntriesEmbed entries entries') :
    Embeds (map entries) (map entries')
  | text {v w : Value} (h : Embeds v w) (hplain : w.IsPlain (Runtime.textDepth Runtime.frames))
    (hdoc : w.isDocument = true) : Embeds v (string (Json.write .compact w))

/-- Whether this is so of some values, one by one. -/
inductive ItemsEmbed : List Value → List Value → Prop
  | nil : ItemsEmbed [] []
  | cons {v w : Value} {items items' : List Value} (h : Embeds v w) (hrest : ItemsEmbed items items') :
    ItemsEmbed (v :: items) (w :: items')

/-- Whether this is so of the values of some entries, one by one, with the same keys. -/
inductive EntriesEmbed : List (Scalar × Value) → List (Scalar × Value) → Prop
  | nil : EntriesEmbed [] []
  | cons {key : Scalar} {v w : Value} {entries entries' : List (Scalar × Value)} (h : Embeds v w)
    (hrest : EntriesEmbed entries entries') : EntriesEmbed ((key, v) :: entries) ((key, w) :: entries')

end

/-! ## Plain values stay plain -/

mutual

/-- A plain value has plain values embedded in it, so that its own text can be embedded in turn. -/
theorem Embeds.isPlain {depth : Nat} : ∀ {v w : Value}, v.Embeds w → v.IsPlain depth → w.IsPlain depth
  | _, _, .same _, hv => hv
  | _, _, .text _ hplain _, _ => .string hplain.all_isScalar_write
  | _, _, .list h, .list hitems => .list (h.isPlain hitems)
  | _, _, .map h, .map hnames hscalar hmembers => by
    obtain ⟨members', rfl, hkeys, hmembers'⟩ := h.isPlain rfl hmembers
    have hkeys' : ∀ k ∈ members'.map Prod.fst, k.all CodePoint.isScalar = true := by
      rw [hkeys]
      exact List.forall_mem_map.mpr hscalar
    exact .map (hkeys ▸ hnames) (List.forall_mem_map.mp hkeys') hmembers'

theorem ItemsEmbed.isPlain {depth : Nat} : ∀ {items items' : List Value}, ItemsEmbed items items' →
    (∀ v ∈ items, v.IsPlain depth) → ∀ w ∈ items', w.IsPlain depth
  | _, _, .nil, _ => List.forall_mem_nil _
  | _, _, .cons h hrest, hitems => by
    obtain ⟨hv, hitems⟩ := List.forall_mem_cons.mp hitems
    exact List.forall_mem_cons.mpr ⟨h.isPlain hv, hrest.isPlain hitems⟩

theorem EntriesEmbed.isPlain {depth : Nat} : ∀ {entries entries' : List (Scalar × Value)},
    EntriesEmbed entries entries' → ∀ {members : List (Text × Value)},
    entries = members.map (fun e => (.string e.1, e.2)) → (∀ e ∈ members, e.2.IsPlain depth) →
    ∃ members' : List (Text × Value), entries' = members'.map (fun e => (.string e.1, e.2)) ∧
      members'.map Prod.fst = members.map Prod.fst ∧ ∀ e ∈ members', e.2.IsPlain depth
  | _, _, .nil, members, hentries, _ => by
    cases members with
    | nil => exact ⟨[], rfl, rfl, List.forall_mem_nil _⟩
    | cons e members => cases hentries
  | _, _, .cons (w := w) h hrest, members, hentries, hmembers => by
    cases members with
    | nil => cases hentries
    | cons e members =>
      cases hentries
      obtain ⟨hv, hmembers⟩ := List.forall_mem_cons.mp hmembers
      obtain ⟨members', rfl, hkeys, hmembers'⟩ := hrest.isPlain rfl hmembers
      exact ⟨(e.1, w) :: members', rfl, congrArg (e.1 :: ·) hkeys,
        List.forall_mem_cons.mpr ⟨h.isPlain hv, hmembers'⟩⟩

end

end Value

/-! ## Decoding sees no difference -/

variable {targets : List Target}

mutual

theorem unfolds_of_embeds (hjson : .json ∈ targets) : ∀ {v w : Value}, v.Embeds w →
    ∀ {x : Except Fault Value}, Unfolds targets v x → Unfolds targets w x
  | _, _, .same _, _, hx => hx
  | _, _, .list h, _, hx => by
    cases hx with
    | list hitems => exact .list (itemsUnfold_of_embed hjson h hitems)
  | _, _, .map h, _, hx => by
    cases hx with
    | map hentries => exact .map (entriesUnfold_of_embed hjson h hentries)
  | _, _, .text h hplain hdoc, _, hx =>
    .decoded (decodeString_write hjson hplain hdoc) (unfolds_of_embeds hjson h hx)

theorem itemsUnfold_of_embed (hjson : .json ∈ targets) : ∀ {items items' : List Value},
    Value.ItemsEmbed items items' → ∀ {x : Except Fault (List Value)}, ItemsUnfold targets items x →
    ItemsUnfold targets items' x
  | _, _, .nil, _, hx => hx
  | _, _, .cons h hrest, _, hx => by
    cases hx with
    | failed hv => exact .failed (unfolds_of_embeds hjson h hv)
    | cons hv hitems =>
      exact .cons (unfolds_of_embeds hjson h hv) (itemsUnfold_of_embed hjson hrest hitems)

theorem entriesUnfold_of_embed (hjson : .json ∈ targets) :
    ∀ {entries entries' : List (Scalar × Value)}, Value.EntriesEmbed entries entries' →
    ∀ {x : Except Fault (List (Scalar × Value))}, EntriesUnfold targets entries x →
    EntriesUnfold targets entries' x
  | _, _, .nil, _, hx => hx
  | _, _, .cons h hrest, _, hx => by
    cases hx with
    | failed hv => exact .failed (unfolds_of_embeds hjson h hv)
    | cons hv hentries =>
      exact .cons (unfolds_of_embeds hjson h hv) (entriesUnfold_of_embed hjson hrest hentries)

end

mutual

theorem unfolds_of_embedded (hjson : .json ∈ targets) : ∀ {v w : Value}, v.Embeds w →
    ∀ {x : Except Fault Value}, Unfolds targets w x → Unfolds targets v x
  | _, _, .same _, _, hx => hx
  | _, _, .list h, _, hx => by
    cases hx with
    | list hitems => exact .list (itemsUnfold_of_embedded hjson h hitems)
  | _, _, .map h, _, hx => by
    cases hx with
    | map hentries => exact .map (entriesUnfold_of_embedded hjson h hentries)
  | _, _, .text h hplain hdoc, _, hx => by
    have hdecode := decodeString_write hjson hplain hdoc
    cases hx with
    | failed hfails => cases hdecode.symm.trans hfails
    | kept hkept => cases hdecode.symm.trans hkept
    | decoded hsome hw =>
      cases hdecode.symm.trans hsome
      exact unfolds_of_embedded hjson h hw
    | scalar hs => exact absurd rfl (hs _)

theorem itemsUnfold_of_embedded (hjson : .json ∈ targets) : ∀ {items items' : List Value},
    Value.ItemsEmbed items items' → ∀ {x : Except Fault (List Value)}, ItemsUnfold targets items' x →
    ItemsUnfold targets items x
  | _, _, .nil, _, hx => hx
  | _, _, .cons h hrest, _, hx => by
    cases hx with
    | failed hw => exact .failed (unfolds_of_embedded hjson h hw)
    | cons hw hitems =>
      exact .cons (unfolds_of_embedded hjson h hw) (itemsUnfold_of_embedded hjson hrest hitems)

theorem entriesUnfold_of_embedded (hjson : .json ∈ targets) :
    ∀ {entries entries' : List (Scalar × Value)}, Value.EntriesEmbed entries entries' →
    ∀ {x : Except Fault (List (Scalar × Value))}, EntriesUnfold targets entries' x →
    EntriesUnfold targets entries x
  | _, _, .nil, _, hx => hx
  | _, _, .cons h hrest, _, hx => by
    cases hx with
    | failed hw => exact .failed (unfolds_of_embedded hjson h hw)
    | cons hw hentries =>
      exact .cons (unfolds_of_embedded hjson h hw) (entriesUnfold_of_embedded hjson hrest hentries)

end

mutual

/-- Where there is room for a value with embedded documents there is room for the value without them. -/
theorem HasRoom.of_embeds (hjson : .json ∈ targets) : ∀ {v w : Value}, v.Embeds w → ∀ {n : Nat},
    n ≤ Runtime.frames → HasRoom targets n w → HasRoom targets n v
  | _, _, .same _, _, _, hw => hw
  | _, _, .list h, _, hn, hw => by
    cases hw with
    | list hroom hitems =>
      exact .list hroom (hasRoom_of_itemsEmbed hjson h (Nat.le_trans (Nat.sub_le _ _) hn) hitems)
  | _, _, .map h, _, hn, hw => by
    cases hw with
    | map hroom hentries =>
      exact .map hroom (hasRoom_of_entriesEmbed hjson h (Nat.le_trans (Nat.sub_le _ _) hn) hentries)
  | _, _, .text h hplain hdoc, n, hn, hw => by
    cases hw with
    | string hroom hsame hinside =>
      have hdecode := hsame.trans (decodeString_write hjson hplain hdoc)
      have hdocument := (hinside _ hdecode).of_le (Nat.sub_le n 1) hn
      exact HasRoom.of_embeds hjson h hn hdocument
    | scalar _ hs => exact absurd rfl (hs _)

theorem hasRoom_of_itemsEmbed (hjson : .json ∈ targets) : ∀ {items items' : List Value},
    Value.ItemsEmbed items items' → ∀ {n : Nat}, n ≤ Runtime.frames →
    (∀ w ∈ items', HasRoom targets n w) → ∀ v ∈ items, HasRoom targets n v
  | _, _, .nil, _, _, _ => List.forall_mem_nil _
  | _, _, .cons h hrest, _, hn, hitems => by
    obtain ⟨hw, hitems⟩ := List.forall_mem_cons.mp hitems
    exact List.forall_mem_cons.mpr
      ⟨HasRoom.of_embeds hjson h hn hw, hasRoom_of_itemsEmbed hjson hrest hn hitems⟩

theorem hasRoom_of_entriesEmbed (hjson : .json ∈ targets) :
    ∀ {entries entries' : List (Scalar × Value)}, Value.EntriesEmbed entries entries' → ∀ {n : Nat},
    n ≤ Runtime.frames → (∀ e ∈ entries', HasRoom targets n e.2) → ∀ e ∈ entries, HasRoom targets n e.2
  | _, _, .nil, _, _, _ => List.forall_mem_nil _
  | _, _, .cons h hrest, _, hn, hentries => by
    obtain ⟨hw, hentries⟩ := List.forall_mem_cons.mp hentries
    exact List.forall_mem_cons.mpr
      ⟨HasRoom.of_embeds hjson h hn hw, hasRoom_of_entriesEmbed hjson hrest hn hentries⟩

end

/-- With room on the stack a value with embedded documents decodes to the same as the value without them. -/
theorem decodeAll_of_embeds (hjson : .json ∈ targets) {v w : Value} (h : v.Embeds w)
    (hroom : HasRoom targets Runtime.frames w) : decodeAll targets w = decodeAll targets v := by
  have hv := unfolds_decodeAll (HasRoom.of_embeds hjson h (Nat.le_refl _) hroom)
  exact (unfolds_decodeAll hroom).unique (unfolds_of_embeds hjson h hv)

/-- **Embedding.** The JSON text of a plain list or map decodes to what the list or map does. So a record
decodes to the same whichever of its lists and maps are replaced by their JSON texts, inside one another
too, if there is room on the stack for the replaced one. The rules alone, which know of no stack, lead to
the same for all of them; and a plain record stays plain, so that its own text can be taken again. -/
theorem decodeAll_embed (hjson : .json ∈ targets) :
    (∀ v : Value, v.IsPlain (Runtime.textDepth Runtime.frames) → v.isDocument = true →
      HasRoom targets Runtime.frames (.string (Json.write .compact v)) →
      decodeAll targets (.string (Json.write .compact v)) = decodeAll targets v) ∧
    ∀ v w : Value, v.Embeds w →
      (HasRoom targets Runtime.frames w → decodeAll targets w = decodeAll targets v) ∧
      (∀ x, Unfolds targets w x ↔ Unfolds targets v x) ∧
      ∀ depth, v.IsPlain depth → w.IsPlain depth := by
  refine ⟨fun v hplain hdoc hroom => ?_, fun v w h => ⟨fun hroom => ?_, fun x => ?_, fun depth hplain => ?_⟩⟩
  · exact decodeAll_of_embeds hjson (.text (.same v) hplain hdoc) hroom
  · exact decodeAll_of_embeds hjson h hroom
  · exact ⟨unfolds_of_embedded hjson h, unfolds_of_embeds hjson h⟩
  · exact h.isPlain hplain

end

/-! ## A request in a string -/

attribute [local instance] Runtime.standard

/-- The labels of a request, with a quote in one of them. -/
def labels : Value := .list [.string "a\"b"]

/-- A request with an identifier of 64 bits. -/
def request (labels : Value) : Value :=
  .map [(.string "id", .integer 18446744073709551615), (.string "labels", labels)]

def labelsText : Text := "[\"a\\\"b\"]"

/-- The text of a request with its labels in a string. -/
def requestText : Text := "\x7b\"id\":18446744073709551615,\"labels\":\"[\\\"a\\\\\\\"b\\\"]\"\x7d"

theorem isPlain_labels (depth : Nat) : labels.IsPlain (depth + 1) :=
  .list (List.forall_mem_singleton.mpr (.string rfl))

theorem isPlain_request {labels : Value} {depth : Nat} (h : labels.IsPlain depth) :
    (request labels).IsPlain (depth + 1) := by
  have hnames : (["id", "labels"] : List Text).Nodup := by decide
  refine @Value.IsPlain.map _ [("id", .integer 18446744073709551615), ("labels", labels)] hnames ?_ ?_
  all_goals rw [List.forall_mem_cons, List.forall_mem_singleton]
  · exact ⟨rfl, rfl⟩
  · exact ⟨.integer (Tagged.inRange_iff.mpr (by decide)), h⟩

theorem write_labels : Json.write .compact labels = labelsText := by decide +kernel

theorem write_request : Json.write .compact (request (.string labelsText)) = requestText := by
  decide +kernel

/-- The text of the request decodes to it, with its labels in a string, as long as there is room for one
level of nesting. -/
theorem decodeString_requestText {frames : Nat} (h : 8 ≤ frames) :
    decodeString [.json] frames requestText = .ok (some (request (.string labelsText))) := by
  obtain ⟨depth, hdepth⟩ : ∃ depth, Runtime.textDepth frames = depth + 1 :=
    ⟨(frames - 5) / 2 - 1, by show (frames - 5) / 2 = _; omega⟩
  rw [← write_request]
  refine decodeString_write List.mem_cons_self ?_ rfl
  rw [hdepth]
  exact isPlain_request (.string (by decide))

theorem decodeString_labelsText {frames : Nat} (h : 8 ≤ frames) :
    decodeString [.json] frames labelsText = .ok (some labels) := by
  obtain ⟨depth, hdepth⟩ : ∃ depth, Runtime.textDepth frames = depth + 1 :=
    ⟨(frames - 5) / 2 - 1, by show (frames - 5) / 2 = _; omega⟩
  rw [← write_labels]
  refine decodeString_write List.mem_cons_self ?_ rfl
  rw [hdepth]
  exact isPlain_labels depth

theorem hasRoom_requestText :
    HasRoom [.json] Runtime.frames (.list [.float .nan, .string requestText]) := by
  have hlabels : HasRoom [.json] 975 (.string labelsText) := by
    refine .string (by decide) ?_ fun v hv => ?_
    · rw [decodeString_labelsText (by decide), decodeString_labelsText (by decide)]
    · cases (decodeString_labelsText (by decide)).symm.trans hv
      refine .list (by decide) (List.forall_mem_singleton.mpr (.string (by decide) rfl fun v hv => ?_))
      cases hv
  have hrequest : HasRoom [.json] 977 (request (.string labelsText)) := by
    refine .map (by decide) ?_
    rw [List.forall_mem_cons, List.forall_mem_singleton]
    exact ⟨.scalar (s := .integer 18446744073709551615) (by decide) nofun, hlabels⟩
  refine .list (by decide) ?_
  rw [List.forall_mem_cons, List.forall_mem_singleton]
  refine ⟨.scalar (s := .float .nan) (by decide) nofun, .string (by decide) ?_ fun v hv => ?_⟩
  · rw [decodeString_requestText (by decide), decodeString_requestText (by decide)]
  · cases (decodeString_requestText (by decide)).symm.trans hv
    exact hrequest

/-- A request in a string, with its labels in a string of that, decodes to the request. -/
theorem decodeAll_embed_request : Target.json ∈ [Target.json] ∧
    decodeAll [.json] (.list [.float .nan, .string requestText])
      = .ok (.list [.float .nan, request labels]) := by
  have hinner : (request labels).Embeds (request (.string labelsText)) := by
    rw [← write_labels]
    exact .map (.cons (.same _) (.cons (.text (.same _) (isPlain_labels 486) rfl) .nil))
  have houter : (request labels).Embeds (.string requestText) := by
    rw [← write_request]
    exact .text hinner (@isPlain_request _ 486 (.string (by decide))) rfl
  obtain ⟨-, hembeds⟩ := @decodeAll_embed _ [.json] List.mem_cons_self
  exact ⟨List.mem_cons_self,
    ((hembeds _ _ (.list (.cons (.same _) (.cons houter .nil)))).1 hasRoom_requestText).trans rfl⟩

end LogQuery
