import LogQuery.Output.Render
import LogQuery.Proofs.Json.Nesting
import LogQuery.Proofs.Output.Rules
/-!
# Showing records deeper in the stack

The same records can be shown where more of the stack is in use. The walk of a value there is the walk with
fewer frames (`mapStrings_deeper`), and with fewer frames strings can be left as they are that would have
been decoded, or there can be no outcome at all. But whatever can spare these frames comes to the same
(`render_deeper`).
-/
namespace LogQuery

section

variable [runtime : Runtime] {f : Nat → Text → Except Fault Value} {targets : List Target} {k m n : Nat}

/-! ## Walks -/

namespace Value

mutual

/-- A walk does not depend on the size of the stack but for the frames that it is given. -/
theorem mapStrings_deeper : ∀ {n : Nat} {v : Value},
    @mapStrings (runtime.deeper k) f n v = v.mapStrings f n
  | 0, v => by cases v <;> rfl
  | _ + 1, scalar s => by cases s <;> rfl
  | _ + 1, list items => congrArg (Except.map list) mapStringsItems_deeper
  | _ + 1, map entries => congrArg (Except.map map) mapStringsEntries_deeper
  | _ + 1, tuple _ | _ + 1, set _ => rfl

theorem mapStringsItems_deeper : ∀ {n : Nat} {items : List Value},
    @mapStringsItems (runtime.deeper k) f n items = mapStringsItems f n items
  | _, [] => rfl
  | _, v :: items => by
    simp only [mapStringsItems, mapStrings_deeper, mapStringsItems_deeper]

theorem mapStringsEntries_deeper : ∀ {n : Nat} {entries : List (Scalar × Value)},
    @mapStringsEntries (runtime.deeper k) f n entries = mapStringsEntries f n entries
  | _, [] => rfl
  | _, (_, v) :: entries => by
    simp only [mapStringsEntries, mapStrings_deeper, mapStringsEntries_deeper]

end

end Value

theorem decodeNested_deeper {decode : Nat → Text → Except Fault (Option Value)} (nesting : Nat) :
    @decodeNested (runtime.deeper k) decode nesting = decodeNested decode nesting := by
  induction nesting with
  | zero => rfl
  | succ nesting ih =>
    funext frames t
    have hinside : ∀ v : Value, @Value.mapStrings (runtime.deeper k)
        (@decodeNested (runtime.deeper k) decode nesting) (frames - 1) v
          = v.mapStrings (decodeNested decode nesting) (frames - 1) := fun v => by
      rw [ih, Value.mapStrings_deeper]
    simp only [decodeNested]
    refine ite_congr rfl (fun _ => rfl) fun _ => ?_
    cases decode frames t with
    | error f => rfl
    | ok document =>
      cases document with
      | none => rfl
      | some v => exact hinside v

theorem decodeText_deeper {decode : Nat → Text → Except Fault (Option Value)} :
    @decodeText (runtime.deeper k) decode = decodeText decode := by
  funext frames t
  simp only [decodeText, decodeNested_deeper]

theorem mapStrings_of_hasRoom {v : Value} (h : HasRoom targets m v) (hle : m ≤ n)
    (hn : n ≤ Runtime.frames) : v.mapStrings (decodeText (decodeString targets)) m
      = v.mapStrings (decodeText (decodeString targets)) n :=
  (unfolds_of_hasRoom h).unique (unfolds_of_hasRoom (h.of_le hle hn))

theorem mapStringsEntries_of_hasRoom (hle : m ≤ n) (hn : n ≤ Runtime.frames) : ∀ {entries : Record},
    (∀ e ∈ entries, HasRoom targets m e.2) →
    Value.mapStringsEntries (decodeText (decodeString targets)) m entries
      = Value.mapStringsEntries (decodeText (decodeString targets)) n entries
  | [], _ => rfl
  | (_, v) :: entries, h => by
    obtain ⟨hv, hrest⟩ := List.forall_mem_cons.mp h
    rw [Value.mapStringsEntries, Value.mapStringsEntries, mapStrings_of_hasRoom hv hle hn,
      mapStringsEntries_of_hasRoom hle hn hrest]

/-! ## Records -/

/-- Whether a record can spare some frames: without them there is still room for the fields that are
shown of it, and what they come to is not nested too deeply to be written. -/
structure Profile.CanSpare (p : Profile) (k : Nat) (record : Record) : Prop where
  decodes : p.decode ≠ [] → ∀ shown, p.select record = .ok shown →
    ∀ e ∈ shown, HasRoom p.decode (Runtime.frames - k) e.2
  writes : ∀ shown, p.apply record = .ok shown →
    Json.refusalWithin? (some (Runtime.writeDepth (Runtime.frames - k))) (.map shown) ≠ some .tooDeep

namespace Profile

variable {p : Profile} {record : Record} {records : List Record}

theorem apply_deeper (h : p.CanSpare k record) :
    @apply (runtime.deeper k) p record = p.apply record := by
  unfold apply
  cases hselect : p.select record with
  | error f => rfl
  | ok shown =>
    simp only [bind, Except.bind]
    split
    next => rfl
    next hsome =>
      -- The walk asks the runtime for no more than its frames, and there is room with fewer of them.
      rw [Value.mapStringsEntries_deeper, decodeText_deeper]
      exact mapStringsEntries_of_hasRoom (Nat.sub_le _ _) (Nat.le_refl _) (h.decodes hsome shown hselect)

theorem recordText_deeper (h : p.CanSpare k record) :
    @recordText (runtime.deeper k) p record = recordText p record := by
  unfold recordText
  rw [apply_deeper h]
  cases happly : p.apply record with
  | error f => rfl
  | ok shown =>
    have hsame := Json.refusalWithin?_eq_of_le (Runtime.writeDepth_mono (Nat.sub_le Runtime.frames k))
      (h.writes shown happly)
    simp only [Except.mapError, bind, Except.bind, Json.encodeWithin, hsame]
    rfl

/-- **Records that can spare frames** are shown in the same way without them. -/
theorem render_deeper (h : ∀ record ∈ records, p.CanSpare k record) :
    @render (runtime.deeper k) p records = render p records := by
  have htexts : @recordTexts (runtime.deeper k) p records = recordTexts p records :=
    congrArg (Except.map List.flatten)
      (mapM_congr fun record hrecord => recordText_deeper (h record hrecord))
  unfold render
  rw [htexts]

end Profile

end

end LogQuery
