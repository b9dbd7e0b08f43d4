import LogQuery.Proofs.Output.Rules
import LogQuery.Proofs.Output.Written
import LogQuery.Runtime.Standard
/-!
# Decoding comes to rest

A string that is left in a decoded value was looked at where it is, and it did not decode there. If it does
not decode with the whole stack either, decoding the value once more changes nothing (`decodeAll_again`).
That is so if there was room for decoding (`decodeAll_fixed`), but not where a string lies too deep: with a
few frames left a document in it may be kept that decodes with more of them (`decodeAll_keeps_brackets`).
-/
namespace LogQuery

section

variable [Runtime] {targets : List Target} {v r : Value}

/-- What became of a string is decoded to itself with as many frames or more, if no string in it decodes
with the whole stack. -/
theorem mapStrings_decodeText {m : Nat} {t : Text} {u : Value}
    (h : decodeText (decodeString targets) m t = .ok u)
    (hu : ∀ s ∈ u.strings, decodeString targets Runtime.frames s = .ok none) {n : Nat} (hmn : m ≤ n)
    (hn : n ≤ Runtime.frames) : u.mapStrings (decodeText (decodeString targets)) n = .ok u := by
  -- On the frames that the string was met with. What is in its document was met with fewer.
  induction m using Nat.strong_induction_on generalizing t u n with
  | _ m ih =>
    obtain ⟨hroom, ⟨hnone, rfl⟩ | ⟨v, -, hv⟩⟩ := cases_of_decodeText h
    · obtain ⟨n, rfl⟩ := Nat.exists_eq_add_one.mpr (show 0 < n by omega)
      have hsettled := hu t List.mem_cons_self
      have hbetween := decodeString_between hmn hn (hnone.trans hsettled.symm)
      exact decodeText_of_none (by omega) (hbetween.trans hsettled)
    · exact Value.mapStrings_again (by omega)
        (fun s _ k hk n' hkn' hn' w hw hsettled => ih k (by omega) hw hsettled hkn' (by omega)) hv hu

/-- **Once more.** If no string of a decoded value decodes with the whole stack, decoding it again changes
nothing. -/
theorem decodeAll_again (h : decodeAll targets v = .ok r)
    (hr : ∀ s ∈ r.strings, decodeString targets Runtime.frames s = .ok none) :
    decodeAll targets r = .ok r :=
  Value.mapStrings_again (Nat.le_refl _)
    (fun _ _ _ _ _ hmn hn _ hu hsettled => mapStrings_decodeText hu hsettled hmn hn) h hr

theorem kept_of_decodeAll (h : decodeAll targets v = .ok r) :
    ∀ s ∈ r.strings, ∃ n ≤ Runtime.frames, decodeString targets n s = .ok none := by
  intro s hs
  obtain ⟨t, -, m, hm, u, hu, hsu⟩ := Value.mem_strings_of_mapStrings h hs
  obtain ⟨n, hn, hnone⟩ := kept_of_decodeText hu s hsu
  exact ⟨n, Nat.le_trans hn hm, hnone⟩

theorem eq_of_decodeAll (h : decodeAll targets v = .ok r)
    (hv : ∀ s ∈ v.strings, decodeString targets Runtime.frames s = .ok none) : r = v := by
  refine Value.eq_of_mapStrings (fun m hm t ht u hu => ?_) h
  obtain ⟨-, ⟨-, rfl⟩ | ⟨w, hw, -⟩⟩ := cases_of_decodeText hu
  · rfl
  · rcases decodeString_of_none hm (hv t ht) with hnone | hdeep
    · rw [hnone] at hw
      cases hw
    · rw [hdeep] at hw
      cases hw

/-- **What decoding leaves behind.** Everything but the strings is as it was, and nothing changes at all if no
string decodes. Every string that is left was kept where it is. If it does not decode with the whole stack
either, which is so wherever there is room for decoding the value, then decoding once more changes
nothing. -/
theorem decodeAll_fixed (h : decodeAll targets v = .ok r) :
    v.keeps r ∧
    ((∀ s ∈ v.strings, decodeString targets Runtime.frames s = .ok none) → r = v) ∧
    (∀ s ∈ r.strings, ∃ n ≤ Runtime.frames, decodeString targets n s = .ok none) ∧
    ((∀ s ∈ r.strings, decodeString targets Runtime.frames s = .ok none) →
      decodeAll targets r = .ok r) ∧
    (HasRoom targets Runtime.frames v →
      (∀ s ∈ r.strings, decodeString targets Runtime.frames s = .ok none) ∧
        decodeAll targets r = .ok r) := by
  refine ⟨Value.keeps_of_mapStrings h, eq_of_decodeAll h, kept_of_decodeAll h, decodeAll_again h,
    fun hroom => ?_⟩
  have hsettled := (h ▸ unfolds_decodeAll hroom).settled
  exact ⟨hsettled, decodeAll_again h hsettled⟩

/-! ## Lists in lists -/

/-- A value in some lists, each of them in the next. -/
def nest : Nat → Value → Value
  | 0, v => v
  | n + 1, v => .list [nest n v]

/-- The text of an empty list in some lists, each of them in the next: its brackets. -/
def brackets (n : Nat) : Text := List.replicate n (.scalar '[') ++ List.replicate n (.scalar ']')

omit [Runtime] in
theorem strings_nest (v : Value) : ∀ n : Nat, (nest n v).strings = v.strings
  | 0 => rfl
  | n + 1 => by rw [nest, Value.strings, Value.itemStrings, strings_nest v n, Value.itemStrings,
      List.append_nil]

theorem mapStrings_nest {f : Nat → Text → Except Fault Value} {frames : Nat} (hframes : 0 < frames)
    (hv : v.mapStrings f frames = .ok r) : ∀ n : Nat,
    (nest n v).mapStrings f (frames + n * Runtime.levelFrames) = .ok (nest n r)
  | 0 => by
    rw [Nat.zero_mul, Nat.add_zero]
    exact hv
  | n + 1 => by
    obtain ⟨k, hk⟩ : ∃ k, frames + (n + 1) * Runtime.levelFrames = k + 1 :=
      ⟨frames + (n + 1) * Runtime.levelFrames - 1, by omega⟩
    have hinside : k + 1 - Runtime.levelFrames = frames + n * Runtime.levelFrames := by
      rw [← hk, Nat.succ_mul]
      omega
    rw [hk, nest, Value.mapStrings, Value.mapStringsItems, hinside, mapStrings_nest hframes hv n]
    rfl

end

attribute [local instance] Runtime.standard

/-- **A string that is kept for want of room.** Where three hundred lists have been entered, the text of three
hundred lists in one another is left as it is, and with the whole stack it decodes. -/
theorem decodeAll_keeps_brackets :
    decodeAll [.json] (nest 300 (.string (brackets 300))) = .ok (nest 300 (.string (brackets 300))) ∧
    brackets 300 ∈ (nest 300 (.string (brackets 300))).strings ∧
    ∃ v, decodeString [.json] Runtime.frames (brackets 300) = .ok (some v) := by
  have hfew : jsonTarget? [.json] 380 (brackets 300) = none := by
    rw [← Option.isNone_iff_eq_none]
    decide +kernel
  have hmany : (jsonTarget? [.json] Runtime.frames (brackets 300)).isSome = true := by decide +kernel
  obtain ⟨v, hv⟩ := Option.isSome_iff_exists.mp hmany
  have hkept : (Value.string (brackets 300)).mapStrings (decodeText (decodeString [.json])) 380
      = .ok (.string (brackets 300)) :=
    decodeText_of_none (by decide) (decodeString_of_noJson hfew)
  refine ⟨mapStrings_nest (by decide) hkept 300, ?_, v, decodeString_of_json hv⟩
  rw [strings_nest]
  exact List.mem_cons_self

/-- A list with another list in a string of it. -/
def folded : Value := .list [.string "[1]", .string "x"]

/-- The same list with nothing folded any more. -/
def unfolded : Value := .list [.list [.integer 1], .string "x"]

theorem decodeString_folded : decodeString [.json] Runtime.frames "[\"[1]\",\"x\"]" = .ok (some folded) := by
  have hplain : folded.IsPlain 487 := by
    refine .list (List.forall_mem_cons.mpr ⟨.string rfl, List.forall_mem_singleton.mpr (.string rfl)⟩)
  have hwrite : Json.write .compact folded = "[\"[1]\",\"x\"]" := by decide +kernel
  rw [← hwrite]
  exact decodeString_write List.mem_cons_self hplain rfl

theorem unfolds_folded : Unfolds [.json] (.string "[\"[1]\",\"x\"]") (.ok unfolded) := by
  have hlist : Unfolds [.json] (.list [.integer 1]) (.ok (.list [.integer 1])) :=
    .list (.cons (.scalar (s := .integer 1) nofun) .nil)
  exact .decoded decodeString_folded
    (.list (.cons (.decoded (v := .list [.integer 1]) rfl hlist) (.cons (.kept rfl) .nil)))

theorem hasRoom_folded : HasRoom [.json] Runtime.frames (.string "[\"[1]\",\"x\"]") := by
  refine .string (by decide) rfl fun v hv => ?_
  cases decodeString_folded.symm.trans hv
  refine .list (by decide) (List.forall_mem_cons.mpr ⟨?_, List.forall_mem_singleton.mpr ?_⟩)
  · refine .string (by decide) rfl fun v hv => ?_
    cases hv
    exact .list (by decide) (List.forall_mem_singleton.mpr (.scalar (s := .integer 1) (by decide) nofun))
  · refine .string (by decide) rfl fun v hv => ?_
    cases hv

/-- A list in a string of a list in a string is decoded in one go, and once. -/
theorem decodeAll_fixed_folded : decodeAll [.json] (.string "[\"[1]\",\"x\"]") = .ok unfolded ∧
    HasRoom [.json] Runtime.frames (.string "[\"[1]\",\"x\"]") ∧
    decodeAll [.json] unfolded = .ok unfolded := by
  have h := decodeAll_of_unfolds hasRoom_folded unfolds_folded
  obtain ⟨-, -, -, -, hfixed⟩ := decodeAll_fixed h
  exact ⟨h, hasRoom_folded, (hfixed hasRoom_folded).2⟩

end LogQuery
