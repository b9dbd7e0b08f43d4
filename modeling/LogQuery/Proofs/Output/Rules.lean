import LogQuery.Proofs.Output.Nested
/-!
# The rules of decoding

The rules alone, without a stack that runs out, are `Unfolds`: a string becomes what its document becomes,
and lists and maps are decoded part by part. They lead to one outcome at most (`Unfolds.unique`), and a walk
with enough frames finds it (`exists_frames_of_unfolds`).

With the stack there is, a value is decoded by these rules if it has room (`HasRoom`): nowhere in it, and
nowhere in the documents inside its strings, are there too few frames for what is done with the whole stack
(`unfolds_decodeAll`).
-/
namespace LogQuery

variable [Runtime] {targets : List Target} {v : Value}

/-! ## The rules -/

mutual

/-- What becomes of a value by the rules of decoding: a string that decodes becomes what its document
becomes, the parts of lists and maps are decoded one by one up to the first that fails, and everything else
stays. -/
inductive Unfolds (targets : List Target) : Value → Except Fault Value → Prop
  | failed {t : Text} {f : Fault} (h : decodeString targets Runtime.frames t = .error f) :
    Unfolds targets (.string t) (.error f)
  | kept {t : Text} (h : decodeString targets Runtime.frames t = .ok none) :
    Unfolds targets (.string t) (.ok (.string t))
  | decoded {t : Text} {v : Value} {x : Except Fault Value}
    (h : decodeString targets Runtime.frames t = .ok (some v)) (hv : Unfolds targets v x) :
    Unfolds targets (.string t) x
  | list {items : List Value} {x : Except Fault (List Value)} (h : ItemsUnfold targets items x) :
    Unfolds targets (.list items) (x.map .list)
  | map {entries : List (Scalar × Value)} {x : Except Fault (List (Scalar × Value))}
    (h : EntriesUnfold targets entries x) : Unfolds targets (.map entries) (x.map .map)
  | scalar {s : Scalar} (h : ∀ t, s ≠ .string t) : Unfolds targets (.scalar s) (.ok (.scalar s))
  | tuple (items : List Value) : Unfolds targets (.tuple items) (.ok (.tuple items))
  | set (items : List Scalar) : Unfolds targets (.set items) (.ok (.set items))

/-- What becomes of some values, one by one. -/
inductive ItemsUnfold (targets : List Target) : List Value → Except Fault (List Value) → Prop
  | nil : ItemsUnfold targets [] (.ok [])
  | failed {v : Value} {items : List Value} {f : Fault} (h : Unfolds targets v (.error f)) :
    ItemsUnfold targets (v :: items) (.error f)
  | cons {v r : Value} {items : List Value} {x : Except Fault (List Value)}
    (h : Unfolds targets v (.ok r)) (hrest : ItemsUnfold targets items x) :
    ItemsUnfold targets (v :: items) (x.map (r :: ·))

/-- What becomes of the values of some entries, one by one, with the same keys. -/
inductive EntriesUnfold (targets : List Target) :
    List (Scalar × Value) → Except Fault (List (Scalar × Value)) → Prop
  | nil : EntriesUnfold targets [] (.ok [])
  | failed {key : Scalar} {v : Value} {entries : List (Scalar × Value)} {f : Fault}
    (h : Unfolds targets v (.error f)) : EntriesUnfold targets ((key, v) :: entries) (.error f)
  | cons {key : Scalar} {v r : Value} {entries : List (Scalar × Value)}
    {x : Except Fault (List (Scalar × Value))} (h : Unfolds targets v (.ok r))
    (hrest : EntriesUnfold targets entries x) :
    EntriesUnfold targets ((key, v) :: entries) (x.map ((key, r) :: ·))

end

theorem itemsUnfold_mapM {f : Value → Except Fault Value} : ∀ {items : List Value},
    (∀ v ∈ items, Unfolds targets v (f v)) → ItemsUnfold targets items (items.mapM f)
  | [], _ => .nil
  | v :: items, h => by
    obtain ⟨hv, hrest⟩ := List.forall_mem_cons.mp h
    have hrow := itemsUnfold_mapM hrest
    rw [List.mapM_cons]
    cases hf : f v with
    | error e => exact .failed (hf ▸ hv)
    | ok r =>
      have hcons := ItemsUnfold.cons (hf ▸ hv) hrow
      cases hx : items.mapM f <;> rw [hx] at hcons <;> exact hcons

theorem entriesUnfold_mapM {f : Value → Except Fault Value} : ∀ {entries : List (Scalar × Value)},
    (∀ e ∈ entries, Unfolds targets e.2 (f e.2)) →
    EntriesUnfold targets entries (entries.mapM fun e => (f e.2).map (Prod.mk e.1))
  | [], _ => .nil
  | (key, v) :: entries, h => by
    obtain ⟨hv, hrest⟩ := List.forall_mem_cons.mp h
    have hrow := entriesUnfold_mapM hrest
    rw [List.mapM_cons]
    cases hf : f v with
    | error e => exact .failed (hf ▸ hv)
    | ok r =>
      have hcons : EntriesUnfold targets ((key, v) :: entries) _ := .cons (hf ▸ hv) hrow
      cases hx : entries.mapM fun e => (f e.2).map (Prod.mk e.1) <;> rw [hx] at hcons <;> exact hcons

/-! ## Enough frames for the rules -/

/-- What a value becomes with some frames for going on, if every string is looked at with the whole
stack. -/
def walk (targets : List Target) (frames : Nat) (v : Value) : Except Fault Value :=
  v.mapStrings (decodeText fun _ => decodeString targets Runtime.frames) frames

mutual

/-- **With enough frames** a walk ends as the rules say. -/
theorem exists_frames_of_unfolds : ∀ {v : Value} {x : Except Fault Value}, Unfolds targets v x →
    ∃ least, ∀ n, least ≤ n → walk targets n v = x
  | _, _, .failed h => ⟨Runtime.callFrames + 1, fun
    | 0, hn => absurd hn (Nat.not_succ_le_zero _)
    | _ + 1, hn => decodeText_of_error hn h⟩
  | _, _, .kept h => ⟨Runtime.callFrames + 1, fun
    | 0, hn => absurd hn (Nat.not_succ_le_zero _)
    | _ + 1, hn => decodeText_of_none hn h⟩
  | _, _, .decoded (t := t) (v := v) h hv => by
    obtain ⟨least, hleast⟩ := exists_frames_of_unfolds hv
    refine ⟨max (least + 1) (Runtime.callFrames + 1), fun
      | 0, hn => by omega
      | n + 1, hn => ?_⟩
    -- One frame goes to the string, and the others are for its document.
    have hstring : walk targets (n + 1) (.string t) = walk targets n v :=
      decodeText_of_some (by omega) h
    exact hstring.trans (hleast n (by omega))
  | _, _, .list h => by
    obtain ⟨least, hleast⟩ := exists_frames_of_itemsUnfold h
    refine ⟨least + Runtime.levelFrames + 1, fun
      | 0, hn => by omega
      | n + 1, hn => ?_⟩
    rw [← hleast (n + 1 - Runtime.levelFrames) (by omega)]
    rfl
  | _, _, .map h => by
    obtain ⟨least, hleast⟩ := exists_frames_of_entriesUnfold h
    refine ⟨least + Runtime.levelFrames + 1, fun
      | 0, hn => by omega
      | n + 1, hn => ?_⟩
    rw [← hleast (n + 1 - Runtime.levelFrames) (by omega)]
    rfl
  | .scalar s, _, .scalar h => ⟨1, fun
    | 0, hn => absurd hn (Nat.not_succ_le_zero _)
    | _ + 1, _ => by
      cases s with
      | string t => exact absurd rfl (h t)
      | _ => rfl⟩
  | _, _, .tuple _ | _, _, .set _ => ⟨1, fun
    | 0, hn => absurd hn (Nat.not_succ_le_zero _)
    | _ + 1, _ => rfl⟩

theorem exists_frames_of_itemsUnfold : ∀ {items : List Value} {x : Except Fault (List Value)},
    ItemsUnfold targets items x → ∃ least, ∀ n, least ≤ n →
      Value.mapStringsItems (decodeText fun _ => decodeString targets Runtime.frames) n items = x
  | _, _, .nil => ⟨0, fun _ _ => rfl⟩
  | _, _, .failed h => by
    obtain ⟨least, hleast⟩ := exists_frames_of_unfolds h
    refine ⟨least, fun n hn => ?_⟩
    have hv := hleast n hn
    rw [walk] at hv
    rw [Value.mapStringsItems, hv]
    rfl
  | _, _, .cons h hrest => by
    obtain ⟨least, hleast⟩ := exists_frames_of_unfolds h
    obtain ⟨leastRest, hleastRest⟩ := exists_frames_of_itemsUnfold hrest
    refine ⟨max least leastRest, fun n hn => ?_⟩
    have hv := hleast n (by omega)
    rw [walk] at hv
    rw [Value.mapStringsItems, hv, hleastRest n (by omega)]
    cases ‹Except Fault (List Value)› <;> rfl

theorem exists_frames_of_entriesUnfold : ∀ {entries : List (Scalar × Value)}
    {x : Except Fault (List (Scalar × Value))}, EntriesUnfold targets entries x → ∃ least, ∀ n, least ≤ n →
      Value.mapStringsEntries (decodeText fun _ => decodeString targets Runtime.frames) n entries = x
  | _, _, .nil => ⟨0, fun _ _ => rfl⟩
  | _, _, .failed h => by
    obtain ⟨least, hleast⟩ := exists_frames_of_unfolds h
    refine ⟨least, fun n hn => ?_⟩
    have hv := hleast n hn
    rw [walk] at hv
    rw [Value.mapStringsEntries, hv]
    rfl
  | _, _, .cons h hrest => by
    obtain ⟨least, hleast⟩ := exists_frames_of_unfolds h
    obtain ⟨leastRest, hleastRest⟩ := exists_frames_of_entriesUnfold hrest
    refine ⟨max least leastRest, fun n hn => ?_⟩
    have hv := hleast n (by omega)
    rw [walk] at hv
    rw [Value.mapStringsEntries, hv, hleastRest n (by omega)]
    cases ‹Except Fault (List (Scalar × Value))› <;> rfl

end

/-- **The rules lead to one outcome** at most. -/
theorem Unfolds.unique {x y : Except Fault Value} (hx : Unfolds targets v x) (hy : Unfolds targets v y) :
    x = y := by
  obtain ⟨m, hm⟩ := exists_frames_of_unfolds hx
  obtain ⟨n, hn⟩ := exists_frames_of_unfolds hy
  rw [← hm (max m n) (Nat.le_max_left m n), hn (max m n) (Nat.le_max_right m n)]

theorem Unfolds.settled {r : Value} (h : Unfolds targets v (.ok r)) :
    ∀ s ∈ r.strings, decodeString targets Runtime.frames s = .ok none := by
  obtain ⟨n, hn⟩ := exists_frames_of_unfolds h
  intro s hs
  obtain ⟨t, -, m, -, u, hu, hsu⟩ := Value.mem_strings_of_mapStrings (hn n (Nat.le_refl n)) hs
  obtain ⟨_, -, hnone⟩ := kept_of_decodeText hu s hsu
  exact hnone

/-! ## Room -/

/-- Whether there is room for decoding a value with some frames: every list and map can be entered, and
every string, here and in the documents that strings decode to, is decoded as with the whole stack. -/
inductive HasRoom (targets : List Target) : (frames : Nat) → Value → Prop
  | string {frames : Nat} {t : Text} (hroom : Runtime.callFrames < frames)
    (hsame : decodeString targets frames t = decodeString targets Runtime.frames t)
    (h : ∀ v, decodeString targets frames t = .ok (some v) → HasRoom targets (frames - 1) v) :
    HasRoom targets frames (.string t)
  | list {frames : Nat} {items : List Value} (hroom : 0 < frames)
    (h : ∀ v ∈ items, HasRoom targets (frames - Runtime.levelFrames) v) :
    HasRoom targets frames (.list items)
  | map {frames : Nat} {entries : List (Scalar × Value)} (hroom : 0 < frames)
    (h : ∀ e ∈ entries, HasRoom targets (frames - Runtime.levelFrames) e.2) :
    HasRoom targets frames (.map entries)
  | scalar {frames : Nat} {s : Scalar} (hroom : 0 < frames) (h : ∀ t, s ≠ .string t) :
    HasRoom targets frames (.scalar s)
  | tuple {frames : Nat} {items : List Value} (hroom : 0 < frames) : HasRoom targets frames (.tuple items)
  | set {frames : Nat} {items : List Scalar} (hroom : 0 < frames) : HasRoom targets frames (.set items)

variable {m n : Nat}

theorem HasRoom.of_le (h : HasRoom targets m v) (hle : m ≤ n) (hn : n ≤ Runtime.frames) :
    HasRoom targets n v := by
  induction h generalizing n with
  | string hroom hsame _ ih =>
    have hbetween := decodeString_between hle hn hsame
    refine .string (by omega) hbetween fun v hv => ih v ?_ (by omega) (by omega)
    rw [hsame, ← hbetween, hv]
  | list hroom _ ih => exact .list (by omega) fun v hv => ih v hv (by omega) (by omega)
  | map hroom _ ih => exact .map (by omega) fun e he => ih e he (by omega) (by omega)
  | scalar hroom hs => exact .scalar (by omega) hs
  | tuple hroom => exact .tuple (by omega)
  | set hroom => exact .set (by omega)

theorem unfolds_of_hasRoom (h : HasRoom targets n v) :
    Unfolds targets v (v.mapStrings (decodeText (decodeString targets)) n) := by
  -- On how there is room, which says it of the documents that strings decode to as well.
  induction h with
  | @string n t hroom hsame _ ih =>
    obtain ⟨n, rfl⟩ := Nat.exists_eq_add_one.mpr (show 0 < n by omega)
    show Unfolds targets (.string t) (decodeText (decodeString targets) (n + 1) t)
    cases hdecode : decodeString targets (n + 1) t with
    | error f =>
      rw [decodeText_of_error hroom hdecode]
      exact .failed (hsame.symm.trans hdecode)
    | ok document =>
      cases document with
      | none =>
        rw [decodeText_of_none hroom hdecode]
        exact .kept (hsame.symm.trans hdecode)
      | some v =>
        rw [decodeText_of_some hroom hdecode]
        exact .decoded (hsame.symm.trans hdecode) (ih v hdecode)
  | @list n items hroom _ ih =>
    obtain ⟨n, rfl⟩ := Nat.exists_eq_add_one.mpr (show 0 < n by omega)
    rw [Value.mapStrings, Value.mapStringsItems_eq_mapM]
    exact .list (itemsUnfold_mapM ih)
  | @map n entries hroom _ ih =>
    obtain ⟨n, rfl⟩ := Nat.exists_eq_add_one.mpr (show 0 < n by omega)
    rw [Value.mapStrings, Value.mapStringsEntries_eq_mapM]
    exact .map (entriesUnfold_mapM ih)
  | @scalar n s hroom hs =>
    obtain ⟨n, rfl⟩ := Nat.exists_eq_add_one.mpr (show 0 < n by omega)
    cases s with
    | string t => exact absurd rfl (hs t)
    | _ => exact .scalar hs
  | @tuple n items hroom | @set n items hroom =>
    obtain ⟨n, rfl⟩ := Nat.exists_eq_add_one.mpr (show 0 < n by omega)
    first | exact .tuple items | exact .set items

/-- **With room on the stack** a value is decoded by the rules. -/
theorem unfolds_decodeAll (h : HasRoom targets Runtime.frames v) :
    Unfolds targets v (decodeAll targets v) := unfolds_of_hasRoom h

theorem decodeAll_of_unfolds {x : Except Fault Value} (h : HasRoom targets Runtime.frames v)
    (hx : Unfolds targets v x) : decodeAll targets v = x := (unfolds_decodeAll h).unique hx

end LogQuery
