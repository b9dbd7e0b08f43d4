import LogQuery.Proofs.Output.Descent
import LogQuery.Proofs.Value.Keys
/-!
# Profiles are projections

A profile selects fields by their keys and decodes their values. Decoding leaves the keys alone and null as
it is, so it does not matter which of the two is done first (`select_of_decodes`), and since nothing in a
decoded value decodes any more, showing a shown record again changes nothing. Decoding can only break down
over YAML or for want of room, so without that target every record with room for its fields is shown.

* `keys_pick`, `keys_leave`: the fields that are selected.
* `select_idem`: selecting again selects the same.
* `apply_projects`: what a profile shows of a record.
-/
namespace LogQuery

section

variable [Runtime] {targets : List Target} {record record' shown : Record} {key : Scalar} {v w : Value}

/-! ## Decoding every field -/

/-- The value of a field, decoded if there is anything to decode. -/
def decodeField (targets : List Target) (v : Value) : Except Fault Value :=
  if targets = [] then .ok v else decodeAll targets v

def decodeFields (targets : List Target) (record : Record) : Except Fault Record :=
  record.mapM fun e => (decodeField targets e.2).map (Prod.mk e.1)

/-- Whether there is room on the stack for the fields of a record, if anything is decoded. -/
def HasRoomForFields (targets : List Target) (record : Record) : Prop :=
  targets ≠ [] → 0 < Runtime.frames ∧ ∀ e ∈ record, HasRoom targets Runtime.frames e.2

/-- A field with its value decoded, to one that does not change any more. -/
structure FieldDecodes (targets : List Target) (e e' : Scalar × Value) : Prop where
  key : e'.1 = e.1
  value : decodeField targets e.2 = .ok e'.2
  again : decodeField targets e'.2 = .ok e'.2

/-- A record with its values decoded, one by one. -/
def Decodes (targets : List Target) : Record → Record → Prop := List.Forall₂ (FieldDecodes targets)

theorem Decodes.decodeFields (h : Decodes targets record record') :
    decodeFields targets record = .ok record' := by
  refine mapM_eq_ok_iff.mpr (h.imp fun e e' hfield => ?_)
  rw [hfield.value, ← hfield.key]
  rfl

theorem decodeField_null (h : targets ≠ [] → 0 < Runtime.frames) : decodeField targets .null = .ok .null := by
  unfold decodeField
  split
  next => rfl
  next hsome =>
    have hnull : ∀ t, Scalar.null ≠ .string t := fun _ h => by cases h
    have hroom : HasRoom targets Runtime.frames .null := .scalar (s := .null) (h hsome) hnull
    exact decodeAll_of_unfolds hroom (.scalar (s := .null) hnull)

/-- A field with room can be decoded without YAML, and then it does not change any more. -/
theorem exists_fieldDecodes (hyaml : .yaml ∉ targets)
    (hroom : targets ≠ [] → HasRoom targets Runtime.frames v) (key : Scalar) :
    ∃ w, FieldDecodes targets (key, v) (key, w) := by
  by_cases hnil : targets = []
  · exact ⟨v, rfl, if_pos hnil, if_pos hnil⟩
  · obtain ⟨w, hw⟩ := exists_unfolds hyaml v
    have hvalue := decodeAll_of_unfolds (hroom hnil) hw
    have hagain := decodeAll_again hvalue hw.settled
    exact ⟨w, rfl, (if_neg hnil).trans hvalue, (if_neg hnil).trans hagain⟩

theorem exists_decodes (hyaml : .yaml ∉ targets) : ∀ {record : Record},
    (targets ≠ [] → ∀ e ∈ record, HasRoom targets Runtime.frames e.2) →
    ∃ record', Decodes targets record record'
  | [], _ => ⟨[], .nil⟩
  | (k, v) :: record, h => by
    obtain ⟨w, hw⟩ := exists_fieldDecodes hyaml (fun hsome => h hsome _ List.mem_cons_self) k
    obtain ⟨record', hrest⟩ := exists_decodes hyaml fun hsome e he => h hsome e (List.mem_cons_of_mem _ he)
    exact ⟨(k, w) :: record', .cons hw hrest⟩

namespace Decodes

theorem keys (h : Decodes targets record record') : record'.map Prod.fst = record.map Prod.fst := by
  induction h with
  | nil => rfl
  | cons hfield _ ih => rw [List.map_cons, List.map_cons, hfield.key, ih]

theorem lookup? (h : Decodes targets record record') (hv : Value.lookup? key record = some v) :
    ∃ w, decodeField targets v = .ok w ∧ Value.lookup? key record' = some w := by
  induction h with
  | nil => cases hv
  | @cons e e' _ _ hfield _ ih =>
    rw [Value.lookup?] at hv
    rw [Value.lookup?, hfield.key]
    split at hv
    next hkey =>
      cases hv
      exact ⟨e'.2, hfield.value, if_pos hkey⟩
    next hkey =>
      rw [if_neg hkey]
      exact ih hv

theorem lookup?_getD (h : Decodes targets record record') (hnull : targets ≠ [] → 0 < Runtime.frames)
    (key : Scalar) : FieldDecodes targets (key, (Value.lookup? key record).getD .null)
      (key, (Value.lookup? key record').getD .null) := by
  induction h with
  | nil => exact ⟨rfl, decodeField_null hnull, decodeField_null hnull⟩
  | @cons e e' _ _ hfield _ ih =>
    rw [Value.lookup?, Value.lookup?, hfield.key]
    split
    · exact ⟨rfl, hfield.value, hfield.again⟩
    · exact ih

theorem filter (h : Decodes targets record record') (p : Scalar → Bool) :
    Decodes targets (record.filter fun e => p e.1) (record'.filter fun e => p e.1) := by
  induction h with
  | nil => exact .nil
  | @cons e e' _ _ hfield _ ih =>
    rw [List.filter_cons, List.filter_cons, hfield.key]
    split
    · exact .cons hfield ih
    · exact ih

theorem insert (h : Decodes targets record record') (hv : FieldDecodes targets (key, v) (key, w)) :
    Decodes targets (Value.insert key v record) (Value.insert key w record') := by
  induction h with
  | nil => exact .cons hv .nil
  | @cons e e' _ _ hfield hrest ih =>
    obtain ⟨k, v⟩ := e
    obtain ⟨k', w⟩ := e'
    obtain ⟨rfl, hw, hagain⟩ := hfield
    rw [Value.insert, Value.insert]
    split
    · exact .cons ⟨rfl, hv.value, hv.again⟩ hrest
    · exact .cons ⟨rfl, hw, hagain⟩ ih

theorem ofPairs (h : Decodes targets record record') :
    Decodes targets (Value.ofPairs record) (Value.ofPairs record') := by
  have hfold : ∀ {entries entries' : Record}, Decodes targets entries entries' →
      Decodes targets (record.foldl (fun entries e => Value.insert e.1 e.2 entries) entries)
        (record'.foldl (fun entries e => Value.insert e.1 e.2 entries) entries') := by
    induction h with
    | nil => exact id
    | @cons e e' _ _ hfield _ ih =>
      obtain ⟨k, v⟩ := e
      obtain ⟨k', w⟩ := e'
      obtain ⟨rfl, hw, hagain⟩ := hfield
      exact fun hentries => ih (hentries.insert ⟨rfl, hw, hagain⟩)
  exact hfold .nil

theorem unique {other : Record} (h : Decodes targets record record')
    (hother : Decodes targets record other) : record' = other :=
  Except.ok.inj (h.decodeFields.symm.trans hother.decodeFields)

theorem self (h : Decodes targets record record') : Decodes targets record' record' := by
  induction h with
  | nil => exact .nil
  | cons hfield _ ih => exact .cons ⟨rfl, hfield.again, hfield.again⟩ ih

end Decodes

/-! ## Selecting fields -/

namespace Profile

variable {p : Profile} {keys : List Scalar}

omit [Runtime] in
theorem mapM_fieldKey (keys : List Scalar) : (keys.map Value.scalar).mapM fieldKey = .ok keys := by
  rw [mapM_eq_ok_iff, List.forall₂_map_left_iff]
  exact List.forall₂_same.mpr fun _ _ => rfl

/-- The keys that a profile names fields by: the fields shown if these are given, and otherwise the
fields left out. -/
def NamesFields (p : Profile) : Prop :=
  ∀ fields, p.only.or p.exclude = some fields → ∃ keys : List Scalar, fields = keys.map Value.scalar

/-- The fields of some keys, each in the spelling of its first place. -/
def pick (keys : List Scalar) (record : Record) : Record :=
  Value.ofPairs (keys.map fun k => (k, (Value.lookup? k record).getD .null))

/-- The fields of all but some keys. -/
def leave (keys : List Scalar) (record : Record) : Record :=
  record.filter fun e => !keys.any e.1.sameKey

omit [Runtime] in
theorem select_only (honly : p.only = some (keys.map .scalar)) (record : Record) :
    p.select record = .ok (pick keys record) := by
  rw [select, honly]
  show ((keys.map Value.scalar).mapM fieldKey >>= _) = _
  rw [mapM_fieldKey]
  rfl

omit [Runtime] in
theorem select_other (honly : p.only = none) (hexclude : p.exclude = some (keys.map .scalar))
    (record : Record) : p.select record = .ok (leave keys record) := by
  rw [select, honly, hexclude]
  show ((keys.map Value.scalar).mapM fieldKey >>= _) = _
  rw [mapM_fieldKey]
  rfl

omit [Runtime] in
theorem select_all (honly : p.only = none) (hexclude : p.exclude = none) (record : Record) :
    p.select record = .ok record := by
  rw [select, honly, hexclude]

omit [Runtime] in
theorem select_cases (hp : p.NamesFields) :
    (∃ keys, ∀ record, p.select record = .ok (pick keys record)) ∨
      (∃ keys, ∀ record, p.select record = .ok (leave keys record)) ∨
      ∀ record, p.select record = .ok record := by
  cases honly : p.only with
  | some fields =>
    obtain ⟨keys, rfl⟩ := hp fields (by rw [honly]; rfl)
    exact Or.inl ⟨keys, select_only honly⟩
  | none =>
    cases hexclude : p.exclude with
    | some fields =>
      obtain ⟨keys, rfl⟩ := hp fields (by rw [honly, hexclude]; rfl)
      exact Or.inr (Or.inl ⟨keys, select_other honly hexclude⟩)
    | none => exact Or.inr (Or.inr (select_all honly hexclude))

omit [Runtime] in
theorem keys_pick (keys : List Scalar) (record : Record) :
    (pick keys record).map Prod.fst = keys.eraseDupsBy Scalar.sameKey := by
  rw [pick, Value.keys_ofPairs, List.map_map]
  exact congrArg _ (List.map_id keys)

omit [Runtime] in
theorem keys_leave (keys : List Scalar) (record : Record) :
    (leave keys record).map Prod.fst = (record.map Prod.fst).filter fun k => !keys.any k.sameKey := by
  rw [leave, List.filter_map]
  rfl

omit [Runtime] in
theorem lookup?_pick {keys : List Scalar} (h : key ∈ keys) (record : Record) :
    Value.lookup? key (pick keys record) = some ((Value.lookup? key record).getD .null) := by
  have hspelling : ∀ a b : Scalar, a.sameKey b = true →
      (Value.lookup? a record).getD .null = (Value.lookup? b record).getD .null := fun a b hab => by
    rw [Value.lookup?_congr hab]
  rw [pick, Value.lookup?_ofPairs, ← List.map_reverse]
  exact Value.lookup?_map_of_mem hspelling (List.mem_reverse.mpr h)

omit [Runtime] in
theorem pick_pick (keys : List Scalar) (record : Record) :
    pick keys (pick keys record) = pick keys record := by
  refine congrArg Value.ofPairs (List.map_congr_left fun k hk => ?_)
  rw [lookup?_pick hk, Option.getD_some]

omit [Runtime] in
theorem leave_leave (keys : List Scalar) (record : Record) :
    leave keys (leave keys record) = leave keys record := by
  rw [leave, leave, List.filter_filter]
  simp only [Bool.and_self]

omit [Runtime] in
/-- **Selecting again** selects the same. -/
theorem select_idem (hp : p.NamesFields) (h : p.select record = .ok shown) :
    p.select shown = .ok shown := by
  rcases select_cases hp with ⟨keys, hselect⟩ | ⟨keys, hselect⟩ | hselect
  · rw [hselect] at h ⊢
    rw [← Except.ok.inj h, pick_pick]
  · rw [hselect] at h ⊢
    rw [← Except.ok.inj h, leave_leave]
  · exact hselect shown

theorem decodes_pick (h : Decodes targets record record') (hnull : targets ≠ [] → 0 < Runtime.frames)
    (keys : List Scalar) : Decodes targets (pick keys record) (pick keys record') := by
  refine Decodes.ofPairs ?_
  rw [Decodes, List.forall₂_map_left_iff, List.forall₂_map_right_iff]
  exact List.forall₂_same.mpr fun k _ => h.lookup?_getD hnull k

/-- **What is selected of a decoded record** is what was selected, decoded. -/
theorem select_of_decodes (hp : p.NamesFields) (hnull : targets ≠ [] → 0 < Runtime.frames)
    (h : Decodes targets record record') (hselect : p.select record = .ok shown) :
    ∃ shown', p.select record' = .ok shown' ∧ Decodes targets shown shown' := by
  rcases select_cases hp with ⟨keys, hall⟩ | ⟨keys, hall⟩ | hall
  all_goals
    rw [hall] at hselect
    obtain rfl := Except.ok.inj hselect
  · exact ⟨_, hall record', decodes_pick h hnull keys⟩
  · exact ⟨_, hall record', h.filter fun k => !keys.any k.sameKey⟩
  · exact ⟨_, hall record', h⟩

/-! ## Profiles -/

theorem apply_eq (p : Profile) (record : Record) :
    p.apply record = p.select record >>= decodeFields p.decode := by
  cases hselect : p.select record with
  | error f => rw [apply, hselect]; rfl
  | ok shown =>
    rw [apply, hselect]
    show (if p.decode = [] then Except.ok shown
      else Value.mapStringsEntries (decodeText (decodeString p.decode)) Runtime.frames shown)
        = decodeFields p.decode shown
    unfold decodeFields decodeField
    by_cases hnil : p.decode = []
    · simp only [if_pos hnil]
      exact (mapM_eq_ok_iff.mpr (List.forall₂_same.mpr fun _ _ => rfl)).symm
    · simp only [if_neg hnil]
      exact Value.mapStringsEntries_eq_mapM _ shown

/-- What a record with room is shown as: what is selected of it, decoded. -/
structure Shows (p : Profile) (record selected shown : Record) : Prop where
  selects : p.select record = .ok selected
  decodes : Decodes p.decode selected shown

theorem Shows.apply {selected : Record} (h : p.Shows record selected shown) :
    p.apply record = .ok shown := by
  rw [apply_eq, h.selects]
  exact h.decodes.decodeFields

theorem exists_shows (hp : p.NamesFields) (hyaml : .yaml ∉ p.decode)
    (hroom : HasRoomForFields p.decode record) : ∃ selected shown, p.Shows record selected shown ∧
      (decodeFields p.decode record >>= p.select) = .ok shown := by
  obtain ⟨selected, hselect⟩ : ∃ selected, p.select record = .ok selected := by
    rcases select_cases hp with ⟨_, h⟩ | ⟨_, h⟩ | h <;> exact ⟨_, h record⟩
  obtain ⟨decoded, hdecoded⟩ := exists_decodes hyaml fun hsome => (hroom hsome).2
  obtain ⟨shown, hshown, hdecodes⟩ :=
    select_of_decodes hp (fun hsome => (hroom hsome).1) hdecoded hselect
  refine ⟨selected, shown, ⟨hselect, hdecodes⟩, ?_⟩
  rw [hdecoded.decodeFields]
  exact hshown

theorem Shows.again {selected : Record} (hp : p.NamesFields) (hnull : p.decode ≠ [] → 0 < Runtime.frames)
    (h : p.Shows record selected shown) : p.Shows shown shown shown := by
  obtain ⟨again, hagain, hshown⟩ := select_of_decodes hp hnull h.decodes (select_idem hp h.selects)
  obtain rfl : again = shown := hshown.unique h.decodes
  exact ⟨hagain, h.decodes.self⟩

theorem Shows.only {selected : Record} (honly : p.only = some (keys.map .scalar))
    (hnull : p.decode ≠ [] → 0 < Runtime.frames) (h : p.Shows record selected shown) :
    shown.map Prod.fst = keys.eraseDupsBy Scalar.sameKey ∧
      ∀ k ∈ keys, Value.lookup? k record = none → Value.lookup? k shown = some .null := by
  have hselects := h.selects
  rw [select_only honly] at hselects
  obtain rfl := Except.ok.inj hselects
  refine ⟨by rw [h.decodes.keys, keys_pick], fun k hk hnone => ?_⟩
  have hselected : Value.lookup? k (pick keys record) = some .null := by rw [lookup?_pick hk, hnone]; rfl
  obtain ⟨w, hw, hshown⟩ := h.decodes.lookup? hselected
  rw [hshown, ← Except.ok.inj ((decodeField_null hnull).symm.trans hw)]

theorem apply_exclude {fields : List Value} (honly : p.only = some fields) (exclude : Option (List Value))
    (record : Record) : { p with exclude }.apply record = p.apply record := by
  simp only [apply, select, honly]

/-- **Profiles are projections.** A profile that names fields by scalars and does not decode YAML shows
every record with room for its fields. Showing what is shown changes nothing, and decoding every field first
and selecting then shows the same. The fields shown are those that are wanted, each in its first place and
null if the record lacks it, whatever is to be left out; else they are the fields of the record in their
order without those that are left out. -/
theorem apply_projects (p : Profile) (record : Record) (hp : p.NamesFields) (hyaml : .yaml ∉ p.decode)
    (hroom : HasRoomForFields p.decode record) :
    ∃ shown, p.apply record = .ok shown ∧ p.apply shown = .ok shown ∧
      (p.select record >>= decodeFields p.decode) = .ok shown ∧
      (decodeFields p.decode record >>= p.select) = .ok shown ∧
      (∀ keys : List Scalar, p.only = some (keys.map .scalar) →
        shown.map Prod.fst = keys.eraseDupsBy Scalar.sameKey ∧
        (∀ k ∈ keys, Value.lookup? k record = none → Value.lookup? k shown = some .null) ∧
        ∀ exclude, { p with exclude }.apply record = .ok shown) ∧
      (∀ keys : List Scalar, p.only = none → p.exclude = some (keys.map .scalar) →
        shown.map Prod.fst = (record.map Prod.fst).filter fun k => !keys.any k.sameKey) ∧
      (p.only = none → p.exclude = none → shown.map Prod.fst = record.map Prod.fst) := by
  have hnull : p.decode ≠ [] → 0 < Runtime.frames := fun hsome => (hroom hsome).1
  obtain ⟨selected, shown, hshows, hafter⟩ := exists_shows hp hyaml hroom
  have hselect := hshows.selects
  refine ⟨shown, hshows.apply, (hshows.again hp hnull).apply, ?_, hafter, ?_, ?_, ?_⟩
  · rw [← apply_eq]
    exact hshows.apply
  · intro keys honly
    obtain ⟨hkeys, hnone⟩ := hshows.only honly hnull
    exact ⟨hkeys, hnone, fun exclude => (apply_exclude honly exclude record).trans hshows.apply⟩
  · intro keys honly hexclude
    rw [select_other honly hexclude] at hselect
    rw [hshows.decodes.keys, ← Except.ok.inj hselect, keys_leave]
  · intro honly hexclude
    rw [select_all honly hexclude] at hselect
    rw [hshows.decodes.keys, ← Except.ok.inj hselect]

end Profile

end

/-! ## A field that is wanted twice -/

attribute [local instance] Runtime.standard

namespace Profile

/-- Two fields are wanted, one of them twice. -/
def wantedTwice : Profile :=
  { only := some [.string "m", .string "x", .string "m"], decode := [.http, .json] }

/-- A record with just one of these fields, which holds a list. -/
def listRecord : Record := [(.string "n", .null), (.string "m", .string "[1]")]

theorem hasRoom_listRecord : HasRoomForFields wantedTwice.decode listRecord := by
  refine fun _ => ⟨by decide, ?_⟩
  rw [listRecord, List.forall_mem_cons, List.forall_mem_singleton]
  refine ⟨.scalar (s := .null) (by decide) (fun _ h => by cases h),
    .string (by decide) rfl fun v hv => ?_⟩
  cases hv
  refine .list (by decide) (List.forall_mem_singleton.mpr ?_)
  exact .scalar (s := .integer 1) (by decide) fun _ h => by cases h

theorem apply_projects_twice : wantedTwice.NamesFields ∧ .yaml ∉ wantedTwice.decode ∧
    HasRoomForFields wantedTwice.decode listRecord ∧
    ∃ shown, wantedTwice.apply listRecord = .ok shown ∧ wantedTwice.apply shown = .ok shown ∧
      shown.map Prod.fst = [.string "m", .string "x"] ∧
      Value.lookup? (.string "x") shown = some .null := by
  have hp : wantedTwice.NamesFields := by
    rintro fields ⟨⟩
    exact ⟨[.string "m", .string "x", .string "m"], rfl⟩
  have hyaml : .yaml ∉ wantedTwice.decode := by decide
  obtain ⟨shown, hshown, hagain, -, -, honly, -, -⟩ :=
    apply_projects wantedTwice listRecord hp hyaml hasRoom_listRecord
  obtain ⟨hkeys, hnull, -⟩ := honly [.string "m", .string "x", .string "m"] rfl
  refine ⟨hp, hyaml, hasRoom_listRecord, shown, hshown, hagain, hkeys.trans (by decide), ?_⟩
  exact hnull (.string "x") (by decide) rfl

end Profile
end LogQuery
