import LogQuery.Proofs.Json.ReadTree
import LogQuery.Proofs.Json.WriteBytes
import LogQuery.Proofs.Json.Written
import Mathlib.Algebra.Group.Int.Defs
/-!
# Tagged documents that come back

A document without floating-point numbers and lone surrogates is lost neither by the tags nor by the
writer.

* `Tagged.Exact`: the documents that come back, with a constructor for each tag but one.
* `exact_of_fits`: what was read is one of them if nothing in it is a floating-point number or a lone
  surrogate.
* `Exact.readBytes`, `Exact.decode_toText`: they come back, because their values are written as documents
  with the same tags (`Exact.retagged`).
-/
namespace LogQuery

open Json (Tree)

namespace Json

theorem Tree.ofEntries_eq_map : ∀ entries : List (Scalar × Value),
    Tree.ofEntries entries = entries.map fun e => (nameOfKey e.1, Tree.ofValue e.2)
  | [] => rfl
  | e :: entries => congrArg ((nameOfKey e.1, Tree.ofValue e.2) :: ·) (Tree.ofEntries_eq_map entries)

theorem writeItems_eq_map (s : Style) (level : Nat) : ∀ items : List Value,
    writeItems s level items = items.map (writeAt s level)
  | [] => rfl
  | v :: items => congrArg (writeAt s level v :: ·) (writeItems_eq_map s level items)

theorem writeEntries_eq_map (s : Style) (level : Nat) : ∀ entries : List (Scalar × Value),
    writeEntries s level entries
      = entries.map fun e => member s (nameOfKey e.1) (writeAt s level e.2)
  | [] => rfl
  | (k, v) :: entries =>
    congrArg (member s (nameOfKey k) (writeAt s level v) :: ·) (writeEntries_eq_map s level entries)

end Json

namespace Value

theorem itemsReadBack_iff {depth : Nat} : ∀ {items : List Value},
    itemsReadBack depth items = true ↔ ∀ v ∈ items, v.readsBack depth = true
  | [] => by simp [itemsReadBack]
  | v :: items => by
    rw [itemsReadBack, Bool.and_eq_true, itemsReadBack_iff, List.forall_mem_cons]

theorem entriesReadBack_iff {depth : Nat} : ∀ {entries : List (Scalar × Value)},
    entriesReadBack depth entries = true ↔ ∀ e ∈ entries, e.2.readsBack depth = true
  | [] => by simp [entriesReadBack]
  | (k, v) :: entries => by
    rw [entriesReadBack, Bool.and_eq_true, entriesReadBack_iff, List.forall_mem_cons]

theorem areUnicode_iff : ∀ {items : List Value},
    areUnicode items = true ↔ ∀ v ∈ items, v.isUnicode = true
  | [] => by simp [areUnicode]
  | v :: items => by
    rw [areUnicode, Bool.and_eq_true, areUnicode_iff, List.forall_mem_cons]

theorem entriesUnicode_iff : ∀ {entries : List (Scalar × Value)},
    entriesUnicode entries = true ↔
      ∀ e ∈ entries, (Json.nameOfKey e.1).all CodePoint.isScalar = true ∧ e.2.isUnicode = true
  | [] => by simp [entriesUnicode]
  | (k, v) :: entries => by
    rw [entriesUnicode, Bool.and_eq_true, Bool.and_eq_true, entriesUnicode_iff, List.forall_mem_cons]

end Value

namespace Tagged

mutual

/-- Whether a document has neither a floating-point number nor a lone surrogate in it. -/
def isLossless : Tagged → Bool
  | null => true
  | bool _ => true
  | integer _ => true
  | bigInteger _ => true
  | float _ => false
  | string t => t.all CodePoint.isScalar
  | list items => areLossless items
  | map members => membersLossless members

/-- Whether this is so of all items of a list. -/
def areLossless : List Tagged → Bool
  | [] => true
  | x :: rest => x.isLossless && areLossless rest

/-- Whether this is so of the names and the values of all members of a map. -/
def membersLossless : List (Text × Tagged) → Bool
  | [] => true
  | (k, x) :: rest => k.all CodePoint.isScalar && x.isLossless && membersLossless rest

end

theorem areLossless_iff : ∀ {items : List Tagged},
    areLossless items = true ↔ ∀ x ∈ items, x.isLossless = true
  | [] => by simp [areLossless]
  | x :: items => by
    rw [areLossless, Bool.and_eq_true, areLossless_iff, List.forall_mem_cons]

theorem membersLossless_iff : ∀ {members : List (Text × Tagged)},
    membersLossless members = true ↔
      ∀ e ∈ members, e.1.all CodePoint.isScalar = true ∧ e.2.isLossless = true
  | [] => by simp [membersLossless]
  | (k, x) :: members => by
    rw [membersLossless, Bool.and_eq_true, Bool.and_eq_true, membersLossless_iff,
      List.forall_mem_cons]

/-! ## Tags of values -/

theorem ofValues_eq_map : ∀ items : List Value, ofValues items = items.map ofValue
  | [] => rfl
  | v :: items => congrArg (ofValue v :: ·) (ofValues_eq_map items)

theorem ofEntries_eq_map : ∀ entries : List (Scalar × Value),
    ofEntries entries = entries.map fun e => (e.1.display, ofValue e.2)
  | [] => rfl
  | (k, v) :: entries => congrArg ((k.display, ofValue v) :: ·) (ofEntries_eq_map entries)

theorem ofValue_members {members : List (Text × Value)} (h : (members.map Prod.fst).Nodup) :
    ofValue (.map (members.map fun e => (.string e.1, e.2)))
      = .map (members.map fun e => (e.1, ofValue e.2)) := by
  have hentries : ofEntries (members.map fun e => (.string e.1, e.2))
      = members.map fun e => (e.1, ofValue e.2) := by
    rw [ofEntries_eq_map, List.map_map]
    rfl
  have hnames : ((members.map fun e => (e.1, ofValue e.2)).map Prod.fst).Nodup := by
    rw [List.map_map]
    exact h
  rw [ofValue, hentries, Text.ofPairs_of_nodup hnames]

/-! ## Integers -/

/-- An integer of 64 bits, with or without a sign. -/
def InRange (n : Int) : Prop := minInteger64 ≤ n ∧ n ≤ maxInteger64

theorem inRange_iff {n : Int} : InRange n ↔ -2 ^ 63 ≤ n ∧ n ≤ 2 ^ 64 - 1 := by
  rw [InRange, show minInteger64 = -2 ^ 63 from rfl, show maxInteger64 = 2 ^ 64 - 1 from rfl]

theorem inRange_of_safe {n : Int} (h : n.natAbs ≤ maxSafeInteger) : InRange n := by
  unfold InRange
  simp only [maxSafeInteger, minInteger64, maxInteger64, Nat.pow_eq] at h ⊢
  omega

theorem ofInteger_eq {n : Int} (h : InRange n) :
    ofInteger n = if n.natAbs ≤ maxSafeInteger then .integer n else .bigInteger (Text.ofInt n) := by
  unfold ofInteger ofDigits
  split
  · rfl
  · exact if_pos h

/-- A numeral has the tag of its integer: the digits that are kept, or rounded, are those of the
integer. -/
theorem ofLiteral_eq {literal : Text} (h : Json.IsNumeral literal) :
    ofLiteral literal = ofInteger (Json.integerOf literal) := by
  unfold ofLiteral ofInteger ofDigits
  split
  · rfl
  next hbig =>
    have hne : Json.integerOf literal ≠ 0 := by
      intro hzero
      rw [hzero] at hbig
      exact hbig (by decide)
    rw [Json.ofInt_integerOf h hne]

theorem plain_ofInteger {n : Int} (h : InRange n) : (ofInteger n).plain = .integer n := by
  rw [ofInteger_eq h]
  split
  · rfl
  · rw [plain, Json.integerOf_ofInt]

theorem ofTree_ofInteger {n : Int} : ofTree (Tree.ofValue (.integer n)) = ofInteger n := by
  rw [Tree.ofValue, Tree.ofScalar, ofTree, ofLiteral, Json.integerOf_ofInt, ofInteger]

/-! ## Documents that come back -/

/-- A document of limited nesting without floating-point numbers and lone surrogates. Every integer has
the tag and the digits that it deserves, and the names of a map are distinct. -/
inductive Exact : (depth : Nat) → Tagged → Prop
  | null {depth : Nat} : Exact depth null
  | bool {depth : Nat} (b : Bool) : Exact depth (bool b)
  | integer {depth : Nat} {n : Int} (h : n.natAbs ≤ maxSafeInteger) : Exact depth (integer n)
  | bigInteger {depth : Nat} {n : Int} (h : ¬ n.natAbs ≤ maxSafeInteger) (hrange : InRange n) :
    Exact depth (bigInteger (Text.ofInt n))
  | string {depth : Nat} {t : Text} (h : t.all CodePoint.isScalar = true) : Exact depth (string t)
  | list {depth : Nat} {items : List Tagged} (h : ∀ x ∈ items, Exact depth x) :
    Exact (depth + 1) (list items)
  | map {depth : Nat} {members : List (Text × Tagged)} (hnames : (members.map Prod.fst).Nodup)
    (hscalar : ∀ e ∈ members, e.1.all CodePoint.isScalar = true)
    (h : ∀ e ∈ members, Exact depth e.2) : Exact (depth + 1) (map members)

theorem exact_ofInteger {n : Int} (h : InRange n) (depth : Nat) : Exact depth (ofInteger n) := by
  rw [ofInteger_eq h]
  split
  next hsafe => exact .integer hsafe
  next hbig => exact .bigInteger hbig h

/-- A number that was read is an integer of 64 bits, unless it is a floating-point number. -/
theorem exact_ofLiteral {literal : Text} (h : Json.IsNumeral literal)
    (hl : (ofLiteral literal).isLossless = true) (depth : Nat) : Exact depth (ofLiteral literal) := by
  have hrange : InRange (Json.integerOf literal) := by
    unfold ofLiteral ofDigits at hl
    split at hl
    next hsafe => exact inRange_of_safe hsafe
    next =>
      split at hl
      next hrange => exact hrange
      next => cases hl
  rw [ofLiteral_eq h]
  exact exact_ofInteger hrange depth

/-- **What was read comes back** if nothing in it is a floating-point number or a lone surrogate. -/
theorem exact_of_fits {depth size : Nat} {tree : Tree} (h : tree.Fits depth size)
    (hl : (ofTree tree).isLossless = true) : Exact depth (ofTree tree) := by
  induction h with
  | null => exact .null
  | bool b => exact .bool b
  | decimal literal => cases hl
  | constant c => cases hl
  | integer h => exact exact_ofLiteral h hl _
  | string h => exact .string hl
  | @list _ _ items _ ih =>
    simp only [ofTree, ofTrees_eq_map] at hl ⊢
    have hitems := areLossless_iff.mp hl
    refine .list fun x hx => ?_
    obtain ⟨y, hy, rfl⟩ := List.mem_map.mp hx
    exact ih y hy (hitems _ hx)
  | @map _ _ members hnames _ ih =>
    simp only [ofTree, ofTreeMembers_eq_map] at hl ⊢
    have hmembers := membersLossless_iff.mp hl
    refine .map ?_ (fun e he => (hmembers e he).1) fun e he => ?_
    · rw [List.map_map]
      exact hnames
    · obtain ⟨y, hy, rfl⟩ := List.mem_map.mp he
      exact ih y hy (hmembers _ he).2

namespace Exact

theorem readsBack {depth : Nat} {x : Tagged} (h : Exact depth x) :
    x.plain.readsBack depth = true := by
  induction h with
  | null | bool | integer | bigInteger | string => simp only [plain, Value.readsBack]
  | list _ ih =>
    rw [plain, plainItems_eq_map, Value.readsBack, Value.itemsReadBack_iff, List.forall_mem_map]
    exact ih
  | map _ _ _ ih =>
    rw [plain, plainMembers_eq_map, Value.readsBack, Value.entriesReadBack_iff, List.forall_mem_map]
    exact ih

theorem all_isScalar_ofInt (n : Int) : (Text.ofInt n).all CodePoint.isScalar = true :=
  Text.all_isScalar_of_isLegible (Json.all_isLegible_ofInt n)

theorem isUnicode {depth : Nat} {x : Tagged} (h : Exact depth x) : x.plain.isUnicode = true := by
  induction h with
  | null => rfl
  | bool b => cases b <;> rfl
  | integer => exact all_isScalar_ofInt _
  | bigInteger => exact all_isScalar_ofInt _
  | string h => exact h
  | list _ ih =>
    rw [plain, plainItems_eq_map, Value.isUnicode, Value.areUnicode_iff, List.forall_mem_map]
    exact ih
  | map _ hscalar _ ih =>
    rw [plain, plainMembers_eq_map, Value.isUnicode, Value.entriesUnicode_iff, List.forall_mem_map]
    exact fun e he => ⟨hscalar e he, ih e he⟩

theorem retagged {depth : Nat} {x : Tagged} (h : Exact depth x) :
    ofTree (Tree.ofValue x.plain) = x := by
  induction h with
  | null => rfl
  | bool => rfl
  | @integer _ n h =>
    rw [plain, ofTree_ofInteger, ofInteger_eq (inRange_of_safe h), if_pos h]
  | @bigInteger _ n h hrange =>
    rw [plain, Json.integerOf_ofInt, ofTree_ofInteger, ofInteger_eq hrange, if_neg h]
  | string => rfl
  | @list _ items _ ih =>
    rw [plain, plainItems_eq_map, Tree.ofValue, Tree.ofValues_eq_map, ofTree, ofTrees_eq_map,
      List.map_map, List.map_map]
    exact congrArg Tagged.list ((List.map_congr_left ih).trans (List.map_id items))
  | @map _ members hnames _ _ ih =>
    rw [plain, plainMembers_eq_map, Tree.ofValue, Tree.ofEntries_eq_map, List.map_map,
      Text.ofPairs_of_nodup (by rw [List.map_map]; exact hnames), ofTree, ofTreeMembers_eq_map,
      List.map_map]
    have hmember : ∀ e ∈ members, (e.1, ofTree (Tree.ofValue e.2.plain)) = e := fun e he => by
      rw [ih e he]
    exact congrArg Tagged.map ((List.map_congr_left hmember).trans (List.map_id members))

theorem refusal?_plain {depth : Nat} {x : Tagged} (h : Exact depth x) :
    Json.refusal? x.plain = none := by
  rw [← h.retagged]
  exact refusal?_ofTree _

/-- **Over the wire.** A document has bytes, and they are read as the document. -/
theorem readBytes {depth : Nat} {x : Tagged} (h : Exact depth x) :
    ∃ bytes, x.encode? = some bytes ∧ decodeBytes depth bytes = .ok x := by
  obtain ⟨bytes, hbytes, hread⟩ := Json.readBytes_write Json.Style.isPlain_compact false
    h.refusal?_plain h.readsBack h.isUnicode
  refine ⟨bytes, hbytes, ?_⟩
  rw [decodeBytes, hread]
  exact congrArg Except.ok h.retagged

/-- **As a text.** A written document is read as the document. -/
theorem decode_toText {depth : Nat} {x : Tagged} (h : Exact depth x) :
    decode depth x.toText = .ok x := by
  rw [decode, toText, Json.read_write Json.Style.isPlain_compact false h.refusal?_plain h.readsBack]
  exact congrArg Except.ok h.retagged

end Exact

end Tagged
end LogQuery
