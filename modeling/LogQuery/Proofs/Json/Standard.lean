import LogQuery.Proofs.Json.Exact
import LogQuery.Proofs.Json.Nesting
/-!
# Documents within the standard

The names of the numbers without digits are all that a reader can accept beyond the standard. A document
that is read without them is read in the same way with them, and it has no such number in it
(`readBytes_strict`). What was read and is written again has one exactly where a numeral was too large for
a floating-point number, so that a reader that keeps to the standard accepts exactly what is left.

* `Tree.isStandard`, `Tagged.isFinite`: documents in which all numbers have digits.
* `decodeBytes_written_iff`: which documents are accepted again.
* `Tagged.Fits`: what is known of a document that was read, and of its parts.
-/
namespace LogQuery

open Json (Tree)

namespace Json

mutual

/-- Whether a document has no number without digits in it. -/
def Tree.isStandard : Tree → Bool
  | .constant _ => false
  | .list items => Tree.areStandard items
  | .map members => Tree.membersStandard members
  | _ => true

/-- Whether this is so of all items of a list. -/
def Tree.areStandard : List Tree → Bool
  | [] => true
  | x :: rest => x.isStandard && Tree.areStandard rest

/-- Whether this is so of all members of a map. -/
def Tree.membersStandard : List (Text × Tree) → Bool
  | [] => true
  | (_, x) :: rest => x.isStandard && Tree.membersStandard rest

end

theorem Tree.areStandard_eq_all (items : List Tree) : areStandard items = items.all isStandard := by
  induction items with
  | nil => rfl
  | cons x items ih => rw [areStandard, ih, List.all_cons]

theorem Tree.membersStandard_eq_all (members : List (Text × Tree)) :
    membersStandard members = members.all (·.2.isStandard) := by
  induction members with
  | nil => rfl
  | cons member members ih => rw [membersStandard, ih, List.all_cons]

theorem readNumber_standard {t rest : Text} {x : Tree} (h : readNumber t = .ok (x, rest)) :
    x.isStandard = true := by
  unfold readNumber at h
  simp only at h
  split at h
  · cases h
  · split at h
    · split at h
      · cases h
      · obtain ⟨rfl, -⟩ := Prod.mk.inj (Except.ok.inj h)
        rfl
    · obtain ⟨rfl, -⟩ := Prod.mk.inj (Except.ok.inj h)
      rfl

theorem readAtom_strict {t rest : Text} {x : Tree} (h : readAtom false t = .ok (x, rest)) :
    readAtom true t = .ok (x, rest) ∧ x.isStandard = true := by
  unfold readAtom at h ⊢
  split at h
  next hword => cases h
  next tree after hconstant hword =>
    obtain ⟨rfl, rfl⟩ := Prod.mk.inj (Except.ok.inj h)
    refine ⟨h, ?_⟩
    obtain ⟨⟨word, value⟩, hmem, hfound⟩ := List.exists_of_findSome?_eq_some hword
    obtain ⟨_, -, heq⟩ := Option.map_eq_some_iff.mp hfound
    obtain ⟨rfl, -⟩ := Prod.mk.inj heq
    simp only [words, List.mem_cons, Prod.mk.injEq, List.not_mem_nil, or_false] at hmem
    rcases hmem with ⟨-, rfl⟩ | ⟨-, rfl⟩ | ⟨-, rfl⟩ | ⟨-, rfl⟩ | ⟨-, rfl⟩ | ⟨-, rfl⟩
    · rfl
    · rfl
    · rfl
    · exact absurd rfl (hconstant _)
    · exact absurd rfl (hconstant _)
    · exact absurd rfl (hconstant _)
  next => exact ⟨h, readNumber_standard h⟩

mutual

/-- A value that is read without the names of numbers is read in the same way with them. -/
theorem readValue_strict : ∀ (fuel : Nat) {depth : Nat} {t rest : Text} {x : Tree},
    readValue false fuel depth t = .ok (x, rest) →
    readValue true fuel depth t = .ok (x, rest) ∧ x.isStandard = true
  | fuel + 1, depth, t, rest, x, h => by
    unfold readValue at h ⊢
    split at h
    next t' =>
      obtain ⟨⟨s, after⟩, -, hafter⟩ := eq_ok_of_bind h
      obtain ⟨rfl, -⟩ := Prod.mk.inj (Except.ok.inj hafter)
      exact ⟨h, rfl⟩
    next t' =>
      split at h
      · cases h
      · obtain ⟨rfl, -⟩ := Prod.mk.inj (Except.ok.inj h)
        exact ⟨h, rfl⟩
      · obtain ⟨⟨items, after⟩, hitems, h⟩ := eq_ok_of_bind h
        obtain ⟨rfl, rfl⟩ := Prod.mk.inj (Except.ok.inj h)
        obtain ⟨hsame, hstandard⟩ := readItems_strict fuel hitems
        rw [hsame]
        exact ⟨rfl, hstandard⟩
    next t' =>
      split at h
      · cases h
      · obtain ⟨rfl, -⟩ := Prod.mk.inj (Except.ok.inj h)
        exact ⟨h, rfl⟩
      · obtain ⟨⟨members, after⟩, hmembers, h⟩ := eq_ok_of_bind h
        obtain ⟨rfl, rfl⟩ := Prod.mk.inj (Except.ok.inj h)
        obtain ⟨hsame, hstandard⟩ := readMembers_strict fuel hmembers
        rw [hsame]
        rw [Tree.membersStandard_eq_all, List.all_eq_true] at hstandard
        rw [Tree.isStandard, Tree.membersStandard_eq_all, List.all_eq_true]
        exact ⟨rfl, fun e he => hstandard e (Text.mem_of_mem_ofPairs he)⟩
    next => exact readAtom_strict h

theorem readItems_strict : ∀ (fuel : Nat) {depth : Nat} {t rest : Text} {items : List Tree},
    readItems false fuel depth t = .ok (items, rest) →
    readItems true fuel depth t = .ok (items, rest) ∧ Tree.areStandard items = true
  | fuel + 1, depth, t, rest, items, h => by
    unfold readItems at h ⊢
    obtain ⟨⟨x, after⟩, hvalue, h⟩ := eq_ok_of_bind h
    obtain ⟨hsame, hx⟩ := readValue_strict fuel hvalue
    rw [hsame]
    simp only [bind, Except.bind] at h ⊢
    split at h
    next =>
      obtain ⟨rfl, rfl⟩ := Prod.mk.inj (Except.ok.inj h)
      exact ⟨rfl, by simp [Tree.areStandard, hx]⟩
    next more _ =>
      cases hitems : readItems false fuel depth (skipSpace more) with
      | error e => simp only [hitems, reduceCtorEq] at h
      | ok found =>
        obtain ⟨xs, after'⟩ := found
        obtain ⟨hrest, hxs⟩ := readItems_strict fuel hitems
        simp only [hitems] at h
        obtain ⟨rfl, rfl⟩ := Prod.mk.inj (Except.ok.inj h)
        rw [hrest]
        exact ⟨rfl, by simp [Tree.areStandard, hx, hxs]⟩
    next => cases h

theorem readMembers_strict : ∀ (fuel : Nat) {depth : Nat} {t rest : Text}
    {members : List (Text × Tree)}, readMembers false fuel depth t = .ok (members, rest) →
    readMembers true fuel depth t = .ok (members, rest) ∧ Tree.membersStandard members = true
  | fuel + 1, depth, t, rest, members, h => by
    unfold readMembers at h ⊢
    obtain ⟨⟨name, behind⟩, hname, h⟩ := eq_ok_of_bind h
    obtain ⟨⟨x, after⟩, hvalue, h⟩ := eq_ok_of_bind h
    obtain ⟨hsame, hx⟩ := readValue_strict fuel hvalue
    rw [hname]
    simp only [bind, Except.bind, hsame] at h ⊢
    split at h
    next =>
      obtain ⟨rfl, rfl⟩ := Prod.mk.inj (Except.ok.inj h)
      exact ⟨rfl, by simp [Tree.membersStandard, hx]⟩
    next more _ =>
      cases hmembers : readMembers false fuel depth (skipSpace more) with
      | error e => simp only [hmembers, reduceCtorEq] at h
      | ok found =>
        obtain ⟨xs, after'⟩ := found
        obtain ⟨hrest, hxs⟩ := readMembers_strict fuel hmembers
        simp only [hmembers] at h
        obtain ⟨rfl, rfl⟩ := Prod.mk.inj (Except.ok.inj h)
        rw [hrest]
        exact ⟨rfl, by simp [Tree.membersStandard, hx, hxs]⟩
    next => cases h

end

theorem readDocument_strict {depth : Nat} {t : Text} {x : Tree} (h : readDocument false depth t = .ok x) :
    readDocument true depth t = .ok x ∧ x.isStandard = true := by
  obtain ⟨⟨y, rest⟩, hvalue, hend⟩ := eq_ok_of_bind h
  obtain ⟨hsame, hstandard⟩ := readValue_strict _ hvalue
  unfold readDocument
  simp only [hsame, bind, Except.bind]
  simp only at hend
  split at hend
  next hskip =>
    cases hend
    exact ⟨rfl, hstandard⟩
  next => cases hend

/-- **What is accepted without the names of numbers** is accepted with them as well, it is the same
document, and there are no such names in it. -/
theorem readBytes_strict {depth : Nat} {bytes : Bytes} {x : Tree}
    (h : Tree.readBytes false depth bytes = .ok x) :
    Tree.readBytes true depth bytes = .ok x ∧ x.isStandard = true := by
  obtain ⟨t, htext, h⟩ := eq_ok_of_bind h
  obtain ⟨hsame, hstandard⟩ := readDocument_strict (eq_ok_of_mapError h)
  rw [Tree.readBytes, htext]
  exact ⟨congrArg (Except.mapError (Stop.toError t)) hsame, hstandard⟩

end Json

/-! ## Numbers with digits -/

theorem Value.areReadable_eq_all (constants : Bool) (depth : Nat) : ∀ items : List Value,
    areReadable constants depth items = items.all (·.isReadable constants depth)
  | [] => rfl
  | v :: items => by rw [areReadable, areReadable_eq_all constants depth items, List.all_cons]

theorem Value.entriesReadable_eq_all (constants : Bool) (depth : Nat) :
    ∀ entries : List (Scalar × Value),
      entriesReadable constants depth entries = entries.all (·.2.isReadable constants depth)
  | [] => rfl
  | (k, v) :: entries => by
    rw [entriesReadable, entriesReadable_eq_all constants depth entries, List.all_cons]

namespace Tagged

mutual

/-- Whether all numbers in a document have digits. -/
def isFinite : Tagged → Bool
  | float x => x.isFinite
  | list items => areFinite items
  | map members => membersFinite members
  | _ => true

/-- Whether this is so of all items of a list. -/
def areFinite : List Tagged → Bool
  | [] => true
  | x :: rest => x.isFinite && areFinite rest

/-- Whether this is so of all members of a map. -/
def membersFinite : List (Text × Tagged) → Bool
  | [] => true
  | (_, x) :: rest => x.isFinite && membersFinite rest

end

theorem areFinite_eq_all : ∀ items : List Tagged, areFinite items = items.all isFinite
  | [] => rfl
  | x :: items => by rw [areFinite, areFinite_eq_all items, List.all_cons]

theorem membersFinite_eq_all : ∀ members : List (Text × Tagged),
    membersFinite members = members.all (·.2.isFinite)
  | [] => rfl
  | (k, x) :: members => by rw [membersFinite, membersFinite_eq_all members, List.all_cons]

theorem all_eq_or {α : Type} {f g : α → Bool} (b : Bool) :
    ∀ {l : List α}, (∀ a ∈ l, f a = (b || g a)) → l.all f = (b || l.all g)
  | [], _ => by simp
  | a :: l, h => by
    obtain ⟨ha, hl⟩ := List.forall_mem_cons.mp h
    rw [List.all_cons, List.all_cons, ha, all_eq_or b hl]
    cases b <;> rfl

variable {depth size : Nat} {tree : Tree}

theorem isReadable_plain (constants : Bool) (h : tree.Fits depth size) :
    (ofTree tree).plain.isReadable constants depth = (constants || (ofTree tree).isFinite) := by
  have hfloat : ∀ (x : Binary64) (depth : Nat), x.inFormat = true →
      (Tagged.float x).plain.isReadable constants depth = (constants || (Tagged.float x).isFinite) :=
    fun x depth hx => by simp only [plain, Value.isReadable, isFinite, hx, Bool.true_and]
  induction h with
  | null | bool | string => simp [ofTree, plain, Value.isReadable, isFinite]
  | decimal literal => exact hfloat _ _ (Binary64.inFormat_decimalOf literal)
  | constant c => exact hfloat _ _ (by cases c <;> rfl)
  | @integer _ _ literal h =>
    rw [ofTree]
    rcases ofLiteral_cases literal with hcase | hcase | hcase <;> rw [hcase]
    · simp [plain, Value.isReadable, isFinite]
    · simp [plain, Value.isReadable, isFinite]
    · exact hfloat _ _ (Binary64.inFormat_decimalOf literal)
  | @list depth _ items _ ih =>
    rw [ofTree, ofTrees_eq_map, plain, plainItems_eq_map, Value.isReadable, Value.areReadable_eq_all,
      isFinite, areFinite_eq_all, List.all_map, List.all_map, List.all_map]
    exact all_eq_or constants ih
  | @map depth _ members _ _ ih =>
    rw [ofTree, ofTreeMembers_eq_map, plain, plainMembers_eq_map, Value.isReadable,
      Value.entriesReadable_eq_all, isFinite, membersFinite_eq_all, List.all_map, List.all_map,
      List.all_map]
    exact all_eq_or constants ih

/-- A document that was read is written within the standard if its numbers have digits. -/
theorem isStandard_plain (h : tree.Fits depth size) :
    (Tree.ofValue (ofTree tree).plain).isStandard = (ofTree tree).isFinite := by
  have hfloat : ∀ x : Binary64, (Tree.ofScalar (.float x)).isStandard = x.isFinite := fun x => by
    cases x <;> rfl
  induction h with
  | null | bool | string => rfl
  | decimal literal => exact hfloat _
  | constant c => cases c <;> rfl
  | @integer _ _ literal h =>
    rw [ofTree]
    rcases ofLiteral_cases literal with hcase | hcase | hcase <;> rw [hcase]
    · rfl
    · rfl
    · exact hfloat _
  | @list depth _ items _ ih =>
    rw [ofTree, ofTrees_eq_map, plain, plainItems_eq_map, Tree.ofValue, Tree.ofValues_eq_map,
      isFinite, areFinite_eq_all, Tree.isStandard, Tree.areStandard_eq_all]
    simp only [List.all_map]
    exact all_eq_or false ih
  | @map depth _ members hnames _ ih =>
    rw [ofTree, ofTreeMembers_eq_map, plain, plainMembers_eq_map, Tree.ofValue, Tree.ofEntries_eq_map,
      List.map_map, List.map_map, Text.ofPairs_of_nodup (by rw [List.map_map]; exact hnames), isFinite,
      membersFinite_eq_all, Tree.isStandard, Tree.membersStandard_eq_all, List.all_map, List.all_map]
    exact all_eq_or false ih

/-! ## Written documents that are accepted -/

variable {s : Json.Style} {depth : Nat} {bytes : Bytes}

/-- A document that was read and is written again is accepted exactly if its numbers have digits. -/
theorem decodeBytes_written_iff (hs : s.IsPlain) (h : tree.Fits depth size)
    (hbytes : Utf8.encode? (Json.write s (ofTree tree).plain) = some bytes) :
    (∃ x, decodeBytes depth bytes = .ok x) ↔ (ofTree tree).isFinite = true := by
  have hread : ∀ constants, (constants || (ofTree tree).isFinite) = true →
      Tree.readBytes constants depth bytes = .ok (Tree.ofValue (ofTree tree).plain) :=
    fun constants hc => Json.readBytes_written hs (refusal?_ofTree tree)
      ((isReadable_plain constants h).trans hc) hbytes
  constructor
  · rintro ⟨x, hx⟩
    obtain ⟨found, hfound, -⟩ := eq_ok_of_map hx
    obtain ⟨hsame, hstandard⟩ := Json.readBytes_strict hfound
    rw [hread true rfl] at hsame
    rw [← isStandard_plain h, Except.ok.inj hsame]
    exact hstandard
  · intro hfinite
    exact ⟨_, by rw [decodeBytes, hread false hfinite]; rfl⟩

/-! ## Parts of what is read -/

/-- A part of a document that was read, with nesting up to some depth. -/
def Fits (depth : Nat) (x : Tagged) : Prop := ∃ tree size, Tree.Fits depth size tree ∧ x = ofTree tree

variable {x y : Tagged}

theorem Fits.refusal?_plain (h : x.Fits depth) : Json.refusal? x.plain = none := by
  obtain ⟨tree, size, -, rfl⟩ := h
  exact refusal?_ofTree tree

/-- A part of a document that was read has no more levels of nesting than the document may have. -/
theorem Fits.refusalWithin?_plain {levels : Nat} (h : x.Fits depth) (hle : depth ≤ levels) :
    Json.refusalWithin? (some levels) x.plain = none := by
  obtain ⟨tree, size, hfits, rfl⟩ := h
  have hreadable := (isReadable_plain true hfits).trans (Bool.true_or _)
  exact Json.refusalWithin?_of_le hle
    (Json.refusalWithin?_of_isReadable hreadable (refusal?_ofTree tree))

theorem fits_of_decodeBytes (h : decodeBytes depth bytes = .ok x) : x.Fits depth := by
  obtain ⟨tree, htree, rfl⟩ := eq_ok_of_map h
  obtain ⟨size, hfits⟩ := Json.fits_of_readBytes htree
  exact ⟨tree, size, hfits, rfl⟩

theorem Fits.of_member (h : x.Fits depth) {key : Text} (hy : x.member? key = some y) :
    y.Fits depth := by
  obtain ⟨tree, size, hfits, rfl⟩ := h
  rw [member?_ofTree] at hy
  obtain ⟨member, hmember, rfl⟩ := Option.map_eq_some_iff.mp hy
  cases hfits with
  | map hnames h => exact ⟨member, size, (h _ (Text.mem_of_lookup? hmember)).deepen, rfl⟩
  | _ => cases hmember

theorem Fits.of_item {items : List Tagged} (h : (list items).Fits depth) (hy : y ∈ items) :
    y.Fits depth := by
  obtain ⟨tree, size, hfits, htree⟩ := h
  cases hfits with
  | @list _ _ trees h =>
    rw [ofTree, ofTrees_eq_map] at htree
    cases htree
    obtain ⟨item, hitem, rfl⟩ := List.mem_map.mp hy
    exact ⟨item, size, (h item hitem).deepen, rfl⟩
  | @integer _ _ literal =>
    rcases ofLiteral_cases literal with h | h | h <;> rw [ofTree, h] at htree <;> cases htree
  | _ => cases htree

theorem Fits.of_empty {members : List (Text × Tagged)} (h : (map members).Fits depth) :
    (map []).Fits depth := by
  obtain ⟨tree, size, hfits, htree⟩ := h
  cases hfits with
  | map => exact ⟨.map [], 0, .map List.nodup_nil (by simp), rfl⟩
  | @integer _ _ literal =>
    rcases ofLiteral_cases literal with h | h | h <;> rw [ofTree, h] at htree <;> cases htree
  | _ => cases htree

theorem inherited_fits (depth : Nat) : Inherited (Fits depth) := ⟨Fits.of_member, Fits.of_item⟩

/-- **What was read and is written again is accepted** exactly if its numbers have digits. -/
theorem Fits.decodeBytes_iff (hs : s.IsPlain) (h : x.Fits depth)
    (hbytes : Utf8.encode? (Json.write s x.plain) = some bytes) :
    (∃ y, decodeBytes depth bytes = .ok y) ↔ x.isFinite = true := by
  obtain ⟨tree, size, hfits, rfl⟩ := h
  exact decodeBytes_written_iff hs hfits hbytes

end Tagged
end LogQuery
