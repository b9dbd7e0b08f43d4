import LogQuery.Json.Encoding
import LogQuery.Proofs.Number.Canonical
import LogQuery.Proofs.Steps
import LogQuery.Proofs.Text.Pairs
import Mathlib.Data.List.TakeDrop
import Mathlib.Data.List.TakeWhile
/-!
# What a document that was read looks like

Not every tree is the document of some text. In one that was read the integers are numerals, the
names of a map are distinct, lists and maps are nested no deeper than the reader goes, and every string
is shorter than the text by its quotes at least (`Tree.Fits`).

* `readValue_fits`, `readItems_fits`, `readMembers_fits`: the parts of a document, by induction on the
  fuel. What is left behind a value is shorter than what was there.
* `fits_of_read`, `fits_of_readBytes`: a whole document.
-/
namespace LogQuery

namespace Json

/-- A document that a text of some size may have, with nesting up to some depth. -/
inductive Tree.Fits : (depth size : Nat) → Tree → Prop
  | null {depth size : Nat} : Fits depth size .null
  | bool {depth size : Nat} (b : Bool) : Fits depth size (.bool b)
  | decimal {depth size : Nat} (literal : Text) : Fits depth size (.decimal literal)
  | constant {depth size : Nat} (c : Constant) : Fits depth size (.constant c)
  | integer {depth size : Nat} {literal : Text} (h : IsNumeral literal) :
    Fits depth size (.integer literal)
  | string {depth size : Nat} {t : Text} (h : t.length + 2 ≤ size) : Fits depth size (.string t)
  | list {depth size : Nat} {items : List Tree} (h : ∀ x ∈ items, Fits depth size x) :
    Fits (depth + 1) size (.list items)
  | map {depth size : Nat} {members : List (Text × Tree)} (hnames : (members.map Prod.fst).Nodup)
    (h : ∀ e ∈ members, Fits depth size e.2) : Fits (depth + 1) size (.map members)

theorem Tree.Fits.mono {depth size size' : Nat} {x : Tree} (h : x.Fits depth size)
    (hle : size ≤ size') : x.Fits depth size' := by
  induction h with
  | null => exact .null
  | bool b => exact .bool b
  | decimal literal => exact .decimal literal
  | constant c => exact .constant c
  | integer h => exact .integer h
  | string h => exact .string (Nat.le_trans h hle)
  | list _ ih => exact .list fun x hx => ih x hx hle
  | map hnames _ ih => exact .map hnames fun e he => ih e he hle

theorem Tree.Fits.deepen {depth size : Nat} {x : Tree} (h : x.Fits depth size) :
    x.Fits (depth + 1) size := by
  induction h with
  | null => exact .null
  | bool b => exact .bool b
  | decimal literal => exact .decimal literal
  | constant c => exact .constant c
  | integer h => exact .integer h
  | string h => exact .string h
  | list _ ih => exact .list ih
  | map hnames _ ih => exact .map hnames ih

/-! ## Strings -/

theorem length_skipSpace_le (t : Text) : (skipSpace t).length ≤ t.length :=
  (List.dropWhile_suffix isSpace).length_le

theorem hex4?_eq_some {t rest : Text} {n : Nat} (h : hex4? t = some (n, rest)) :
    rest.length + 4 = t.length := by
  unfold hex4? at h
  split at h
  · obtain ⟨_, -, h⟩ := Option.bind_eq_some_iff.mp h
    obtain ⟨_, -, h⟩ := Option.bind_eq_some_iff.mp h
    obtain ⟨_, -, h⟩ := Option.bind_eq_some_iff.mp h
    obtain ⟨_, -, h⟩ := Option.bind_eq_some_iff.mp h
    cases h
    rfl
  · cases h

theorem readUnicodeEscape_length {u p : CodePoint} {t rest : Text}
    (h : readUnicodeEscape u t = .ok (p, rest)) : rest.length ≤ t.length := by
  unfold readUnicodeEscape at h
  split at h
  · cases h
  · cases h
  next hhex =>
    have hlength := hex4?_eq_some hhex
    split at h
    · split at h
      · simp only [List.length_cons] at hlength
        split at h
        · obtain rfl := (Prod.mk.inj (Except.ok.inj h)).2
          simp only [List.length_cons]
          omega
        split at h
        · cases h
        next hlow =>
          have hlow := hex4?_eq_some hlow
          split at h
          · obtain rfl := (Prod.mk.inj (Except.ok.inj h)).2
            omega
          · obtain rfl := (Prod.mk.inj (Except.ok.inj h)).2
            simp only [List.length_cons]
            omega
      · obtain rfl := (Prod.mk.inj (Except.ok.inj h)).2
        omega
    · obtain rfl := (Prod.mk.inj (Except.ok.inj h)).2
      omega

theorem readString_length {start : Text} : ∀ {fuel : Nat} {t s rest : Text},
    readString start fuel t = .ok (s, rest) → s.length + rest.length + 1 ≤ t.length
  | fuel + 1, p :: t, s, rest, h => by
    unfold readString at h
    split at h
    · cases h
      simp
    split at h
    · split at h
      · cases h
      split at h
      · obtain ⟨⟨q, after⟩, hescape, h⟩ := eq_ok_of_bind h
        obtain ⟨⟨tail, after'⟩, htail, h⟩ := eq_ok_of_bind h
        cases h
        have hafter := readUnicodeEscape_length hescape
        have := readString_length htail
        simp only [List.length_cons] at hafter ⊢
        omega
      · split at h
        · cases h
        · obtain ⟨⟨tail, after⟩, htail, h⟩ := eq_ok_of_bind h
          cases h
          have := readString_length htail
          simp only [List.length_cons]
          omega
    split at h
    · cases h
    · obtain ⟨⟨tail, after⟩, htail, h⟩ := eq_ok_of_bind h
      cases h
      have := readString_length htail
      simp only [List.length_cons]
      omega
  | _ + 1, [], _, _, h => by
    cases h
  | 0, _, _, _, h => by
    cases h

/-! ## Numbers and words -/

theorem spanDigits_eq {t digits rest : Text} (h : spanDigits t = (digits, rest)) :
    (∀ p ∈ digits, p.isAsciiDigit = true) ∧ rest.length ≤ t.length := by
  rw [spanDigits, List.span_eq_takeWhile_dropWhile] at h
  cases h
  exact ⟨fun p hp => List.mem_takeWhile_imp hp, (List.dropWhile_suffix _).length_le⟩

theorem spanWhole?_eq {t whole rest : Text} (h : spanWhole? t = some (whole, rest)) :
    (∃ n, whole = Text.ofNat n) ∧ rest.length < t.length := by
  cases t with
  | nil => cases h
  | cons p t =>
    simp only [spanWhole?] at h
    split at h
    next hp =>
      cases h
      exact ⟨⟨0, by rw [hp, Text.ofNat_zero]⟩, Nat.lt_succ_self _⟩
    next hp =>
      split at h
      next hdigit =>
        obtain ⟨hdigits, hlength⟩ := spanDigits_eq (t := t) rfl
        cases h
        exact ⟨⟨_, (Text.ofNat_digits hp _ (List.forall_mem_cons.mpr ⟨hdigit, hdigits⟩)).symm⟩,
          Nat.lt_succ_of_le hlength⟩
      next => cases h

theorem spanFraction_length (t : Text) : (spanFraction t).2.length ≤ t.length := by
  unfold spanFraction
  split
  · split
    · exact Nat.le_refl _
    next heq =>
      have := (spanDigits_eq heq).2
      simp only [List.length_cons]
      omega
  · exact Nat.le_refl _

theorem spanSign_length (t : Text) : (spanSign t).2.length ≤ t.length := by
  unfold spanSign
  split <;> simp

theorem spanExponent_length (t : Text) : (spanExponent t).2.length ≤ t.length := by
  cases t with
  | nil => exact Nat.le_refl _
  | cons p t =>
    have hsign := spanSign_length t
    simp only [spanExponent]
    split
    · split
      · exact Nat.le_refl _
      next heq =>
        have hdigits := (spanDigits_eq heq).2
        simp only [List.length_cons]
        omega
    · exact Nat.le_refl _

theorem readNumber_fits {t rest : Text} {x : Tree} (h : readNumber t = .ok (x, rest))
    (depth size : Nat) : x.Fits depth size ∧ rest.length < t.length := by
  unfold readNumber at h
  split at h
  next sign unsigned hsign =>
  have hunsigned : unsigned.length ≤ t.length ∧ (sign = [] ∨ sign = [.scalar '-']) := by
    split at hsign <;> cases hsign
    · exact ⟨by simp, Or.inr rfl⟩
    · exact ⟨Nat.le_refl _, Or.inl rfl⟩
  split at h
  · cases h
  next whole rest' hwhole =>
    obtain ⟨⟨n, rfl⟩, hrest⟩ := spanWhole?_eq hwhole
    split at h
    next fraction middle hfraction =>
    have hmiddle : middle.length ≤ rest'.length := by
      have := spanFraction_length rest'
      rwa [hfraction] at this
    split at h
    next exponent behind hexponent =>
    have hbehind : behind.length ≤ middle.length := by
      have := spanExponent_length middle
      rwa [hexponent] at this
    split at h
    · split at h
      · cases h
      · obtain ⟨rfl, rfl⟩ := Prod.mk.inj (Except.ok.inj h)
        refine ⟨.integer ?_, by omega⟩
        rcases hunsigned.2 with rfl | rfl
        · exact .unsigned n
        · exact .negative n
    · obtain ⟨rfl, rfl⟩ := Prod.mk.inj (Except.ok.inj h)
      exact ⟨.decimal _, by omega⟩

theorem dropPrefix?_length : ∀ {t u rest : Text}, Text.dropPrefix? t u = some rest →
    rest.length + t.length = u.length
  | [], _, _, h => by
    cases h
    rfl
  | a :: t, b :: u, rest, h => by
    unfold Text.dropPrefix? at h
    split at h
    · have := dropPrefix?_length h
      simp only [List.length_cons]
      omega
    · cases h

theorem readWord?_fits {t rest : Text} {x : Tree} (h : readWord? t = some (x, rest))
    (depth size : Nat) : x.Fits depth size ∧ rest.length < t.length := by
  obtain ⟨⟨word, tree⟩, hmem, hword⟩ := List.exists_of_findSome?_eq_some h
  obtain ⟨rest', hdrop, heq⟩ := Option.map_eq_some_iff.mp hword
  obtain ⟨rfl, rfl⟩ := Prod.mk.inj heq
  have hlength := dropPrefix?_length hdrop
  have hwords : ∀ w ∈ words, (Text.ofString w.1).length ≠ 0 := by decide
  have hword := hwords _ hmem
  refine ⟨?_, by simp only at hword; omega⟩
  simp only [words, List.mem_cons, Prod.mk.injEq, List.not_mem_nil, or_false] at hmem
  rcases hmem with ⟨-, rfl⟩ | ⟨-, rfl⟩ | ⟨-, rfl⟩ | ⟨-, rfl⟩ | ⟨-, rfl⟩ | ⟨-, rfl⟩
  · exact .null
  · exact .bool _
  · exact .bool _
  · exact .constant _
  · exact .constant _
  · exact .constant _

theorem readAtom_fits {constants : Bool} {t rest : Text} {x : Tree}
    (h : readAtom constants t = .ok (x, rest)) (depth size : Nat) :
    x.Fits depth size ∧ rest.length < t.length := by
  unfold readAtom at h
  split at h
  next hword =>
    split at h
    · obtain ⟨rfl, rfl⟩ := Prod.mk.inj (Except.ok.inj h)
      exact readWord?_fits hword depth size
    · cases h
  next hword =>
    obtain ⟨rfl, rfl⟩ := Prod.mk.inj (Except.ok.inj h)
    exact readWord?_fits hword depth size
  next => exact readNumber_fits h depth size

/-! ## Lists and maps -/

theorem length_behind {t rest : Text} {p : CodePoint} (h : skipSpace t = p :: rest) :
    rest.length < t.length := by
  have := length_skipSpace_le t
  rw [h, List.length_cons] at this
  omega

theorem readName_length {t name rest : Text} (h : readName t = .ok (name, rest)) :
    rest.length < t.length := by
  unfold readName at h
  split at h
  next t' =>
    obtain ⟨⟨s, after⟩, hstring, h⟩ := eq_ok_of_bind h
    have hlength := readString_length hstring
    simp only at h
    split at h
    next hskip =>
      obtain ⟨-, rfl⟩ := Prod.mk.inj (Except.ok.inj h)
      have hcolon := length_behind hskip
      have hspace := length_skipSpace_le ‹Text›
      simp only [List.length_cons]
      omega
    next => cases h
  next => cases h

mutual

theorem readValue_fits (constants : Bool) : ∀ (fuel : Nat) {depth : Nat} {t rest : Text} {x : Tree},
    readValue constants fuel depth t = .ok (x, rest) →
    x.Fits depth t.length ∧ rest.length < t.length
  | fuel + 1, depth, t, rest, x, h => by
    unfold readValue at h
    split at h
    next t' =>
      obtain ⟨⟨s, after⟩, hstring, h⟩ := eq_ok_of_bind h
      obtain ⟨rfl, rfl⟩ := Prod.mk.inj (Except.ok.inj h)
      have := readString_length hstring
      refine ⟨.string ?_, ?_⟩ <;> simp only [List.length_cons] <;> omega
    next t' =>
      split at h
      · cases h
      next hskip =>
        obtain ⟨rfl, rfl⟩ := Prod.mk.inj (Except.ok.inj h)
        have := length_behind hskip
        exact ⟨.list (by simp), by simp only [List.length_cons]; omega⟩
      next hskip =>
        obtain ⟨⟨items, after⟩, hitems, h⟩ := eq_ok_of_bind h
        obtain ⟨rfl, rfl⟩ := Prod.mk.inj (Except.ok.inj h)
        obtain ⟨hfits, hlength⟩ := readItems_fits constants fuel hitems
        have hspace := length_skipSpace_le t'
        have hle : (skipSpace t').length ≤ (CodePoint.scalar '[' :: t').length :=
          Nat.le_succ_of_le hspace
        exact ⟨.list fun y hy => (hfits y hy).mono hle, by simp only [List.length_cons]; omega⟩
    next t' =>
      split at h
      · cases h
      next hskip =>
        obtain ⟨rfl, rfl⟩ := Prod.mk.inj (Except.ok.inj h)
        have := length_behind hskip
        exact ⟨.map List.nodup_nil (by simp), by simp only [List.length_cons]; omega⟩
      next hskip =>
        obtain ⟨⟨members, after⟩, hmembers, h⟩ := eq_ok_of_bind h
        obtain ⟨rfl, rfl⟩ := Prod.mk.inj (Except.ok.inj h)
        obtain ⟨hfits, hlength⟩ := readMembers_fits constants fuel hmembers
        have hspace := length_skipSpace_le t'
        have hle : (skipSpace t').length ≤ (CodePoint.scalar '\x7b' :: t').length :=
          Nat.le_succ_of_le hspace
        exact ⟨.map (Text.nodup_ofPairs members) fun e he =>
          (hfits e (Text.mem_of_mem_ofPairs he)).mono hle, by simp only [List.length_cons]; omega⟩
    next => exact readAtom_fits h depth t.length

theorem readItems_fits (constants : Bool) : ∀ (fuel : Nat) {depth : Nat} {t rest : Text}
    {items : List Tree}, readItems constants fuel depth t = .ok (items, rest) →
    (∀ x ∈ items, x.Fits depth t.length) ∧ rest.length < t.length
  | fuel + 1, depth, t, rest, items, h => by
    unfold readItems at h
    obtain ⟨⟨x, after⟩, hvalue, h⟩ := eq_ok_of_bind h
    obtain ⟨hx, hafter⟩ := readValue_fits constants fuel hvalue
    simp only at h
    split at h
    next hskip =>
      obtain ⟨rfl, rfl⟩ := Prod.mk.inj (Except.ok.inj h)
      have := length_behind hskip
      exact ⟨List.forall_mem_singleton.mpr hx, by omega⟩
    next more hskip =>
      obtain ⟨⟨xs, after'⟩, hitems, h⟩ := eq_ok_of_bind h
      simp only at h
      obtain ⟨rfl, rfl⟩ := Prod.mk.inj (Except.ok.inj h)
      obtain ⟨hxs, hlength⟩ := readItems_fits constants fuel hitems
      have hcomma := length_behind hskip
      have hspace := length_skipSpace_le more
      exact ⟨List.forall_mem_cons.mpr ⟨hx, fun y hy => (hxs y hy).mono (by omega)⟩, by omega⟩
    next => cases h

theorem readMembers_fits (constants : Bool) : ∀ (fuel : Nat) {depth : Nat} {t rest : Text}
    {members : List (Text × Tree)}, readMembers constants fuel depth t = .ok (members, rest) →
    (∀ e ∈ members, e.2.Fits depth t.length) ∧ rest.length < t.length
  | fuel + 1, depth, t, rest, members, h => by
    unfold readMembers at h
    obtain ⟨⟨name, behind⟩, hname, h⟩ := eq_ok_of_bind h
    obtain ⟨⟨x, after⟩, hvalue, h⟩ := eq_ok_of_bind h
    have hbehind := readName_length hname
    obtain ⟨hx, hafter⟩ := readValue_fits constants fuel hvalue
    replace hx := hx.mono (Nat.le_of_lt hbehind)
    simp only at h
    split at h
    next hskip =>
      obtain ⟨rfl, rfl⟩ := Prod.mk.inj (Except.ok.inj h)
      have := length_behind hskip
      exact ⟨List.forall_mem_singleton.mpr hx, by omega⟩
    next more hskip =>
      obtain ⟨⟨es, after'⟩, hmembers, h⟩ := eq_ok_of_bind h
      simp only at h
      obtain ⟨rfl, rfl⟩ := Prod.mk.inj (Except.ok.inj h)
      obtain ⟨hes, hlength⟩ := readMembers_fits constants fuel hmembers
      have hcomma := length_behind hskip
      have hspace := length_skipSpace_le more
      exact ⟨List.forall_mem_cons.mpr ⟨hx, fun e he => (hes e he).mono (by omega)⟩, by omega⟩
    next => cases h

end

/-! ## More levels -/

/-- Two steps are alike if they do not stop over nesting and both parts are alike without such a stop. -/
theorem bind_eq_of_not_tooDeep {α β : Type} {x y : Except Stop α} {f g : α → Except Stop β}
    (hx : x ≠ .error .tooDeep → y = x) (hf : ∀ a, f a ≠ .error .tooDeep → g a = f a)
    (h : (x >>= f) ≠ .error .tooDeep) : (y >>= g) = (x >>= f) := by
  cases x with
  | error e =>
    rw [hx fun hdeep => h (congrArg Except.error (Except.error.inj hdeep))]
    rfl
  | ok a =>
    rw [hx nofun]
    exact hf a h

mutual

/-- What does not stop over nesting does not with more levels, and nothing else is different. -/
theorem readValue_of_le (constants : Bool) : ∀ (fuel : Nat) {depth deeper : Nat} {t : Text},
    depth ≤ deeper → readValue constants fuel depth t ≠ .error .tooDeep →
    readValue constants fuel deeper t = readValue constants fuel depth t
  | 0, _, _, _, _, _ => rfl
  | fuel + 1, depth, deeper, t, hle, h => by
    unfold readValue at h ⊢
    split at h
    next => rfl
    next t' =>
      simp only at h ⊢
      split at h
      next => exact absurd rfl h
      next hskip =>
        obtain ⟨deeper, rfl⟩ := Nat.exists_eq_add_one.mpr (show 0 < deeper by omega)
        simp only [hskip]
      next depth hskip =>
        -- A list with items takes one of the levels, of which there are more here.
        obtain ⟨deeper, rfl⟩ := Nat.exists_eq_add_one.mpr (show 0 < deeper by omega)
        have hitems : readItems constants fuel depth (skipSpace t') ≠ .error .tooDeep → _ :=
          readItems_of_le constants fuel (Nat.le_of_succ_le_succ hle)
        split
        next hclosed => cases hclosed
        next hclosed => exact absurd hclosed (hskip _)
        next k heq hopen =>
          obtain rfl := Nat.succ.inj heq
          exact bind_eq_of_not_tooDeep hitems (fun _ _ => rfl) h
    next t' =>
      simp only at h ⊢
      split at h
      next => exact absurd rfl h
      next hskip =>
        obtain ⟨deeper, rfl⟩ := Nat.exists_eq_add_one.mpr (show 0 < deeper by omega)
        simp only [hskip]
      next depth hskip =>
        obtain ⟨deeper, rfl⟩ := Nat.exists_eq_add_one.mpr (show 0 < deeper by omega)
        have hmembers : readMembers constants fuel depth (skipSpace t') ≠ .error .tooDeep → _ :=
          readMembers_of_le constants fuel (Nat.le_of_succ_le_succ hle)
        split
        next hclosed => cases hclosed
        next hclosed => exact absurd hclosed (hskip _)
        next k heq hopen =>
          obtain rfl := Nat.succ.inj heq
          exact bind_eq_of_not_tooDeep hmembers (fun _ _ => rfl) h
    next => rfl

theorem readItems_of_le (constants : Bool) : ∀ (fuel : Nat) {depth deeper : Nat} {t : Text},
    depth ≤ deeper → readItems constants fuel depth t ≠ .error .tooDeep →
    readItems constants fuel deeper t = readItems constants fuel depth t
  | 0, _, _, _, _, _ => rfl
  | fuel + 1, depth, deeper, t, hle, h => by
    unfold readItems at h ⊢
    refine bind_eq_of_not_tooDeep (readValue_of_le constants fuel hle) (fun (x, after) hrest => ?_) h
    simp only at hrest ⊢
    split
    next => rfl
    next hskip =>
      rw [hskip] at hrest
      exact bind_eq_of_not_tooDeep (readItems_of_le constants fuel hle) (fun _ _ => rfl) hrest
    next => rfl

theorem readMembers_of_le (constants : Bool) : ∀ (fuel : Nat) {depth deeper : Nat} {t : Text},
    depth ≤ deeper → readMembers constants fuel depth t ≠ .error .tooDeep →
    readMembers constants fuel deeper t = readMembers constants fuel depth t
  | 0, _, _, _, _, _ => rfl
  | fuel + 1, depth, deeper, t, hle, h => by
    unfold readMembers at h ⊢
    refine bind_eq_of_not_tooDeep (fun _ => rfl) (fun (name, behind) hmember => ?_) h
    refine bind_eq_of_not_tooDeep (readValue_of_le constants fuel hle) (fun (x, after) hrest => ?_) hmember
    simp only at hrest ⊢
    split
    next => rfl
    next hskip =>
      rw [hskip] at hrest
      exact bind_eq_of_not_tooDeep (readMembers_of_le constants fuel hle) (fun _ _ => rfl) hrest
    next => rfl

end

/-! ## Whole documents -/

theorem fits_of_readDocument {constants : Bool} {depth : Nat} {t : Text} {x : Tree}
    (h : readDocument constants depth t = .ok x) : x.Fits depth t.length := by
  obtain ⟨⟨y, rest⟩, hvalue, h⟩ := eq_ok_of_bind h
  have hfits := (readValue_fits constants _ hvalue).1.mono (length_skipSpace_le t)
  simp only at h
  split at h
  · cases h
    exact hfits
  · cases h

/-- **Read from a text.** A document is one that its text may have. -/
theorem fits_of_read {constants : Bool} {depth : Nat} {t : Text} {x : Tree}
    (h : Tree.read constants depth t = .ok x) : x.Fits depth t.length := by
  unfold Tree.read at h
  split at h
  · cases h
  · exact fits_of_readDocument (eq_ok_of_mapError h)

/-- **Read from bytes.** A document is one that some text may have. -/
theorem fits_of_readBytes {constants : Bool} {depth : Nat} {bytes : Bytes} {x : Tree}
    (h : Tree.readBytes constants depth bytes = .ok x) : ∃ size, x.Fits depth size := by
  obtain ⟨t, -, h⟩ := eq_ok_of_bind h
  exact ⟨t.length, fits_of_readDocument (eq_ok_of_mapError h)⟩

/-- **More levels change nothing.** A text that is not too deep with some levels of nesting is read in the
same way with more of them. -/
theorem readDocument_of_le {constants : Bool} {depth deeper : Nat} {t : Text} (hle : depth ≤ deeper)
    (h : readDocument constants depth t ≠ .error .tooDeep) :
    readDocument constants deeper t = readDocument constants depth t :=
  bind_eq_of_not_tooDeep (readValue_of_le constants _ hle) (fun _ _ => rfl) h

theorem read_of_le {constants : Bool} {depth deeper : Nat} {t : Text} {x : Tree} (hle : depth ≤ deeper)
    (h : Tree.read constants depth t = .ok x) : Tree.read constants deeper t = .ok x := by
  unfold Tree.read at h ⊢
  split at h
  next => cases h
  next =>
    have hread := eq_ok_of_mapError h
    rw [readDocument_of_le hle (by rw [hread]; nofun), hread]
    rfl

/-- **The same for bytes.** -/
theorem readBytes_of_le {constants : Bool} {depth deeper : Nat} {bytes : Bytes} (hle : depth ≤ deeper)
    (h : Tree.readBytes constants depth bytes ≠ .error .tooDeep) :
    Tree.readBytes constants deeper bytes = Tree.readBytes constants depth bytes := by
  unfold Tree.readBytes at h ⊢
  cases hdecode : decodeBytes bytes with
  | error e => rfl
  | ok t =>
    rw [hdecode] at h
    have hread : readDocument constants depth t ≠ .error .tooDeep := fun hdeep => h (by
      simp only [Except.mapError, bind, Except.bind, hdeep, Stop.toError])
    simp only [Except.mapError, bind, Except.bind, readDocument_of_le hle hread]

end Json
end LogQuery
