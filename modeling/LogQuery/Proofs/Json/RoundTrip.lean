import LogQuery.Proofs.Json.Exact
/-!
# Documents from outside come back

What is written of a document that was read is read as that document, with its tags, the order of its
members and the digits of its integers (`decode_encode`).

* `Tagged.at?`, `Tagged.put`: the places of a document. Tagging keeps them (`at?_ofTree`).
* `writeAt_put`: a place in a document has its own place in the written text, with the same text around
  it for every part that is put there.
-/
namespace LogQuery

open Json (Tree)

namespace Tagged

/-! ## Places -/

/-- The part of a document at a path: every step of the path is the place of an item or of a member. -/
def at? : List Nat → Tagged → Option Tagged
  | [], x => some x
  | i :: path, list items => items[i]?.bind (at? path)
  | i :: path, map members => members[i]?.bind fun e => at? path e.2
  | _ :: _, _ => none

/-- A document with another part at a path. -/
def put : List Nat → Tagged → Tagged → Tagged
  | [], y, _ => y
  | i :: path, y, list items => list (items.modify i (put path y))
  | i :: path, y, map members => map (members.modify i fun e => (e.1, put path y e.2))
  | _ :: _, _, x => x

end Tagged

/-- The part of a document at a path: every step of the path is the place of an item or of a member. -/
def Json.Tree.at? : List Nat → Tree → Option Tree
  | [], x => some x
  | i :: path, .list items => items[i]?.bind (at? path)
  | i :: path, .map members => members[i]?.bind fun e => at? path e.2
  | _ :: _, _ => none

namespace Tagged

theorem at?_ofTree : ∀ (path : List Nat) {tree part : Tree}, tree.at? path = some part →
    at? path (ofTree tree) = some (ofTree part)
  | [], _, _, h => by
    rw [Option.some.inj h]
    rfl
  | i :: path, .list items, part, h => by
    obtain ⟨x, hx, hpart⟩ := Option.bind_eq_some_iff.mp h
    rw [ofTree, ofTrees_eq_map, at?, List.getElem?_map, hx]
    exact at?_ofTree path hpart
  | i :: path, .map members, part, h => by
    obtain ⟨e, he, hpart⟩ := Option.bind_eq_some_iff.mp h
    rw [ofTree, ofTreeMembers_eq_map, at?, List.getElem?_map, he]
    exact at?_ofTree path hpart

theorem exists_modify_eq {α : Type} {row : List α} {i : Nat} {a : α} (h : row[i]? = some a) :
    ∃ front back, row = front ++ a :: back ∧ ∀ f : α → α, row.modify i f = front ++ f a :: back := by
  obtain ⟨hi, rfl⟩ := List.getElem?_eq_some_iff.mp h
  refine ⟨row.take i, row.drop (i + 1), ?_, fun f => List.modify_eq_take_cons_drop hi⟩
  rw [← List.drop_eq_getElem_cons hi, List.take_append_drop]

theorem put_of_at? : ∀ (path : List Nat) {x y : Tagged}, at? path x = some y → put path y x = x
  | [], _, _, h => (Option.some.inj h).symm
  | i :: path, list items, y, h => by
    obtain ⟨x, hx, hy⟩ := Option.bind_eq_some_iff.mp h
    obtain ⟨front, back, hitems, hmodify⟩ := exists_modify_eq hx
    rw [put, hmodify, put_of_at? path hy, ← hitems]
  | i :: path, map members, y, h => by
    obtain ⟨e, he, hy⟩ := Option.bind_eq_some_iff.mp h
    obtain ⟨front, back, hmembers, hmodify⟩ := exists_modify_eq he
    rw [put, hmodify, put_of_at? path hy, ← hmembers]

theorem Exact.put {part : Tagged} (hpart : ∀ depth, Exact depth part) : ∀ (path : List Nat)
    {depth : Nat} {x y : Tagged}, Exact depth x → at? path x = some y → Exact depth (put path part x)
  | [], depth, _, _, _, _ => hpart depth
  | i :: path, _, .list items, _, .list h, hat => by
    obtain ⟨x, hx, hy⟩ := Option.bind_eq_some_iff.mp hat
    obtain ⟨front, back, rfl, hmodify⟩ := exists_modify_eq hx
    rw [Tagged.put, hmodify]
    obtain ⟨hfront, hrest⟩ := List.forall_mem_append.mp h
    obtain ⟨hx, hback⟩ := List.forall_mem_cons.mp hrest
    exact .list (List.forall_mem_append.mpr
      ⟨hfront, List.forall_mem_cons.mpr ⟨Exact.put hpart path hx hy, hback⟩⟩)
  | i :: path, _, .map members, _, .map hnames hscalar h, hat => by
    obtain ⟨e, he, hy⟩ := Option.bind_eq_some_iff.mp hat
    obtain ⟨front, back, rfl, hmodify⟩ := exists_modify_eq he
    rw [Tagged.put, hmodify]
    obtain ⟨hfront, hrest⟩ := List.forall_mem_append.mp h
    obtain ⟨he, hback⟩ := List.forall_mem_cons.mp hrest
    refine .map ?_ ?_ (List.forall_mem_append.mpr
      ⟨hfront, List.forall_mem_cons.mpr ⟨Exact.put hpart path he hy, hback⟩⟩)
    · simpa using hnames
    · simp only [List.forall_mem_append, List.forall_mem_cons] at hscalar ⊢
      exact hscalar

end Tagged

/-! ## Places in written documents -/

namespace Json

theorem join_place (sep : Text) (front back : List Text) :
    ∃ before after, ∀ t, Text.join sep (front ++ t :: back) = before ++ t ++ after := by
  induction front with
  | nil =>
    cases back with
    | nil => exact ⟨[], [], fun t => by simp [Text.join, List.intercalate_singleton]⟩
    | cons u back =>
      refine ⟨[], sep ++ Text.join sep (u :: back), fun t => ?_⟩
      simp [Text.join, List.intercalate_cons_cons]
  | cons u front ih =>
    obtain ⟨before, after, hjoin⟩ := ih
    refine ⟨u ++ sep ++ before, after, fun t => ?_⟩
    have hne : front ++ t :: back ≠ [] := by simp
    rw [List.cons_append, Text.join, List.intercalate_cons_of_ne_nil hne, ← Text.join, hjoin]
    simp only [List.append_assoc]

theorem bracketed_place (s : Style) (level : Nat) (opening closing : Char) (front back : List Text) :
    ∃ before after, ∀ t, bracketed s level opening closing (front ++ t :: back)
      = before ++ t ++ after := by
  obtain ⟨before, after, hjoin⟩ := join_place (s.separator (level + 1)) front back
  refine ⟨.scalar opening :: (s.lineBreak (level + 1) ++ before),
    after ++ (s.lineBreak level ++ [.scalar closing]), fun t => ?_⟩
  have hne : front ++ t :: back ≠ [] := by simp
  rw [← List.append_nil (bracketed _ _ _ _ _), bracketed_append level opening closing hne, hjoin]
  simp

end Json

namespace Tagged

/-- **A place in a document is a place in its text**, with the same text around it for every part that
is put there. -/
theorem writeAt_put (s : Json.Style) : ∀ (path : List Nat) (level : Nat) {x y : Tagged},
    at? path x = some y → ∃ inner before after, ∀ part : Tagged,
      Json.writeAt s level (put path part x).plain = before ++ Json.writeAt s inner part.plain ++ after
  | [], level, _, _, _ => ⟨level, [], [], fun part => by simp [put]⟩
  | i :: path, level, list items, _, hat => by
    obtain ⟨x, hx, hy⟩ := Option.bind_eq_some_iff.mp hat
    obtain ⟨front, back, rfl, hmodify⟩ := exists_modify_eq hx
    obtain ⟨inner, before, after, hx⟩ := writeAt_put s path (level + 1) hy
    obtain ⟨before', after', hplace⟩ := Json.bracketed_place s level '[' ']'
      (front.map fun x => Json.writeAt s (level + 1) x.plain)
      (back.map fun x => Json.writeAt s (level + 1) x.plain)
    refine ⟨inner, before' ++ before, after ++ after', fun part => ?_⟩
    rw [put, hmodify, plain, plainItems_eq_map, Json.writeAt, Json.writeItems_eq_map, List.map_map,
      List.map_append, List.map_cons]
    simp only [Function.comp_def]
    rw [hplace, hx]
    simp only [List.append_assoc]
  | i :: path, level, map members, _, hat => by
    obtain ⟨e, he, hy⟩ := Option.bind_eq_some_iff.mp hat
    obtain ⟨front, back, rfl, hmodify⟩ := exists_modify_eq he
    obtain ⟨inner, before, after, hx⟩ := writeAt_put s path (level + 1) hy
    obtain ⟨before', after', hplace⟩ := Json.bracketed_place s level '{' '}'
      (front.map fun e => Json.member s e.1 (Json.writeAt s (level + 1) e.2.plain))
      (back.map fun e => Json.member s e.1 (Json.writeAt s (level + 1) e.2.plain))
    refine ⟨inner, before' ++ (Json.writeString s.ascii e.1 ++ .scalar ':' :: s.afterColon) ++ before,
      after ++ after', fun part => ?_⟩
    rw [put, hmodify, plain, plainMembers_eq_map, Json.writeAt, Json.writeEntries_eq_map,
      List.map_map, List.map_append, List.map_cons]
    simp only [Function.comp_def, Json.nameOfKey]
    rw [hplace, hx, Json.member]
    simp only [List.append_assoc, List.cons_append]

theorem toText_put {path : List Nat} {x y : Tagged} (h : at? path x = some y) :
    ∃ before after, ∀ n, InRange n →
      (put path (ofInteger n) x).toText = before ++ Text.ofInt n ++ after := by
  obtain ⟨inner, before, after, hplace⟩ := writeAt_put .compact path 0 h
  refine ⟨before, after, fun n hn => ?_⟩
  rw [toText, Json.write, hplace, plain_ofInteger hn]
  rfl

end Tagged

/-! ## Documents from outside -/

/-- What a document is read from. -/
inductive Json.Input where
  | text (t : Text)
  | bytes (b : Bytes)

namespace Json.Input

/-- The document with its literals. -/
def tree (depth : Nat) : Input → Except Json.Error Tree
  | text t => Tree.read false depth t
  | bytes b => Tree.readBytes false depth b

/-- The document with its tags. -/
def decode (depth : Nat) : Input → Except Json.Error Tagged
  | text t => Tagged.decode depth t
  | bytes b => Tagged.decodeBytes depth b

theorem decode_eq {depth : Nat} : ∀ input : Input,
    input.decode depth = (input.tree depth).map Tagged.ofTree
  | text _ => rfl
  | bytes _ => rfl

theorem fits {depth : Nat} : ∀ {input : Json.Input} {x : Tree}, input.tree depth = .ok x →
    ∃ size, x.Fits depth size
  | text t, _, h => ⟨t.length, Json.fits_of_read h⟩
  | bytes _, _, h => Json.fits_of_readBytes h

end Json.Input

namespace Tagged

theorem exact_of_decode {depth : Nat} {input : Json.Input} {x : Tagged}
    (h : input.decode depth = .ok x) (hl : x.isLossless = true) : Exact depth x := by
  rw [Json.Input.decode_eq] at h
  obtain ⟨tree, htree, rfl⟩ := eq_ok_of_map h
  obtain ⟨size, hfits⟩ := Json.Input.fits htree
  exact exact_of_fits hfits hl

theorem isNumeral_at? {literal : Text} : ∀ (path : List Nat) {depth size : Nat} {tree : Tree},
    tree.Fits depth size → tree.at? path = some (.integer literal) → Json.IsNumeral literal
  | [], _, _, _, hfits, hat => by
    cases Option.some.inj hat
    cases hfits with
    | integer h => exact h
  | i :: path, _, _, .list items, .list h, hat => by
    obtain ⟨x, hx, hliteral⟩ := Option.bind_eq_some_iff.mp hat
    exact isNumeral_at? path (h x (List.mem_of_getElem? hx)) hliteral
  | i :: path, _, _, .map members, .map _ h, hat => by
    obtain ⟨e, he, hliteral⟩ := Option.bind_eq_some_iff.mp hat
    exact isNumeral_at? path (h e (List.mem_of_getElem? he)) hliteral

theorem natAbs_le_maxSafeInteger_iff {n : Int} :
    n.natAbs ≤ maxSafeInteger ↔ n.natAbs ≤ 2 ^ 53 := by
  rw [show maxSafeInteger = ((2 ^ 53 : Nat) : Int) from rfl, Int.ofNat_le]

theorem at?_decode {depth : Nat} {input : Json.Input} {x : Tagged} (h : input.decode depth = .ok x)
    {tree : Tree} (htree : input.tree depth = .ok tree) {path : List Nat} {literal : Text}
    (hat : tree.at? path = some (.integer literal)) :
    at? path x = some (ofInteger (Json.integerOf literal)) := by
  rw [Json.Input.decode_eq, htree] at h
  cases h
  obtain ⟨size, hfits⟩ := Json.Input.fits htree
  rw [at?_ofTree path hat, ofTree, ofLiteral_eq (isNumeral_at? path hfits hat)]

/-- **Lossless but for floats.** Whatever is read without floating-point numbers and lone surrogates can be
written, the bytes are read as the same document, and that has the same bytes again. And in every document
that is read, an integer of 64 bits is tagged by its magnitude wherever it stands, and written with its
digits: around its place the written text is the same whichever integer is put there. -/
theorem decode_encode {depth : Nat} {input : Json.Input} {x : Tagged} (h : input.decode depth = .ok x) :
    (x.isLossless = true → ∃ bytes, x.encode? = some bytes ∧ decodeBytes depth bytes = .ok x ∧
      (decodeBytes depth bytes).map encode? = .ok (some bytes)) ∧
    ∀ {tree : Tree} {path : List Nat} {literal : Text} {n : Int}, input.tree depth = .ok tree →
      tree.at? path = some (.integer literal) → Json.integerOf literal = n →
      -2 ^ 63 ≤ n → n ≤ 2 ^ 64 - 1 →
      at? path x = some (if n.natAbs ≤ 2 ^ 53 then .integer n else .bigInteger (Text.ofInt n)) ∧
      ∃ before after, x.encode? = Utf8.encode? (before ++ Text.ofInt n ++ after) ∧
        ∀ m : Int, -2 ^ 63 ≤ m → m ≤ 2 ^ 64 - 1 →
          (put path (ofInteger m) x).toText = before ++ Text.ofInt m ++ after ∧
          (x.isLossless = true →
            decode depth (before ++ Text.ofInt m ++ after) = .ok (put path (ofInteger m) x)) := by
  constructor
  · intro hl
    obtain ⟨bytes, hbytes, hread⟩ := (exact_of_decode h hl).readBytes
    refine ⟨bytes, hbytes, hread, ?_⟩
    rw [hread, ← hbytes]
    rfl
  · rintro tree path literal n htree hat rfl hmin hmax
    have hn : InRange (Json.integerOf literal) := inRange_iff.mpr ⟨hmin, hmax⟩
    have hplace := at?_decode h htree hat
    obtain ⟨before, after, htext⟩ := toText_put hplace
    refine ⟨?_, before, after, ?_, fun m hmin hmax => ?_⟩
    · simp only [hplace, ofInteger_eq hn, natAbs_le_maxSafeInteger_iff]
    · rw [← htext _ hn, put_of_at? path hplace]
      rfl
    · have hm : InRange m := inRange_iff.mpr ⟨hmin, hmax⟩
      refine ⟨htext m hm, fun hl => ?_⟩
      rw [← htext m hm]
      exact ((exact_of_decode h hl).put (exact_ofInteger hm) path hplace).decode_toText

/-- A record with an identifier beyond the floating-point numbers, in a list. -/
def identified : Value := .list [.map [(.string "id", .integer 9007199254740993)], .integer 0]

/-- The identifier is kept, with its digits. -/
theorem decode_encode_identified :
    ∃ x, (Json.Input.text "[\x7b\"id\":9007199254740993\x7d,0]").decode 2 = .ok x ∧
      (∃ bytes, x.encode? = some bytes ∧ decodeBytes 2 bytes = .ok x ∧
        (decodeBytes 2 bytes).map encode? = .ok (some bytes)) ∧
      at? [0, 0] x = some (.bigInteger "9007199254740993") ∧ at? [1] x = some (.integer 0) := by
  have htext : Json.write .compact identified = "[\x7b\"id\":9007199254740993\x7d,0]" := by
    decide +kernel
  have htree : (Json.Input.text "[\x7b\"id\":9007199254740993\x7d,0]").tree 2
      = .ok (Tree.ofValue identified) := by
    rw [← htext]
    have hshort : Json.refusal? identified = none := by decide +kernel
    have hflat : identified.readsBack 2 = true := by decide +kernel
    exact Json.read_write Json.Style.isPlain_compact false hshort hflat
  have h : (Json.Input.text "[\x7b\"id\":9007199254740993\x7d,0]").decode 2
      = .ok (ofTree (Tree.ofValue identified)) := by
    rw [Json.Input.decode_eq, htree]
    rfl
  obtain ⟨hlossless, hplaces⟩ := decode_encode h
  have hid := @hplaces _ [0, 0] _ _ htree rfl (Json.integerOf_ofInt 9007199254740993)
    (by decide) (by decide)
  have hzero := @hplaces _ [1] _ _ htree rfl (Json.integerOf_ofInt 0) (by decide) (by decide)
  have hdigits : Text.ofInt 9007199254740993 = "9007199254740993" := by decide +kernel
  refine ⟨_, h, hlossless (by decide +kernel), ?_, ?_⟩
  · rw [hid.1, if_neg (by decide), hdigits]
  · rw [hzero.1, if_pos (by decide)]

end Tagged
end LogQuery
