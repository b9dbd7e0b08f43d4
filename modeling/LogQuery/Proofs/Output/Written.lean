import LogQuery.Output.Decode
import LogQuery.Proofs.Json.Exact
/-!
# Written documents are decoded

A plain value is what JSON stands for without loss: null, booleans, integers of 64 bits, strings, lists and
maps with distinct string keys. Tagging it loses nothing (`IsPlain.exact`, `IsPlain.plain_ofValue`), so a
string that holds the JSON text of a plain list or map decodes to just that (`decodeString_write`).
-/
namespace LogQuery

open Tagged (Exact InRange)

variable {depth : Nat} {v : Value}

/-! ## Plain values -/

namespace Value

def isDocument : Value → Bool
  | list _ => true
  | map _ => true
  | _ => false

/-- A value of limited nesting that JSON has a form for: no floating-point numbers, integers of 64 bits,
no lone surrogates, and maps with distinct string keys. -/
inductive IsPlain : (depth : Nat) → Value → Prop
  | null {depth : Nat} : IsPlain depth null
  | bool {depth : Nat} (b : Bool) : IsPlain depth (bool b)
  | integer {depth : Nat} {n : Int} (h : InRange n) : IsPlain depth (integer n)
  | string {depth : Nat} {t : Text} (h : t.all CodePoint.isScalar = true) : IsPlain depth (string t)
  | list {depth : Nat} {items : List Value} (h : ∀ v ∈ items, IsPlain depth v) :
    IsPlain (depth + 1) (list items)
  | map {depth : Nat} {members : List (Text × Value)} (hnames : (members.map Prod.fst).Nodup)
    (hscalar : ∀ e ∈ members, e.1.all CodePoint.isScalar = true)
    (h : ∀ e ∈ members, IsPlain depth e.2) :
    IsPlain (depth + 1) (map (members.map fun e => (.string e.1, e.2)))

namespace IsPlain

theorem exact (h : v.IsPlain depth) : Exact depth (Tagged.ofValue v) := by
  induction h with
  | null => exact .null
  | bool b => exact .bool b
  | integer h => exact Tagged.exact_ofInteger h _
  | string h => exact .string h
  | list _ ih =>
    rw [Tagged.ofValue, Tagged.ofValues_eq_map]
    exact .list (List.forall_mem_map.mpr ih)
  | map hnames hscalar _ ih =>
    rw [Tagged.ofValue_members hnames]
    refine .map ?_ (List.forall_mem_map.mpr hscalar) (List.forall_mem_map.mpr ih)
    rw [List.map_map]
    exact hnames

theorem plain_ofValue (h : v.IsPlain depth) : (Tagged.ofValue v).plain = v := by
  induction h with
  | null | bool | string => rfl
  | integer h => exact Tagged.plain_ofInteger h
  | @list _ items _ ih =>
    rw [Tagged.ofValue, Tagged.ofValues_eq_map, Tagged.plain, Tagged.plainItems_eq_map, List.map_map]
    exact congrArg Value.list ((List.map_congr_left ih).trans (List.map_id items))
  | @map _ members hnames _ _ ih =>
    rw [Tagged.ofValue_members hnames, Tagged.plain, Tagged.plainMembers_eq_map, List.map_map]
    refine congrArg Value.map (List.map_congr_left fun e he => ?_)
    exact congrArg (Prod.mk (Scalar.string e.1)) (ih e he)

theorem decode_write (h : v.IsPlain depth) :
    Tagged.decode depth (Json.write .compact v) = .ok (Tagged.ofValue v) := by
  have hread := h.exact.decode_toText
  rw [Tagged.toText, h.plain_ofValue] at hread
  exact hread

theorem all_isScalar_write (h : v.IsPlain depth) :
    (Json.write .compact v).all CodePoint.isScalar = true := by
  have hunicode := h.exact.isUnicode
  rw [h.plain_ofValue] at hunicode
  exact Text.all_isScalar_of_isLegible
    ((Json.all_isLegible_write Json.Style.isPlain_compact v).trans hunicode)

end IsPlain

end Value

/-! ## Their JSON texts -/

theorem Json.bracketed_cons (s : Style) (level : Nat) (opening closing : Char) (items : List Text) :
    ∃ rest, bracketed s level opening closing items = .scalar opening :: rest := by
  cases items with
  | nil => exact ⟨_, rfl⟩
  | cons t items => exact ⟨_, rfl⟩

theorem jsonDocument?_of_decode {opening : Char} {rest : Text} {x : Tagged}
    (hopening : opening = '\x7b' ∨ opening = '[')
    (hread : Tagged.decode depth (.scalar opening :: rest) = .ok x) (hdoc : x.plain.isDocument = true) :
    jsonDocument? depth (.scalar opening :: rest) = some x.plain := by
  have hskip : (CodePoint.scalar opening :: rest).dropWhile CodePoint.isBlank
      = .scalar opening :: rest := by
    rcases hopening with rfl | rfl <;> rfl
  have hfirst : CodePoint.scalar opening = .scalar '\x7b' ∨ CodePoint.scalar opening = .scalar '[' :=
    hopening.imp (congrArg _) (congrArg _)
  simp only [jsonDocument?, hskip, if_pos hfirst, hread]
  cases x with
  | list items => rfl
  | map members => rfl
  | _ => cases hdoc

theorem jsonDocument?_write (h : v.IsPlain depth) (hdoc : v.isDocument = true) :
    jsonDocument? depth (Json.write .compact v) = some v := by
  obtain ⟨opening, rest, hopening, hwrite⟩ : ∃ opening rest, (opening = '\x7b' ∨ opening = '[') ∧
      Json.write .compact v = .scalar opening :: rest := by
    cases v with
    | list items =>
      obtain ⟨rest, hrest⟩ := Json.bracketed_cons .compact 0 '[' ']' (Json.writeItems .compact 1 items)
      exact ⟨'[', rest, Or.inr rfl, hrest⟩
    | map entries =>
      obtain ⟨rest, hrest⟩ :=
        Json.bracketed_cons .compact 0 '\x7b' '\x7d' (Json.writeEntries .compact 1 entries)
      exact ⟨'\x7b', rest, Or.inl rfl, hrest⟩
    | _ => cases hdoc
  have hread := h.decode_write
  rw [hwrite] at hread ⊢
  rw [← h.plain_ofValue] at hdoc
  rw [jsonDocument?_of_decode hopening hread hdoc, h.plain_ofValue]

theorem decodeString_write [Runtime] {targets : List Target} {frames : Nat} (hjson : .json ∈ targets)
    (h : v.IsPlain (Runtime.textDepth frames)) (hdoc : v.isDocument = true) :
    decodeString targets frames (Json.write .compact v) = .ok (some v) := by
  have hcontains : targets.contains .json = true := List.contains_iff_mem.mpr hjson
  simp only [decodeString, hcontains, if_true, jsonDocument?_write h hdoc]
  rfl

end LogQuery
