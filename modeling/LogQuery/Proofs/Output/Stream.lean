import LogQuery.Proofs.Json.PlainTags
import LogQuery.Proofs.Output.Printed
import LogQuery.Proofs.Search.Received
import LogQuery.Proofs.Text.Split
import LogQuery.Runtime.Standard
/-!
# The stream of records can be taken apart

Records are shown one behind the other without anything between them, each as a document of several
lines. A document ends with a line that is a closing brace or an empty map and nothing else, and no other
line of it is like that: inside of a document every line is indented, and the strings in it have no line
feeds of their own once they are written. So whoever gets the stream can cut it behind these lines.

* `documents`: the pieces of a text that is cut in this way, and what is left behind them.
* `Value.IsPrintable`: the values that are read as they were written.
* `hangs_writeAt`: every line of a value inside of a record is indented, by induction on the value.
* `documents_shown`: a record in front of a text is the first piece of it.
* `render_splits`: all records come back, in their order.
-/
namespace LogQuery

open Json (Tree)

/-! ## Cutting a text -/

def endsDocument (line : Text) : Bool := line = "\x7d" ∨ line = "\x7b\x7d"

/-- The documents in some lines, and what is left behind the last of them. The last line is the one that
has no line feed. -/
def cutLines : (document : Text) → (lines : List Text) → List Text × Text
  | document, [] => ([], document)
  | document, [rest] => ([], document ++ rest)
  | document, line :: next :: lines =>
    if endsDocument line then
      let (documents, rest) := cutLines [] (next :: lines)
      ((document ++ line ++ [.scalar '\n']) :: documents, rest)
    else cutLines (document ++ line ++ [.scalar '\n']) (next :: lines)

/-- The documents in a text, and what is left behind the last of them. -/
def documents (t : Text) : List Text × Text := cutLines [] (t.splitOn (.scalar '\n'))

theorem cutLines_append : ∀ {lines more : List Text} (document : Text),
    (∀ line ∈ lines, endsDocument line = false) → more ≠ [] →
    cutLines document (lines ++ more) = cutLines (document ++ lines.flatMap (· ++ [.scalar '\n'])) more
  | [], more, document, _, _ => by simp
  | line :: lines, more, document, h, hmore => by
    rw [List.forall_mem_cons] at h
    obtain ⟨next, rest, hrest⟩ := List.exists_cons_of_ne_nil (l := lines ++ more) (by simp [hmore])
    rw [List.cons_append, hrest, cutLines, h.1, ← hrest]
    simp only [Bool.false_eq_true, if_false]
    rw [cutLines_append _ h.2 hmore, List.flatMap_cons]
    simp only [List.append_assoc]

theorem cutLines_end {line : Text} (h : endsDocument line = true) (document : Text) {more : List Text}
    (hmore : more ≠ []) :
    cutLines document (line :: more)
      = ((document ++ line ++ [.scalar '\n']) :: (cutLines [] more).1, (cutLines [] more).2) := by
  obtain ⟨next, rest, rfl⟩ := List.exists_cons_of_ne_nil hmore
  rw [cutLines, if_pos h]

theorem flatten_cutLines : ∀ (document : Text) (lines : List Text), lines ≠ [] →
    (cutLines document lines).1.flatten ++ (cutLines document lines).2 ++ [.scalar '\n']
      = document ++ lines.flatMap (· ++ [.scalar '\n'])
  | document, [rest], _ => by simp [cutLines]
  | document, line :: next :: lines, _ => by
    rw [cutLines]
    split
    · have ih := flatten_cutLines [] (next :: lines) (List.cons_ne_nil _ _)
      simp only [List.flatten_cons, List.append_assoc, List.nil_append, List.flatMap_cons] at ih ⊢
      rw [ih]
    · have ih :=
      flatten_cutLines (document ++ line ++ [.scalar '\n']) (next :: lines) (List.cons_ne_nil _ _)
      rw [ih]
      simp only [List.flatMap_cons, List.append_assoc]

theorem flatten_documents (t : Text) : (documents t).1.flatten ++ (documents t).2 = t := by
  have h := flatten_cutLines [] (t.splitOn (.scalar '\n')) (Text.splitOn_ne_nil _ t)
  rw [List.nil_append] at h
  exact List.append_cancel_right (h.trans (Text.flatMap_splitOn (.scalar '\n') t))

/-! ## Values that are read as they were written -/

namespace Value

/-- A value of limited nesting that is read as it was written: no floating-point numbers, integers that
have few enough digits, no lone surrogates, and maps with distinct string keys. -/
inductive IsPrintable : (depth : Nat) → Value → Prop
  | null {depth : Nat} : IsPrintable depth null
  | bool {depth : Nat} (b : Bool) : IsPrintable depth (bool b)
  | integer {depth : Nat} {n : Int} (h : Integer.isWritable n = true) : IsPrintable depth (integer n)
  | string {depth : Nat} {t : Text} (h : t.all CodePoint.isScalar = true) : IsPrintable depth (string t)
  | list {depth : Nat} {items : List Value} (h : ∀ v ∈ items, IsPrintable depth v) :
    IsPrintable (depth + 1) (list items)
  | map {depth : Nat} {members : List (Text × Value)} (hnames : (members.map Prod.fst).Nodup)
    (hscalar : ∀ e ∈ members, e.1.all CodePoint.isScalar = true)
    (h : ∀ e ∈ members, IsPrintable depth e.2) :
    IsPrintable (depth + 1) (ofMembers members)

namespace IsPrintable

variable {depth : Nat} {v : Value}

theorem refusal?_eq_none (h : v.IsPrintable depth) : Json.refusal? v = none := by
  induction h with
  | null | bool | string => rfl
  | integer h => rw [Json.refusal?_integer, if_pos h]
  | list _ ih =>
    rw [Json.refusal?_list, List.findSome?_eq_none_iff]
    exact ih
  | map _ _ _ ih =>
    rw [Json.refusal?_ofMembers, List.findSome?_eq_none_iff]
    exact ih

theorem readsBack (h : v.IsPrintable depth) : v.readsBack depth = true := by
  induction h with
  | null | bool | integer | string => simp only [Value.readsBack]
  | list _ ih =>
    rw [readsBack_list, List.all_eq_true]
    exact ih
  | map _ _ _ ih =>
    rw [readsBack_ofMembers, List.all_eq_true]
    exact ih

theorem isUnicode (h : v.IsPrintable depth) : v.isUnicode = true := by
  induction h with
  | null => rfl
  | bool b => cases b <;> rfl
  | integer => exact isUnicode_integer _
  | string h => exact h
  | list _ ih =>
    rw [isUnicode_list, List.all_eq_true]
    exact ih
  | map _ hscalar _ ih =>
    rw [isUnicode_ofMembers, List.all_eq_true]
    exact fun e he => (Bool.and_eq_true _ _).mpr ⟨hscalar e he, ih e he⟩

/-- A value can be written where there are as many levels of nesting as it has, or more. -/
theorem refusalWithin?_eq_none {levels : Nat} (h : v.IsPrintable depth) (hle : depth ≤ levels) :
    Json.refusalWithin? (some levels) v = none :=
  Json.refusalWithin?_of_le hle
    (Json.refusalWithin?_of_isReadable (isReadable_of_readsBack true h.readsBack) h.refusal?_eq_none)

theorem toValue_ofValue (h : v.IsPrintable depth) : (Tree.ofValue v).toValue = v := by
  induction h with
  | null | bool | string => rfl
  | @integer _ n => exact congrArg Value.integer (Json.integerOf_ofInt n)
  | @list _ items _ ih =>
    rw [Tree.ofValue, Tree.ofValues_eq_map, Tree.toValue, Tree.itemValues_eq_map, List.map_map]
    exact congrArg Value.list ((List.map_congr_left ih).trans (List.map_id items))
  | @map _ members hnames _ _ ih =>
    rw [ofMembers, Tree.ofValue, Tree.ofEntries_eq_map, List.map_map,
      Text.ofPairs_of_nodup (by rw [List.map_map]; exact hnames), Tree.toValue,
      Tree.memberValues_eq_map, List.map_map]
    refine congrArg Value.map (List.map_congr_left fun e he => ?_)
    exact congrArg (Prod.mk (Scalar.string e.1)) (ih e he)

theorem parse_write_append (h : v.IsPrintable depth) {blank : Text}
    (hb : blank.all Json.isSpace = true) : Json.parse depth (Json.write .indented v ++ blank) = .ok v := by
  rw [Json.parse, Json.read_write_append Json.Style.isPlain_indented true h.refusal?_eq_none h.readsBack hb]
  exact congrArg Except.ok h.toValue_ofValue

end IsPrintable

end Value

/-! ## The lines of a record -/

/-- Whether every line of a text but the first is indented. -/
def hangs : Text → Bool
  | [] => true
  | p :: rest => (p != .scalar '\n' || rest.head? == some (.scalar ' ')) && hangs rest

theorem hangs_append : ∀ {t u : Text}, hangs t = true → hangs u = true → hangs (t ++ u) = true
  | [], _, _, hu => hu
  | p :: t, u, ht, hu => by
    rw [hangs, Bool.and_eq_true, Bool.or_eq_true, beq_iff_eq] at ht
    rw [List.cons_append, hangs, Bool.and_eq_true, Bool.or_eq_true, beq_iff_eq]
    refine ⟨ht.1.imp_right fun hblank => ?_, hangs_append ht.2 hu⟩
    rw [List.head?_append, hblank]
    rfl

theorem hangs_of_not_mem : ∀ {t : Text}, .scalar '\n' ∉ t → hangs t = true
  | [], _ => rfl
  | p :: t, h => by
    rw [List.mem_cons, not_or] at h
    rw [hangs, bne_iff_ne.mpr (Ne.symm h.1), hangs_of_not_mem h.2]
    rfl

/-- The lines of a text behind the first begin with blanks if every line feed has one behind it. -/
theorem head?_of_mem_tail : ∀ {t : Text}, hangs t = true →
    ∀ line ∈ (t.splitOn (.scalar '\n')).tail, line.head? = some (.scalar ' ')
  | [], _, line, hline => by cases hline
  | p :: t, h, line, hline => by
    rw [hangs, Bool.and_eq_true, Bool.or_eq_true, beq_iff_eq, bne_iff_ne] at h
    have ih := head?_of_mem_tail h.2
    obtain ⟨first, lines, hlines⟩ :=
      List.exists_cons_of_ne_nil (Text.splitOn_ne_nil (.scalar '\n') t)
    rw [hlines, List.tail_cons] at ih
    by_cases hp : p = .scalar '\n'
    · have hblank := h.1.resolve_left (fun hne => hne hp)
      rw [hp, Text.splitOn_cons_sep, List.tail_cons, hlines, List.mem_cons] at hline
      rcases hline with rfl | hline
      · exact Text.head?_splitOn hlines (by decide) hblank
      · exact ih line hline
    · rw [Text.splitOn_cons hp hlines, List.tail_cons] at hline
      exact ih line hline

theorem hangs_blanks (n : Nat) : hangs (List.replicate n (.scalar ' ')) = true :=
  hangs_of_not_mem fun h => absurd (List.eq_of_mem_replicate h) (by decide)

namespace Json

theorem lineFeed_notMem_escape (p : CodePoint) : .scalar '\n' ∉ escape false p := by
  unfold escape
  split <;> try decide
  simp only [Bool.false_and, Bool.or_false, decide_eq_true_eq]
  split
  next hcontrol =>
    have key : ∀ n : Fin 0x20, .scalar '\n' ∉ unicodeEscapes n.val := by decide +kernel
    exact key ⟨p.code, hcontrol⟩
  next hplain =>
    rw [List.mem_singleton]
    rintro rfl
    exact hplain (by decide)

theorem hangs_writeString (t : Text) : hangs (writeString false t) = true := by
  refine hangs_of_not_mem fun h => ?_
  rw [writeString, List.mem_cons, List.mem_append, List.mem_singleton, List.mem_flatMap] at h
  rcases h with h | ⟨p, -, hp⟩ | h
  · cases h
  · exact lineFeed_notMem_escape p hp
  · cases h

theorem hangs_ofInt (n : Int) : hangs (Text.ofInt n) = true := by
  have hdigits : .scalar '\n' ∉ Text.ofNat n.natAbs := fun h =>
    absurd (Text.isAsciiDigit_of_mem_ofNat h) (by decide)
  refine hangs_of_not_mem ?_
  unfold Text.ofInt
  split
  · rw [List.mem_cons, not_or]
    exact ⟨by decide, hdigits⟩
  · exact hdigits

theorem hangs_lineBreak (level : Nat) : hangs (Style.indented.lineBreak (level + 1)) = true := by
  have hbreak : Style.indented.lineBreak (level + 1)
      = .scalar '\n' :: .scalar ' ' :: List.replicate (2 * level + 1) (.scalar ' ') := rfl
  rw [hbreak, hangs, hangs, hangs_blanks]
  rfl

theorem hangs_join (level : Nat) : ∀ {items : List Text}, (∀ t ∈ items, hangs t = true) →
    hangs (Text.join (Style.indented.separator (level + 1)) items) = true
  | [], _ => rfl
  | [t], h => by
    rw [join_singleton]
    exact h t List.mem_cons_self
  | t :: u :: items, h => by
    obtain ⟨ht, hrest⟩ := List.forall_mem_cons.mp h
    have hsep : hangs (Style.indented.separator (level + 1)) = true := hangs_lineBreak level
    rw [Text.join, List.intercalate_cons_cons]
    exact hangs_append (hangs_append ht hsep) (hangs_join level hrest)

theorem hangs_bracketed (level : Nat) {opening closing : Char} (ho : opening ≠ '\n') (hc : closing ≠ '\n')
    {items : List Text} (h : ∀ t ∈ items, hangs t = true) :
    hangs (bracketed .indented (level + 1) opening closing items) = true := by
  have hbracket : ∀ {c : Char}, c ≠ '\n' → hangs [.scalar c] = true := fun hne =>
    hangs_of_not_mem (by simpa using Ne.symm hne)
  cases items with
  | nil => exact hangs_append (hbracket ho) (hbracket hc)
  | cons t items =>
    have hitems := hangs_append (hangs_join (level + 1) h)
      (hangs_append (hangs_lineBreak level) (hbracket hc))
    exact hangs_append (hbracket ho) (hangs_append (hangs_lineBreak (level + 1)) hitems)

theorem hangs_member (name : Text) {value : Text} (h : hangs value = true) :
    hangs (member .indented name value) = true :=
  hangs_append (hangs_writeString name) (hangs_append (t := [.scalar ':', .scalar ' ']) rfl h)

end Json

/-- **Inside of a record** every line of a value but the first is indented. -/
theorem Value.IsPrintable.hangs_writeAt {v : Value} {depth : Nat} (h : v.IsPrintable depth) :
    ∀ level : Nat, hangs (Json.writeAt .indented (level + 1) v) = true := by
  induction h with
  | null => exact fun _ => rfl
  | bool b => cases b <;> exact fun _ => rfl
  | integer => exact fun _ => Json.hangs_ofInt _
  | string => exact fun _ => Json.hangs_writeString _
  | list _ ih =>
    intro level
    rw [Json.writeAt, Json.writeItems_eq_map]
    refine Json.hangs_bracketed level (by decide) (by decide) (List.forall_mem_map.mpr fun v hv => ?_)
    exact ih v hv (level + 1)
  | map _ _ _ ih =>
    intro level
    rw [Value.ofMembers, Json.writeAt, Json.writeEntries_eq_map, List.map_map]
    refine Json.hangs_bracketed level (by decide) (by decide) (List.forall_mem_map.mpr fun e he => ?_)
    exact Json.hangs_member _ (ih e he (level + 1))

/-! ## Cutting the stream -/

theorem endsDocument_of_head? {line : Text} (h : line.head? = some (.scalar ' ')) :
    endsDocument line = false := by
  refine Bool.eq_false_iff.mpr fun hends => ?_
  rw [endsDocument, decide_eq_true_eq] at hends
  rcases hends with rfl | rfl <;> cases h

theorem exists_members {depth : Nat} {r : Record} (h : (Value.map r).IsPrintable depth) :
    ∃ members : List (Text × Value), r = members.map (fun e => (.string e.1, e.2)) ∧
      ∀ e ∈ members, ∃ depth, e.2.IsPrintable depth := by
  generalize hv : Value.map r = v at h
  cases h with
  | map _ _ hmembers => exact ⟨_, Value.map.inj hv, fun e he => ⟨_, hmembers e he⟩⟩
  | _ => cases hv

/-- A record with fields is written between its braces, in lines that begin with blanks. -/
theorem exists_body {depth : Nat} {r : Record} (h : (Value.map r).IsPrintable depth) (hne : r ≠ []) :
    ∃ body : Text, hangs body = true ∧ body.head? = some (.scalar ' ') ∧
      r.shown = [.scalar '\x7b'] ++ .scalar '\n'
        :: (body ++ .scalar '\n' :: ([.scalar '\x7d'] ++ [.scalar '\n'])) := by
  obtain ⟨members, rfl, hmembers⟩ := exists_members h
  have hitems : ∀ t ∈ Json.writeEntries .indented 1 (members.map fun e => (.string e.1, e.2)),
      hangs t = true := by
    rw [Json.writeEntries_eq_map, List.map_map]
    refine List.forall_mem_map.mpr fun e he => ?_
    obtain ⟨depth, hvalue⟩ := hmembers e he
    exact Json.hangs_member _ (hvalue.hangs_writeAt 0)
  refine ⟨[.scalar ' ', .scalar ' '] ++ Text.join (Json.Style.indented.separator 1)
    (Json.writeEntries .indented 1 (members.map fun e => (.string e.1, e.2))), ?_, rfl, ?_⟩
  · exact hangs_append (hangs_blanks 2) (Json.hangs_join 0 hitems)
  · rw [Record.shown, Json.write, Json.writeAt,
      Json.bracketed_append 0 _ _ (Json.writeEntries_ne_nil 1 hne), List.append_assoc]
    rfl

/-- **A record in front of a text** is the first of its documents. -/
theorem documents_shown {depth : Nat} {r : Record} (h : (Value.map r).IsPrintable depth) (rest : Text) :
    documents (r.shown ++ rest) = (r.shown :: (documents rest).1, (documents rest).2) := by
  have hrest := Text.splitOn_ne_nil (.scalar '\n') rest
  by_cases hne : r = []
  · have hempty : r.shown ++ rest = "\x7b\x7d" ++ .scalar '\n' :: rest := by
      rw [hne]
      rfl
    rw [documents, hempty, Text.splitOn_append_sep, Text.splitOn_of_not_mem (by decide),
      List.singleton_append, cutLines_end (by decide) [] hrest, hne]
    rfl
  · obtain ⟨body, hhangs, hblank, hshown⟩ := exists_body h hne
    have hlines : ∀ line ∈ [.scalar '\x7b'] :: body.splitOn (.scalar '\n'), endsDocument line = false := by
      obtain ⟨first, lines, hsplit⟩ := List.exists_cons_of_ne_nil (Text.splitOn_ne_nil (.scalar '\n') body)
      have htail := head?_of_mem_tail hhangs
      rw [hsplit] at htail ⊢
      rw [List.forall_mem_cons, List.forall_mem_cons]
      exact ⟨by decide, endsDocument_of_head? (Text.head?_splitOn hsplit (by decide) hblank),
        fun line hline => endsDocument_of_head? (htail line hline)⟩
    have hsplit : (r.shown ++ rest).splitOn (.scalar '\n')
        = ([.scalar '\x7b'] :: body.splitOn (.scalar '\n'))
          ++ [.scalar '\x7d'] :: rest.splitOn (.scalar '\n') := by
      have happend : r.shown ++ rest = [.scalar '\x7b'] ++ .scalar '\n'
          :: (body ++ .scalar '\n' :: ([.scalar '\x7d'] ++ .scalar '\n' :: rest)) := by
        simp only [hshown, List.append_assoc, List.cons_append, List.nil_append]
      rw [happend, Text.splitOn_append_sep, Text.splitOn_append_sep, Text.splitOn_append_sep]
      rfl
    rw [documents, hsplit, cutLines_append [] hlines (List.cons_ne_nil _ _),
      cutLines_end (by decide) _ hrest, List.flatMap_cons, Text.flatMap_splitOn, hshown]
    simp only [List.append_assoc, List.cons_append, List.nil_append]
    rfl

theorem documents_stream {depth : Nat} : ∀ {records : List Record},
    (∀ r ∈ records, (Value.map r).IsPrintable depth) →
    documents (records.flatMap Record.shown) = (records.map Record.shown, [])
  | [], _ => rfl
  | r :: records, h => by
    obtain ⟨hr, hrest⟩ := List.forall_mem_cons.mp h
    rw [List.flatMap_cons, documents_shown hr, documents_stream hrest]
    rfl

theorem parse_shown {depth : Nat} {r : Record} (h : (Value.map r).IsPrintable depth) :
    Json.parse depth r.shown = .ok (.map r) :=
  h.parse_write_append (show [CodePoint.scalar '\n'].all Json.isSpace = true from rfl)

theorem exists_encode_shown {depth : Nat} {records : List Record}
    (h : ∀ r ∈ records, (Value.map r).IsPrintable depth) :
    ∃ bytes, Utf8.encode? (records.flatMap Record.shown) = some bytes := by
  rw [Utf8.exists_encode_iff, List.all_flatMap, List.all_eq_true]
  intro r hr
  rw [Record.shown, List.all_append, Utf8.exists_encode_iff.mp
    ((Json.exists_encode_write_iff Json.Style.isPlain_indented _).mpr (h r hr).isUnicode)]
  rfl

section
variable [Runtime] {p : Profile} (hp : p.IsPlain) {depth : Nat}
  (hdepth : depth ≤ Runtime.writeDepth Runtime.frames) {records : List Record}
  (h : ∀ r ∈ records, (Value.map r).IsPrintable depth)
include hp hdepth h

theorem render_eq_ok_iff {bytes : Bytes} :
    render p records = .ok bytes ↔ Utf8.encode? (records.flatMap Record.shown) = some bytes := by
  rw [render_eq_ok, recordTexts_of_refusal hp fun r hr => (h r hr).refusalWithin?_eq_none hdepth]
  exact ⟨fun ⟨_, t, ht, hbytes⟩ => Except.ok.inj ht ▸ hbytes, fun hbytes => ⟨hp.hasFormat, _, rfl, hbytes⟩⟩

/-- **The stream can be taken apart.** Cut behind the lines that are a closing brace or an empty map and
nothing else, it comes to as many documents as there are records, nothing is left over, and every document
is read as its record. So no other records have the same stream. The records may have as many levels of
nesting as can be written, and the documents are read with no more than these. -/
theorem render_splits :
    ∃ bytes t, render p records = .ok bytes ∧ Utf8.strict bytes = .ok t ∧
      (documents t).1.flatten = t ∧ (documents t).2 = [] ∧
      List.Forall₂ (fun document r => Json.parse depth document = .ok (.map r)) (documents t).1 records ∧
      ∀ others : List Record, (∀ r ∈ others, (Value.map r).IsPrintable depth) →
        render p others = .ok bytes → others = records := by
  obtain ⟨bytes, hbytes⟩ := exists_encode_shown h
  have hread : ∀ {records : List Record}, (∀ r ∈ records, (Value.map r).IsPrintable depth) →
      List.Forall₂ (fun document r => Json.parse depth document = .ok (.map r))
        (documents (records.flatMap Record.shown)).1 records := by
    intro records h
    rw [documents_stream h, List.forall₂_map_left_iff, List.forall₂_same]
    exact fun r hr => parse_shown (h r hr)
  refine ⟨bytes, _, (render_eq_ok_iff hp hdepth h).mpr hbytes, Utf8.strict_encode hbytes, ?_, ?_, hread h, ?_⟩
  · have hflatten := flatten_documents (records.flatMap Record.shown)
    rw [documents_stream h, List.append_nil] at hflatten
    rw [documents_stream h]
    exact hflatten
  · rw [documents_stream h]
  · intro others hothers hsame
    have hbytes' := (render_eq_ok_iff hp hdepth hothers).mp hsame
    have htexts : records.flatMap Record.shown = others.flatMap Record.shown :=
      Except.ok.inj ((Utf8.strict_encode hbytes).symm.trans (Utf8.strict_encode hbytes'))
    have hunique : Relator.RightUnique fun (document : Text) (r : Record) =>
        Json.parse depth document = .ok (.map r) := fun _ _ _ hr hs =>
      Value.map.inj (Except.ok.inj (hr.symm.trans hs))
    exact List.right_unique_forall₂' hunique (htexts ▸ hread hothers) (hread h)

end

/-- A record with strings that look like the ends of documents, a record without fields, and a record with
an empty map in it. -/
def braceRecords : List Record :=
  [[(.string "\n\x7d\n", .string "\"\n\x7b\x7d\n\x7d\n")], [],
    [(.string "a", .map []), (.string "b", .list [.integer (-1), .null])]]

theorem isPrintable_braceRecords : ∀ r ∈ braceRecords, (Value.map r).IsPrintable 2 := by
  have hempty : ∀ depth : Nat, (Value.ofMembers []).IsPrintable (depth + 1) := fun _ =>
    .map List.nodup_nil (by decide) nofun
  have hitems : ∀ v ∈ [Value.integer (-1), Value.null], v.IsPrintable 0 := by
    rw [List.forall_mem_cons, List.forall_mem_singleton]
    exact ⟨.integer (by decide +kernel), .null⟩
  rw [braceRecords, List.forall_mem_cons, List.forall_mem_cons, List.forall_mem_singleton]
  refine ⟨?_, hempty 1, ?_⟩
  · refine @Value.IsPrintable.map 1 [("\n\x7d\n", .string "\"\n\x7b\x7d\n\x7d\n")] ?_ ?_ ?_
    · exact List.nodup_singleton _
    · decide
    · rw [List.forall_mem_singleton]
      exact .string (by decide)
  · refine @Value.IsPrintable.map 1 [("a", .map []), ("b", .list [.integer (-1), .null])] ?_ ?_ ?_
    · decide
    · decide
    · rw [List.forall_mem_cons, List.forall_mem_singleton]
      exact ⟨hempty 0, .list hitems⟩

attribute [local instance] Runtime.standard in
theorem render_splits_braces :
    ∃ bytes t, render {} braceRecords = .ok bytes ∧ Utf8.strict bytes = .ok t ∧
      (documents t).1.length = 3 ∧ (documents t).2 = [] ∧
      List.Forall₂ (fun document r => Json.parse 2 document = .ok (.map r)) (documents t).1 braceRecords := by
  obtain ⟨bytes, t, hrender, ht, -, hrest, hread, -⟩ :=
    render_splits (p := {}) ⟨rfl, rfl, rfl, rfl⟩ (by decide) isPrintable_braceRecords
  exact ⟨bytes, t, hrender, ht, hread.length_eq, hrest, hread⟩

end LogQuery
