import LogQuery.Proofs.Json.ReadAtom
import LogQuery.Proofs.Json.ReadString
/-!
# Reading written documents

A value that is written as JSON is read back as the document that it denotes (`Tree.ofValue`), at any
depth of nesting and in front of any text that does not go on with a number. This is about values whose
floating-point numbers the reader has literals for (`Value.isReadable`), and about styles that put
nothing but blanks between the tokens and escape only what has to be escaped.

* `readValue_writeAt`, `readItems_write`, `readMembers_write`: the parts of a document, by induction
  on the value. The length of the written text is fuel enough.
* `readDocument_write`, `read_write`: a whole document, the latter without floating-point numbers. Blanks
  may follow it (`readDocument_write_append`, `read_write_append`).
-/
namespace LogQuery

mutual

/-- Whether a value has no floating-point number in it and no deeper nesting than some levels. -/
def Value.readsBack : (depth : Nat) → Value → Bool
  | _, .scalar (.float _) => false
  | _, .scalar _ => true
  | _, .set _ => true
  | depth + 1, .list items => Value.itemsReadBack depth items
  | depth + 1, .tuple items => Value.itemsReadBack depth items
  | depth + 1, .map entries => Value.entriesReadBack depth entries
  | 0, _ => false

def Value.itemsReadBack : (depth : Nat) → List Value → Bool
  | _, [] => true
  | depth, v :: rest => v.readsBack depth && Value.itemsReadBack depth rest

/-- Whether this is so of all entries of a map. -/
def Value.entriesReadBack : (depth : Nat) → List (Scalar × Value) → Bool
  | _, [] => true
  | depth, (_, v) :: rest => v.readsBack depth && Value.entriesReadBack depth rest

end

mutual

/-- Whether a value has no deeper nesting than some levels, and no number that the reader has no
literal for. -/
def Value.isReadable (constants : Bool) : (depth : Nat) → Value → Bool
  | _, .scalar (.float x) => x.inFormat && (constants || x.isFinite)
  | _, .scalar _ => true
  | _, .set _ => true
  | depth + 1, .list items => Value.areReadable constants depth items
  | depth + 1, .tuple items => Value.areReadable constants depth items
  | depth + 1, .map entries => Value.entriesReadable constants depth entries
  | 0, _ => false

/-- Whether this is so of all items of a list. -/
def Value.areReadable (constants : Bool) : (depth : Nat) → List Value → Bool
  | _, [] => true
  | depth, v :: rest => v.isReadable constants depth && Value.areReadable constants depth rest

/-- Whether this is so of all entries of a map. -/
def Value.entriesReadable (constants : Bool) : (depth : Nat) → List (Scalar × Value) → Bool
  | _, [] => true
  | depth, (_, v) :: rest => v.isReadable constants depth && Value.entriesReadable constants depth rest

end

section
variable (constants : Bool)

mutual

theorem Value.isReadable_of_readsBack : ∀ {depth : Nat} {v : Value}, v.readsBack depth = true →
    v.isReadable constants depth = true
  | _, .scalar (.null), _ => by simp only [Value.isReadable]
  | _, .scalar (.bool _), _ => by simp only [Value.isReadable]
  | _, .scalar (.integer _), _ => by simp only [Value.isReadable]
  | _, .scalar (.string _), _ => by simp only [Value.isReadable]
  | _, .scalar (.date _), _ => by simp only [Value.isReadable]
  | _, .scalar (.timestamp _), _ => by simp only [Value.isReadable]
  | _, .scalar (.bytes _), _ => by simp only [Value.isReadable]
  | _, .set _, _ => by simp only [Value.isReadable]
  | _ + 1, .list _, h => Value.areReadable_of_readBack h
  | _ + 1, .tuple _, h => Value.areReadable_of_readBack h
  | _ + 1, .map _, h => Value.entriesReadable_of_readBack h

theorem Value.areReadable_of_readBack : ∀ {depth : Nat} {items : List Value},
    Value.itemsReadBack depth items = true → Value.areReadable constants depth items = true
  | _, [], _ => rfl
  | _, _ :: _, h =>
    have hboth := (Bool.and_eq_true _ _).mp h
    (Bool.and_eq_true _ _).mpr
      ⟨Value.isReadable_of_readsBack hboth.1, Value.areReadable_of_readBack hboth.2⟩

theorem Value.entriesReadable_of_readBack : ∀ {depth : Nat} {entries : List (Scalar × Value)},
    Value.entriesReadBack depth entries = true → Value.entriesReadable constants depth entries = true
  | _, [], _ => rfl
  | _, _ :: _, h =>
    have hboth := (Bool.and_eq_true _ _).mp h
    (Bool.and_eq_true _ _).mpr
      ⟨Value.isReadable_of_readsBack hboth.1, Value.entriesReadable_of_readBack hboth.2⟩

end

end

namespace Json

def Tree.ofScalar : Scalar → Tree
  | .null => .null
  | .bool b => .bool b
  | .integer n => .integer (Text.ofInt n)
  | .float .nan => .constant .nan
  | .float (.infinite negative) => .constant (if negative then .minusInfinity else .infinity)
  | .float x => .decimal x.toText
  | s => .string s.display

mutual

def Tree.ofValue : Value → Tree
  | .scalar x => Tree.ofScalar x
  | .list items => .list (Tree.ofValues items)
  | .tuple items => .list (Tree.ofValues items)
  | .map entries => .map (Text.ofPairs (Tree.ofEntries entries))
  | .set items => .string (Value.set items).display

/-- The documents that some values are written as. -/
def Tree.ofValues : List Value → List Tree
  | [] => []
  | v :: rest => Tree.ofValue v :: Tree.ofValues rest

/-- The members that some entries are written as. -/
def Tree.ofEntries : List (Scalar × Value) → List (Text × Tree)
  | [] => []
  | (k, v) :: rest => (nameOfKey k, Tree.ofValue v) :: Tree.ofEntries rest

end

theorem Tree.ofValues_eq_map : ∀ vs : List Value, Tree.ofValues vs = vs.map Tree.ofValue
  | [] => rfl
  | v :: vs => congrArg (Tree.ofValue v :: ·) (Tree.ofValues_eq_map vs)

/-- A style with blank separators in which only what has to be escaped is escaped. -/
structure Style.IsPlain (s : Style) : Prop where
  afterComma : s.afterComma.all isSpace = true
  afterColon : s.afterColon.all isSpace = true
  ascii : s.ascii = false

theorem Style.isPlain_compact : Style.compact.IsPlain := ⟨rfl, rfl, rfl⟩

theorem Style.isPlain_indented : Style.indented.IsPlain := ⟨rfl, rfl, rfl⟩

/-! ## Where a token begins -/

/-- A text that begins with an ASCII character that is neither a blank nor a closing bracket. -/
def Begins (t : Text) : Prop :=
  ∃ p t', t = p :: t' ∧ isSpace p = false ∧ p ≠ .scalar ']' ∧ p ≠ .scalar '\x7d' ∧ p.code < 0x80

theorem Begins.append {t : Text} (h : Begins t) (rest : Text) : Begins (t ++ rest) := by
  obtain ⟨p, t', rfl, hp⟩ := h
  exact ⟨p, t' ++ rest, rfl, hp⟩

theorem Begins.skipSpace {t : Text} (h : Begins t) : skipSpace t = t := by
  obtain ⟨p, t', rfl, hp, -⟩ := h
  exact skipSpace_cons hp t'

theorem begins_writeString (ascii : Bool) (t : Text) : Begins (writeString ascii t) :=
  ⟨_, _, rfl, by decide⟩

theorem begins_digit {p : CodePoint} (h : p.isAsciiDigit = true) (t : Text) : Begins (p :: t) := by
  refine ⟨p, t, rfl, ?_, ?_, ?_, ?_⟩
  · refine Bool.eq_false_iff.mpr fun hspace => ?_
    have := isEnd_of_isSpace hspace []
    simp [isEnd, h] at this
  · rintro rfl; cases h
  · rintro rfl; cases h
  · exact Nat.lt_of_le_of_lt (CodePoint.code_of_isAsciiDigit h).2 (by decide)

theorem begins_signed (negative : Bool) {p : CodePoint} (h : p.isAsciiDigit = true) (t : Text) :
    Begins (Text.signed negative (p :: t)) := by
  cases negative with
  | true => exact ⟨_, _, rfl, by decide⟩
  | false => exact begins_digit h t

theorem begins_ofInt (n : Int) : Begins (Text.ofInt n) := by
  obtain ⟨p, t, ht, hp⟩ := Text.ofNat_first n.natAbs
  rw [Text.ofInt_eq_signed, ht]
  exact begins_signed _ hp t

theorem begins_writeFloat {x : Binary64} (h : x.inFormat = true) : Begins (writeFloat x) := by
  cases x with
  | nan => exact ⟨_, _, rfl, by decide⟩
  | infinite negative => cases negative <;> exact ⟨_, _, rfl, by decide⟩
  | finite negative m e =>
    obtain ⟨t, ht, htext⟩ := Binary64.toText_eq h
    obtain ⟨p, u, rfl, hp⟩ := ht.first
    show Begins (Binary64.finite negative m e).toText
    rw [htext]
    exact begins_signed _ hp u

theorem begins_bracketed (s : Style) (level : Nat) {opening : Char} (closing : Char)
    (items : List Text) (h : Begins [.scalar opening]) :
    Begins (bracketed s level opening closing items) := by
  cases items with
  | nil => exact h.append [.scalar closing]
  | cons item items => exact h.append _

theorem begins_member (s : Style) (name value : Text) : Begins (member s name value) :=
  (begins_writeString s.ascii name).append _

theorem begins_writeAt (s : Style) (level : Nat) {constants : Bool} {depth : Nat} {v : Value}
    (h : v.isReadable constants depth = true) : Begins (writeAt s level v) := by
  cases v with
  | list items => exact begins_bracketed s level _ _ ⟨_, _, rfl, by decide⟩
  | tuple items => exact begins_bracketed s level _ _ ⟨_, _, rfl, by decide⟩
  | map entries => exact begins_bracketed s level _ _ ⟨_, _, rfl, by decide⟩
  | set items => exact begins_writeString _ _
  | scalar x =>
    cases x with
    | null => exact ⟨_, _, rfl, by decide⟩
    | bool b => cases b <;> exact ⟨_, _, rfl, by decide⟩
    | integer n => exact begins_ofInt n
    | float x =>
      simp only [Value.isReadable, Bool.and_eq_true] at h
      exact begins_writeFloat h.1
    | string t => exact begins_writeString _ _
    | date d => exact begins_writeString _ _
    | timestamp t => exact begins_writeString _ _
    | bytes b => exact begins_writeString _ _

/-! ## The parts of a document -/

theorem writeString_append (ascii : Bool) (t rest : Text) :
    writeString ascii t ++ rest
      = .scalar '"' :: (t.flatMap (escape ascii) ++ .scalar '"' :: rest) := by
  simp [writeString]

theorem scalarRefusal?_integer {n : Int} :
    scalarRefusal? (.integer n) = none ↔ Integer.isWritable n = true := by
  by_cases h : Integer.isWritable n = true <;> simp [scalarRefusal?, h]

section
variable {s : Style} (constants : Bool)

theorem readValue_atom {p : CodePoint} (hquote : p ≠ .scalar '"') (hlist : p ≠ .scalar '[')
    (hmap : p ≠ .scalar '\x7b') (fuel depth : Nat) (t : Text) :
    readValue constants (fuel + 1) depth (p :: t) = readAtom constants (p :: t) := by
  unfold readValue
  split
  · rename_i heq; exact absurd (List.cons.inj heq).1 hquote
  · rename_i heq; exact absurd (List.cons.inj heq).1 hlist
  · rename_i heq; exact absurd (List.cons.inj heq).1 hmap
  · rfl

theorem readValue_signed (negative : Bool) {p : CodePoint} (h : p.isAsciiDigit = true)
    (fuel depth : Nat) (t : Text) :
    readValue constants (fuel + 1) depth (Text.signed negative (p :: t))
      = readNumber (Text.signed negative (p :: t)) := by
  rw [← readAtom_signed constants negative h]
  cases negative with
  | true => exact readValue_atom constants (by decide) (by decide) (by decide) fuel depth _
  | false =>
    refine readValue_atom constants ?_ ?_ ?_ fuel depth t <;>
      · rintro rfl
        cases h

theorem readValue_ofInt {n : Int} {fuel depth : Nat} {rest : Text}
    (hw : Integer.isWritable n = true) (he : isEnd rest = true) :
    readValue constants (fuel + 1) depth (Text.ofInt n ++ rest)
      = .ok (.integer (Text.ofInt n), rest) := by
  rw [← readNumber_ofInt hw he]
  obtain ⟨p, t, ht, hp⟩ := Text.ofNat_first n.natAbs
  rw [Text.ofInt_eq_signed, ht, Text.signed_append]
  exact readValue_signed constants _ hp fuel depth _

theorem readValue_float {x : Binary64} {fuel depth : Nat} {rest : Text}
    (hr : (Value.float x).isReadable constants depth = true) (he : isEnd rest = true) :
    readValue constants (fuel + 1) depth (writeFloat x ++ rest)
      = .ok (Tree.ofScalar (.float x), rest) := by
  simp only [Value.isReadable, Bool.and_eq_true, Bool.or_eq_true] at hr
  obtain ⟨hformat, hfinite⟩ := hr
  cases x with
  | nan =>
    obtain rfl | h := hfinite
    · rfl
    · cases h
  | infinite negative =>
    obtain rfl | h := hfinite
    · cases negative <;> rfl
    · cases h
  | finite negative m e =>
    obtain ⟨t, ht, htext⟩ := Binary64.toText_eq hformat
    have hread := readNumber_decimal ht negative he
    obtain ⟨p, u, rfl, hp⟩ := ht.first
    show readValue constants (fuel + 1) depth ((Binary64.finite negative m e).toText ++ rest)
      = .ok (.decimal (Binary64.finite negative m e).toText, rest)
    rw [htext, ← hread, Text.signed_append]
    exact readValue_signed constants negative hp fuel depth _

theorem bracketed_append (level : Nat) (opening closing : Char) {items : List Text}
    (h : items ≠ []) (rest : Text) :
    bracketed s level opening closing items ++ rest
      = .scalar opening :: (s.lineBreak (level + 1)
        ++ (Text.join (s.separator (level + 1)) items
          ++ (s.lineBreak level ++ .scalar closing :: rest))) := by
  cases items with
  | nil => exact absurd rfl h
  | cons item items => simp [bracketed]

theorem readItems_last {item blank rest : Text} {x : Tree} {fuel depth : Nat}
    (hb : blank.all isSpace = true)
    (hv : readValue constants fuel depth (item ++ (blank ++ .scalar ']' :: rest))
      = .ok (x, blank ++ .scalar ']' :: rest)) :
    readItems constants (fuel + 1) depth (item ++ (blank ++ .scalar ']' :: rest))
      = .ok ([x], rest) := by
  simp only [readItems, hv, bind, Except.bind, skipSpace_blank hb,
    skipSpace_cons (p := .scalar ']') (by decide)]

theorem readItems_more {item blank more rest : Text} {x : Tree} {xs : List Tree} {fuel depth : Nat}
    (hb : blank.all isSpace = true) (hm : Begins more)
    (hv : readValue constants fuel depth (item ++ (.scalar ',' :: (blank ++ more)))
      = .ok (x, .scalar ',' :: (blank ++ more)))
    (hi : readItems constants fuel depth more = .ok (xs, rest)) :
    readItems constants (fuel + 1) depth (item ++ (.scalar ',' :: (blank ++ more)))
      = .ok (x :: xs, rest) := by
  simp only [readItems, hv, bind, Except.bind, skipSpace_cons (p := .scalar ',') (by decide),
    skipSpace_blank hb, hm.skipSpace, hi]

theorem member_append (name value rest : Text) :
    member s name value ++ rest = member s name (value ++ rest) := by simp [member]

theorem length_value_lt (name value : Text) : value.length < (member s name value).length := by
  simp only [member, List.length_append, List.length_cons]
  omega

theorem readValue_list {more rest : Text} {blank : Text} {xs : List Tree} {fuel depth : Nat}
    (hb : blank.all isSpace = true) (hm : Begins more)
    (hi : readItems constants fuel depth more = .ok (xs, rest)) :
    readValue constants (fuel + 1) (depth + 1) (.scalar '[' :: (blank ++ more))
      = .ok (.list xs, rest) := by
  have hskip : skipSpace (blank ++ more) = more := by rw [skipSpace_blank hb, hm.skipSpace]
  obtain ⟨p, t, rfl, -, hp, -, -⟩ := hm
  simp only [readValue, hskip]
  split
  next => contradiction
  next heq => exact absurd (List.cons.inj heq).1 hp
  next hdepth _ =>
    cases hdepth
    simp only [hi, bind, Except.bind]

theorem readValue_map {more rest : Text} {blank : Text} {xs : List (Text × Tree)} {fuel depth : Nat}
    (hb : blank.all isSpace = true) (hm : Begins more)
    (hi : readMembers constants fuel depth more = .ok (xs, rest)) :
    readValue constants (fuel + 1) (depth + 1) (.scalar '\x7b' :: (blank ++ more))
      = .ok (.map (Text.ofPairs xs), rest) := by
  have hskip : skipSpace (blank ++ more) = more := by rw [skipSpace_blank hb, hm.skipSpace]
  obtain ⟨p, t, rfl, -, -, hp, -⟩ := hm
  simp only [readValue, hskip]
  split
  next => contradiction
  next heq => exact absurd (List.cons.inj heq).1 hp
  next hdepth _ =>
    cases hdepth
    simp only [hi, bind, Except.bind]

theorem writeItems_ne_nil (level : Nat) {items : List Value} (h : items ≠ []) :
    writeItems s level items ≠ [] := by
  cases items with
  | nil => exact absurd rfl h
  | cons v rest => simp [writeItems]

theorem writeEntries_ne_nil (level : Nat) {entries : List (Scalar × Value)} (h : entries ≠ []) :
    writeEntries s level entries ≠ [] := by
  cases entries with
  | nil => exact absurd rfl h
  | cons e rest => simp [writeEntries]

theorem join_singleton (level : Nat) (x : Text) : Text.join (s.separator level) [x] = x := by
  simp [Text.join, List.intercalate_singleton]

theorem join_cons_cons (level : Nat) (x y : Text) (more : List Text) (rest : Text) :
    Text.join (s.separator level) (x :: y :: more) ++ rest
      = x ++ (.scalar ',' :: ((s.afterComma ++ s.lineBreak level)
        ++ (Text.join (s.separator level) (y :: more) ++ rest))) := by
  simp [Text.join, Style.separator, List.intercalate_cons_cons]

theorem length_join_cons_cons (level : Nat) (x y : Text) (more : List Text) :
    x.length + (Text.join (s.separator level) (y :: more)).length
      < (Text.join (s.separator level) (x :: y :: more)).length := by
  have := congrArg List.length (join_cons_cons (s := s) level x y more [])
  simp only [List.append_nil, List.length_append, List.length_cons] at this
  omega

theorem begins_join (level : Nat) {x : Text} (h : Begins x) (more : List Text) :
    Begins (Text.join (s.separator level) (x :: more)) := by
  cases more with
  | nil => rw [join_singleton]; exact h
  | cons y more =>
    rw [← List.append_nil (Text.join _ _), join_cons_cons]
    exact h.append _

theorem readValue_items {items : List Value} {fuel depth level : Nat} {rest : Text}
    (hr : Value.areReadable constants depth items = true)
    (hi : items ≠ [] → readItems constants fuel depth
      (Text.join (s.separator (level + 1)) (writeItems s (level + 1) items)
        ++ (s.lineBreak level ++ .scalar ']' :: rest)) = .ok (Tree.ofValues items, rest)) :
    readValue constants (fuel + 1) (depth + 1)
      (bracketed s level '[' ']' (writeItems s (level + 1) items) ++ rest)
      = .ok (.list (Tree.ofValues items), rest) := by
  cases items with
  | nil => rfl
  | cons v items =>
    rw [bracketed_append level _ _ (writeItems_ne_nil _ (List.cons_ne_nil v items))]
    simp only [Value.areReadable, Bool.and_eq_true] at hr
    have hbegins := begins_join (s := s) (level + 1) (begins_writeAt s (level + 1) hr.1)
      (writeItems s (level + 1) items)
    exact readValue_list constants (all_isSpace_lineBreak s (level + 1)) (hbegins.append _)
      (hi (List.cons_ne_nil v items))

theorem readValue_entries {entries : List (Scalar × Value)} {fuel depth level : Nat} {rest : Text}
    (hi : entries ≠ [] → readMembers constants fuel depth
      (Text.join (s.separator (level + 1)) (writeEntries s (level + 1) entries)
        ++ (s.lineBreak level ++ .scalar '\x7d' :: rest)) = .ok (Tree.ofEntries entries, rest)) :
    readValue constants (fuel + 1) (depth + 1)
      (bracketed s level '\x7b' '\x7d' (writeEntries s (level + 1) entries) ++ rest)
      = .ok (.map (Text.ofPairs (Tree.ofEntries entries)), rest) := by
  cases entries with
  | nil => rfl
  | cons e entries =>
    rw [bracketed_append level _ _ (writeEntries_ne_nil _ (List.cons_ne_nil e entries))]
    have hbegins := begins_join (s := s) (level + 1)
      (begins_member s (nameOfKey e.1) (writeAt s (level + 1) e.2))
      (writeEntries s (level + 1) entries)
    exact readValue_map constants (all_isSpace_lineBreak s (level + 1)) (hbegins.append _)
      (hi (List.cons_ne_nil e entries))

theorem length_join_lt {level fuel : Nat} {opening closing : Char} {items : List Text}
    (h : items ≠ []) (hf : (bracketed s level opening closing items).length ≤ fuel + 1) :
    (Text.join (s.separator (level + 1)) items).length < fuel := by
  have := congrArg List.length (bracketed_append (s := s) level opening closing h [])
  simp only [List.append_nil, List.length_append, List.length_cons] at this
  omega

end

/-! ## Whole documents -/

section
variable {s : Style} (hs : s.IsPlain) (constants : Bool)
include hs

theorem readString_writeString (start t rest : Text) :
    readString start ((t.flatMap (escape s.ascii) ++ .scalar '"' :: rest).length + 1)
      (t.flatMap (escape s.ascii) ++ .scalar '"' :: rest) = .ok (t, rest) := by
  have hlength := length_le_flatMap_escape s.ascii t
  rw [hs.ascii] at hlength ⊢
  refine readString_written start rest t ?_
  rw [List.length_append]
  omega

theorem readValue_writeString (fuel depth : Nat) (t rest : Text) :
    readValue constants (fuel + 1) depth (writeString s.ascii t ++ rest) = .ok (.string t, rest) := by
  rw [writeString_append, readValue, readString_writeString hs]
  rfl

theorem readName_writeString (t : Text) {value : Text} (hvalue : Begins value) :
    readName (member s t value) = .ok (t, value) := by
  have hcolon : skipSpace (.scalar ':' :: (s.afterColon ++ value))
      = .scalar ':' :: (s.afterColon ++ value) := skipSpace_cons (by decide) _
  rw [member, writeString_append, readName, readString_writeString hs]
  simp only [bind, Except.bind, hcolon, skipSpace_blank hs.afterColon, hvalue.skipSpace]

theorem readValue_scalar {x : Scalar} {fuel depth : Nat} {rest : Text}
    (hw : scalarRefusal? x = none) (hr : (Value.scalar x).isReadable constants depth = true)
    (he : isEnd rest = true) :
    readValue constants (fuel + 1) depth (writeScalar s.ascii x ++ rest)
      = .ok (Tree.ofScalar x, rest) := by
  cases x with
  | null => rfl
  | bool b => cases b <;> rfl
  | integer n =>
    exact readValue_ofInt constants (scalarRefusal?_integer.mp hw) he
  | float x => exact readValue_float constants hr he
  | string t => exact readValue_writeString hs constants fuel depth t rest
  | date d => exact readValue_writeString hs constants fuel depth _ rest
  | timestamp t => exact readValue_writeString hs constants fuel depth _ rest
  | bytes b => exact readValue_writeString hs constants fuel depth _ rest

theorem readMembers_last {value blank rest : Text} {name : Text} {x : Tree} {fuel depth : Nat}
    (hb : blank.all isSpace = true) (hbegins : Begins value)
    (hv : readValue constants fuel depth (value ++ (blank ++ .scalar '\x7d' :: rest))
      = .ok (x, blank ++ .scalar '\x7d' :: rest)) :
    readMembers constants (fuel + 1) depth (member s name value ++ (blank ++ .scalar '\x7d' :: rest))
      = .ok ([(name, x)], rest) := by
  simp only [member_append, readMembers, readName_writeString hs name (hbegins.append _), hv, bind,
    Except.bind, skipSpace_blank hb, skipSpace_cons (p := .scalar '\x7d') (by decide)]

theorem readMembers_more {value blank more rest : Text} {name : Text} {x : Tree}
    {xs : List (Text × Tree)} {fuel depth : Nat} (hb : blank.all isSpace = true)
    (hbegins : Begins value) (hm : Begins more)
    (hv : readValue constants fuel depth (value ++ (.scalar ',' :: (blank ++ more)))
      = .ok (x, .scalar ',' :: (blank ++ more)))
    (hi : readMembers constants fuel depth more = .ok (xs, rest)) :
    readMembers constants (fuel + 1) depth (member s name value ++ (.scalar ',' :: (blank ++ more)))
      = .ok ((name, x) :: xs, rest) := by
  simp only [member_append, readMembers, readName_writeString hs name (hbegins.append _), hv, bind,
    Except.bind, skipSpace_cons (p := .scalar ',') (by decide), skipSpace_blank hb, hm.skipSpace, hi]

theorem all_isSpace_separator (level : Nat) :
    (s.afterComma ++ s.lineBreak level).all isSpace = true := by
  rw [List.all_append, hs.afterComma, all_isSpace_lineBreak]
  rfl

mutual

theorem readValue_writeAt : ∀ (v : Value) (fuel : Nat) {depth level : Nat} {rest : Text},
    refusal? v = none → v.isReadable constants depth = true → (writeAt s level v).length ≤ fuel →
    isEnd rest = true →
    readValue constants fuel depth (writeAt s level v ++ rest) = .ok (Tree.ofValue v, rest)
  | v, 0, _, level, _, _, hr, hf, _ => by
    obtain ⟨p, t, ht, -⟩ := begins_writeAt s level hr
    rw [ht] at hf
    exact absurd hf (Nat.not_succ_le_zero _)
  | .scalar _, _ + 1, _, _, _, hw, hr, _, he => readValue_scalar hs constants hw hr he
  | .set _, fuel + 1, depth, _, rest, _, _, _, _ =>
    readValue_writeString hs constants fuel depth _ rest
  | .list items, fuel + 1, depth + 1, level, _, hw, hr, hf, _ =>
    readValue_items constants hr fun hne =>
      readItems_write items fuel (level + 1) _ _ hne hw hr
        (length_join_lt (writeItems_ne_nil _ hne) hf) (all_isSpace_lineBreak s level)
  | .tuple items, fuel + 1, depth + 1, level, _, hw, hr, hf, _ =>
    readValue_items constants hr fun hne =>
      readItems_write items fuel (level + 1) _ _ hne hw hr
        (length_join_lt (writeItems_ne_nil _ hne) hf) (all_isSpace_lineBreak s level)
  | .map entries, fuel + 1, depth + 1, level, _, hw, hr, hf, _ =>
    readValue_entries constants fun hne =>
      readMembers_write entries fuel (level + 1) _ _ hne hw hr
        (length_join_lt (writeEntries_ne_nil _ hne) hf) (all_isSpace_lineBreak s level)

theorem readItems_write : ∀ (items : List Value) (fuel level : Nat) (blank rest : Text)
    {depth : Nat}, items ≠ [] → itemRefusalWithin? none items = none →
    Value.areReadable constants depth items = true →
    (Text.join (s.separator level) (writeItems s level items)).length < fuel →
    blank.all isSpace = true →
    readItems constants fuel depth (Text.join (s.separator level) (writeItems s level items)
      ++ (blank ++ .scalar ']' :: rest)) = .ok (Tree.ofValues items, rest)
  | [v], fuel + 1, level, blank, rest, depth, _, hw, hr, hf, hb => by
    simp only [itemRefusalWithin?, Option.or_none] at hw
    simp only [Value.areReadable, Bool.and_true] at hr
    simp only [writeItems, join_singleton] at hf ⊢
    exact readItems_last constants hb
      (readValue_writeAt v fuel hw hr (Nat.le_of_lt_succ hf) (isEnd_blank hb rfl))
  | v :: w :: items, fuel + 1, level, blank, rest, depth, _, hw, hr, hf, hb => by
    obtain ⟨hwv, hwrest⟩ := Option.or_eq_none_iff.mp hw
    obtain ⟨hrv, hrrest⟩ := (Bool.and_eq_true _ _).mp hr
    have hlength := length_join_cons_cons (s := s) level (writeAt s level v) (writeAt s level w)
      (writeItems s level items)
    have hmore := readItems_write (w :: items) fuel level blank rest
      (List.cons_ne_nil w items) hwrest hrrest (by simp only [writeItems] at hf ⊢; omega) hb
    simp only [writeItems] at hf hmore ⊢
    rw [join_cons_cons]
    have hrw := ((Bool.and_eq_true _ _).mp hrrest).1
    exact readItems_more constants (all_isSpace_separator hs level)
      ((begins_join level (begins_writeAt s level hrw) _).append _)
      (readValue_writeAt v fuel hwv hrv (by omega) rfl) hmore

theorem readMembers_write : ∀ (entries : List (Scalar × Value)) (fuel level : Nat)
    (blank rest : Text) {depth : Nat}, entries ≠ [] → entryRefusalWithin? none entries = none →
    Value.entriesReadable constants depth entries = true →
    (Text.join (s.separator level) (writeEntries s level entries)).length < fuel →
    blank.all isSpace = true →
    readMembers constants fuel depth (Text.join (s.separator level) (writeEntries s level entries)
      ++ (blank ++ .scalar '\x7d' :: rest)) = .ok (Tree.ofEntries entries, rest)
  | [(k, v)], fuel + 1, level, blank, rest, depth, _, hw, hr, hf, hb => by
    obtain ⟨-, hwv⟩ := Option.or_eq_none_iff.mp hw
    simp only [entryRefusalWithin?, Option.or_none] at hwv
    simp only [Value.entriesReadable, Bool.and_true] at hr
    simp only [writeEntries, join_singleton] at hf ⊢
    have hvalue := length_value_lt (s := s) (nameOfKey k) (writeAt s level v)
    exact readMembers_last hs constants hb (begins_writeAt s level hr)
      (readValue_writeAt v fuel hwv hr (by omega) (isEnd_blank hb rfl))
  | (k, v) :: (l, w) :: entries, fuel + 1, level, blank, rest, depth, _, hw, hr, hf, hb => by
    obtain ⟨-, hw⟩ := Option.or_eq_none_iff.mp hw
    obtain ⟨hwv, hwrest⟩ := Option.or_eq_none_iff.mp hw
    obtain ⟨hrv, hrrest⟩ := (Bool.and_eq_true _ _).mp hr
    have hlength := length_join_cons_cons (s := s) level
      (member s (nameOfKey k) (writeAt s level v)) (member s (nameOfKey l) (writeAt s level w))
      (writeEntries s level entries)
    have hvalue := length_value_lt (s := s) (nameOfKey k) (writeAt s level v)
    have hmore := readMembers_write ((l, w) :: entries) fuel level blank rest
      (List.cons_ne_nil _ entries) hwrest hrrest (by simp only [writeEntries] at hf ⊢; omega) hb
    simp only [writeEntries] at hf hmore ⊢
    rw [join_cons_cons]
    exact readMembers_more hs constants (all_isSpace_separator hs level) (begins_writeAt s level hrv)
      ((begins_join level (begins_member s _ _) _).append _)
      (readValue_writeAt v fuel hwv hrv (by omega) rfl) hmore

end

theorem readDocument_write_append {depth : Nat} {v : Value} {blank : Text} (hw : refusal? v = none)
    (hr : v.isReadable constants depth = true) (hb : blank.all isSpace = true) :
    readDocument constants depth (write s v ++ blank) = .ok (Tree.ofValue v) := by
  have hbegins : Begins (write s v) := begins_writeAt s 0 hr
  have hend : isEnd blank = true := by
    rw [← List.append_nil blank]
    exact isEnd_blank hb rfl
  have hvalue : readValue constants (2 * (write s v ++ blank).length + 2) depth (write s v ++ blank)
      = .ok (Tree.ofValue v, blank) :=
    readValue_writeAt hs constants v _ hw hr (by simp only [write, List.length_append]; omega) hend
  have hskip : skipSpace blank = [] := by
    rw [← List.append_nil blank, skipSpace_blank hb]
    rfl
  simp only [readDocument, (hbegins.append blank).skipSpace, hvalue, bind, Except.bind, hskip]

theorem readDocument_write {depth : Nat} {v : Value} (hw : refusal? v = none)
    (hr : v.isReadable constants depth = true) :
    readDocument constants depth (write s v) = .ok (Tree.ofValue v) := by
  rw [← List.append_nil (write s v)]
  exact readDocument_write_append hs constants hw hr rfl

/-- **Reading back.** A written document without floating-point numbers is read as the document that
was written, whatever blanks follow it. -/
theorem read_write_append {depth : Nat} {v : Value} {blank : Text} (hw : refusal? v = none)
    (hr : v.readsBack depth = true) (hb : blank.all isSpace = true) :
    Tree.read constants depth (write s v ++ blank) = .ok (Tree.ofValue v) := by
  replace hr := Value.isReadable_of_readsBack constants hr
  obtain ⟨p, t, ht, -, -, -, hascii⟩ : Begins (write s v ++ blank) :=
    (begins_writeAt s 0 hr).append blank
  unfold Tree.read
  split
  next heq =>
    rw [(List.cons.inj (ht.symm.trans heq)).1] at hascii
    exact absurd hascii (by decide)
  next => rw [readDocument_write_append hs constants hw hr hb]; rfl

theorem read_write {depth : Nat} {v : Value} (hw : refusal? v = none) (hr : v.readsBack depth = true) :
    Tree.read constants depth (write s v) = .ok (Tree.ofValue v) := by
  rw [← List.append_nil (write s v)]
  exact read_write_append hs constants hw hr rfl

end

end Json
end LogQuery
