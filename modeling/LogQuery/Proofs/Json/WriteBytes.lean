import LogQuery.Json.Encoding
import LogQuery.Proofs.Json.ReadWrite
import LogQuery.Proofs.Text.Utf8
/-!
# Written documents as bytes

A document can be written as UTF-8 exactly if its strings have no lone surrogates
(`exists_encode_write_iff`), and whoever gets the bytes reads the document (`readBytes_written`). The
bytes never pass for another encoding, because a written document begins with an ASCII character and has
no zero in it: inside strings it would be escaped.
-/
namespace LogQuery

def CodePoint.isScalar : CodePoint → Bool
  | .scalar _ => true
  | .surrogate _ => false

/-- A code point that is neither a surrogate nor a zero. -/
def CodePoint.isLegible (p : CodePoint) : Bool := p.isScalar && p != .scalar '\x00'

theorem Text.all_isScalar_ofString (s : String) :
    (Text.ofString s).all CodePoint.isScalar = true := by
  rw [ofString, ofChars, List.all_map, List.all_eq_true]
  exact fun _ _ => rfl

/-- A property that every legible code point has and no surrogate. -/
structure CodePoint.TellsSurrogates (good : CodePoint → Bool) : Prop where
  of_isLegible : ∀ p : CodePoint, p.isLegible = true → good p = true
  isScalar : ∀ p : CodePoint, good p = true → p.isScalar = true

theorem CodePoint.TellsSurrogates.all {good : CodePoint → Bool} (hg : TellsSurrogates good) {t : Text}
    (h : t.all isLegible = true) : t.all good = true :=
  List.all_eq_true.mpr fun p hp => hg.of_isLegible p (List.all_eq_true.mp h p hp)

theorem CodePoint.tellsSurrogates_isLegible : TellsSurrogates isLegible :=
  ⟨fun _ h => h, fun _ h => ((Bool.and_eq_true _ _).mp h).1⟩

theorem CodePoint.tellsSurrogates_isScalar : TellsSurrogates isScalar :=
  ⟨fun _ h => ((Bool.and_eq_true _ _).mp h).1, fun _ h => h⟩

theorem Text.all_isScalar_of_isLegible {t : Text} (h : t.all CodePoint.isLegible = true) :
    t.all CodePoint.isScalar = true :=
  CodePoint.tellsSurrogates_isScalar.all h

mutual

/-- Whether the strings in a value have no surrogates. -/
def Value.isUnicode : Value → Bool
  | .scalar s => s.display.all CodePoint.isScalar
  | .list items => Value.areUnicode items
  | .tuple items => Value.areUnicode items
  | .map entries => Value.entriesUnicode entries
  | .set items => (Value.set items).display.all CodePoint.isScalar

/-- Whether the strings in some values have no surrogates. -/
def Value.areUnicode : List Value → Bool
  | [] => true
  | v :: rest => v.isUnicode && Value.areUnicode rest

/-- Whether the names and the strings in some entries have no surrogates. -/
def Value.entriesUnicode : List (Scalar × Value) → Bool
  | [] => true
  | (k, v) :: rest =>
    (Json.nameOfKey k).all CodePoint.isScalar && v.isUnicode && Value.entriesUnicode rest

end

namespace Utf8

theorem exists_encode_iff : ∀ {t : Text},
    (∃ bytes, encode? t = some bytes) ↔ t.all CodePoint.isScalar = true
  | [] => by simp [encode?]
  | .scalar c :: t => by
    rw [List.all_cons, show (CodePoint.scalar c).isScalar = true from rfl, Bool.true_and,
      ← exists_encode_iff]
    simp only [encode?, Option.map_eq_some_iff]
    constructor
    · rintro ⟨_, bytes, h, -⟩
      exact ⟨bytes, h⟩
    · rintro ⟨bytes, h⟩
      exact ⟨_, bytes, h, rfl⟩
  | .surrogate o :: t => by simp [encode?, CodePoint.isScalar]

theorem ofNat_ne_zero {x : Nat} (h : x ≠ 0) (hx : x < 0x100) : UInt8.ofNat x ≠ 0 := by
  rw [Ne, ← UInt8.toNat_inj, toNat_ofNat_of_lt hx]
  exact h

theorem ne_zero_of_mem_encodeNumber {n : Nat} (h : n < 0x110000) (hn : n ≠ 0) {b : UInt8}
    (hb : b ∈ encodeNumber n) : b ≠ 0 := by
  unfold encodeNumber at hb
  split at hb
  · rw [List.mem_singleton] at hb
    exact hb ▸ ofNat_ne_zero hn (by omega)
  · repeat' split at hb
    all_goals
      simp only [List.mem_cons, List.not_mem_nil, or_false] at hb
      rcases hb with rfl | rfl | rfl | rfl <;> exact ofNat_ne_zero (by omega) (by omega)

theorem ne_zero_of_mem_encode : ∀ {t : Text} {bytes : Bytes}, encode? t = some bytes →
    t.all CodePoint.isLegible = true → ∀ b ∈ bytes, b ≠ 0
  | [], bytes, h, _ => by
    cases h
    simp
  | .scalar c :: t, bytes, h, ht => by
    obtain ⟨later, hlater, rfl⟩ := Option.map_eq_some_iff.mp h
    rw [List.all_cons, Bool.and_eq_true] at ht
    have hc : c.toNat ≠ 0 := by
      intro h0
      obtain rfl : c = '\x00' := Char.toNat_inj.mp h0
      exact absurd ht.1 (by decide)
    have hvalid : c.toNat < 0xd800 ∨ 0xdfff < c.toNat ∧ c.toNat < 0x110000 := c.valid
    intro b hb
    rcases List.mem_append.mp hb with hb | hb
    · exact ne_zero_of_mem_encodeNumber (by omega) hc hb
    · exact ne_zero_of_mem_encode hlater ht.2 b hb
  | .surrogate o :: t, _, h, _ => by cases h

theorem encode_ascii_first {p : CodePoint} {t : Text} {bytes : Bytes}
    (h : encode? (p :: t) = some bytes) (hp : p.code < 0x80) :
    ∃ b rest, bytes = b :: rest ∧ b < 0x80 := by
  cases p with
  | surrogate o => cases h
  | scalar c =>
    obtain ⟨later, -, rfl⟩ := Option.map_eq_some_iff.mp h
    have hc : c.toNat < 0x80 := hp
    rw [encodeNumber, if_pos hc]
    refine ⟨UInt8.ofNat c.toNat, later, rfl, ?_⟩
    rw [UInt8.lt_iff_toNat_lt, toNat_ofNat_of_lt (by omega)]
    exact hc

end Utf8

namespace Json

/-- Bytes that begin with an ASCII character and have no zero among them are UTF-8 if anything. -/
theorem decodeBytes_of_ascii {b : UInt8} {rest : Bytes} (hb : b < 0x80)
    (hz : ∀ x ∈ b :: rest, x ≠ 0) : decodeBytes (b :: rest) = Utf8.withSurrogates (b :: rest) := by
  have hb0 : b ≠ 0 := hz b List.mem_cons_self
  have hmark : markedEncoding? (b :: rest) = none := by
    unfold markedEncoding?
    split
    next heq => exact absurd (List.cons.inj heq).1 hb0
    next heq => rw [(List.cons.inj heq).1] at hb; exact absurd hb (by decide)
    next heq => rw [(List.cons.inj heq).1] at hb; exact absurd hb (by decide)
    next heq => rw [(List.cons.inj heq).1] at hb; exact absurd hb (by decide)
    next heq => rw [(List.cons.inj heq).1] at hb; exact absurd hb (by decide)
    next => rfl
  have hzeros : encodingByZeros (b :: rest) = .utf8 0 := by
    unfold encodingByZeros
    split
    next x y _ _ _ heq =>
      cases heq
      rw [if_neg hb0, if_neg (hz y (by simp))]
    next x y heq =>
      cases heq
      rw [if_neg hb0, if_neg (hz y (by simp))]
    next => rfl
  rw [decodeBytes, hmark, hzeros]
  rfl

/-! ## The characters of a written document -/

theorem isLegible_of_isSpace {p : CodePoint} (h : isSpace p = true) : p.isLegible = true := by
  cases p with
  | surrogate o => cases h
  | scalar c =>
    simp only [isSpace, Bool.decide_or, Bool.or_eq_true, decide_eq_true_eq] at h
    obtain rfl | rfl | rfl | rfl := h <;> rfl

theorem isLegible_of_isAsciiDigit {p : CodePoint} (h : p.isAsciiDigit = true) :
    p.isLegible = true := by
  cases p with
  | surrogate o => cases h
  | scalar c =>
    rw [CodePoint.isLegible, Bool.and_eq_true, bne_iff_ne]
    refine ⟨rfl, ?_⟩
    rintro heq
    rw [heq] at h
    cases h

theorem all_isLegible_of_isSpace {t : Text} (h : t.all isSpace = true) :
    t.all CodePoint.isLegible = true :=
  List.all_eq_true.mpr fun p hp => isLegible_of_isSpace (List.all_eq_true.mp h p hp)

theorem all_isLegible_ofNat (n : Nat) : (Text.ofNat n).all CodePoint.isLegible = true :=
  List.all_eq_true.mpr fun _ hp => isLegible_of_isAsciiDigit (Text.isAsciiDigit_of_mem_ofNat hp)

theorem all_isLegible_ofInt (n : Int) : (Text.ofInt n).all CodePoint.isLegible = true := by
  unfold Text.ofInt
  split
  · rw [List.all_cons, all_isLegible_ofNat]; rfl
  · exact all_isLegible_ofNat _

theorem zero_notMem_toDigits (n : Nat) : '\x00' ∉ Nat.toDigits 10 n := fun h =>
  absurd (Nat.isDigit_of_mem_toDigits (by decide) (by decide) h) (by decide)

theorem zero_notMem_exponentText (k : Int) : '\x00' ∉ Binary64.exponentText k := by
  have hdigits := zero_notMem_toDigits k.natAbs
  unfold Binary64.exponentText
  simp only [List.mem_cons, not_or]
  refine ⟨by split <;> decide, ?_⟩
  split
  · simpa using hdigits
  · exact hdigits

theorem zero_notMem_layDigits {digits : List Char} (h : '\x00' ∉ digits) (point : Int) :
    '\x00' ∉ Binary64.layDigits digits point := by
  have hexponent := zero_notMem_exponentText (point - 1)
  unfold Binary64.layDigits
  split
  · split
    · simp [h]
    · have htake := fun hmem => h (List.mem_of_mem_take (i := point.toNat) hmem)
      have hdrop := fun hmem => h (List.mem_of_mem_drop (i := point.toNat) hmem)
      simp only [List.mem_append, List.mem_cons, List.mem_replicate, not_or]
      refine ⟨⟨htake, by simp⟩, by decide, ?_⟩
      split
      · decide
      · exact hdrop
  · cases digits with
    | nil => simp
    | cons d ds =>
      simp only [List.mem_cons, List.mem_append, not_or] at h ⊢
      refine ⟨h.1, ?_, by decide, hexponent⟩
      split
      · simp
      · simpa using h.2

theorem all_isLegible_ofChars {cs : List Char} (h : '\x00' ∉ cs) :
    (Text.ofChars cs).all CodePoint.isLegible = true := by
  rw [Text.ofChars, List.all_map, List.all_eq_true]
  intro c hc
  have hne : c ≠ '\x00' := fun heq => h (heq ▸ hc)
  simpa [CodePoint.isLegible, CodePoint.isScalar] using hne

theorem all_isLegible_toText (x : Binary64) : x.toText.all CodePoint.isLegible = true := by
  cases x with
  | nan => decide
  | infinite negative => cases negative <;> decide
  | finite negative m e =>
    have hdigits : '\x00' ∉ Binary64.magnitudeText m e := by
      unfold Binary64.magnitudeText
      split
      · decide
      · refine zero_notMem_layDigits (fun hmem => ?_) _
        have hmem' := (List.dropWhile_suffix _).mem (List.mem_reverse.mp hmem)
        exact zero_notMem_toDigits _ (List.mem_reverse.mp hmem')
    refine all_isLegible_ofChars ?_
    cases negative with
    | true => simpa using hdigits
    | false => exact hdigits

theorem all_isLegible_writeFloat (x : Binary64) : (writeFloat x).all CodePoint.isLegible = true := by
  cases x with
  | nan => decide
  | infinite negative => cases negative <;> decide
  | finite negative m e => exact all_isLegible_toText (.finite negative m e)

theorem all_isLegible_escape {p : CodePoint} (h : p.isScalar = true) :
    (escape false p).all CodePoint.isLegible = true := by
  unfold escape
  split <;> try decide
  simp only [Bool.false_and, Bool.or_false, decide_eq_true_eq]
  split
  next hcontrol =>
    have key : ∀ n : Fin 0x20, (unicodeEscapes n.val).all CodePoint.isLegible = true := by
      decide +kernel
    exact key ⟨p.code, hcontrol⟩
  next hplain =>
    have hzero : p ≠ .scalar '\x00' := by
      rintro rfl
      exact hplain (by decide)
    simp [CodePoint.isLegible, h, hzero]

/-! ## Surrogates in a written document -/

theorem all_join {good : CodePoint → Bool} {sep : Text} (hsep : sep.all good = true) :
    ∀ items : List Text, (Text.join sep items).all good = items.all (·.all good)
  | [] => rfl
  | [t] => by
    rw [Text.join, List.intercalate_singleton, List.all_cons, List.all_nil, Bool.and_true]
  | t :: u :: items => by
    have hrest := all_join hsep (u :: items)
    rw [Text.join] at hrest
    rw [Text.join, List.intercalate_cons_cons, List.all_append, List.all_append, hsep, hrest,
      List.all_cons (a := t), Bool.and_true]

section
variable {good : CodePoint → Bool} (hg : CodePoint.TellsSurrogates good)
include hg

theorem all_escape (p : CodePoint) : (escape false p).all good = p.isScalar := by
  cases p with
  | scalar c => exact hg.all (all_isLegible_escape rfl)
  | surrogate o =>
    have hplain : ¬ (CodePoint.surrogate o).code < 0x20 := by
      simp only [CodePoint.code]
      omega
    have hself : escape false (.surrogate o) = [.surrogate o] := by
      simp only [escape, hplain, decide_false, Bool.false_and, Bool.or_self, Bool.false_eq_true,
        if_false]
    rw [hself, List.all_cons, List.all_nil, Bool.and_true]
    exact Bool.eq_false_iff.mpr fun h => absurd (hg.isScalar _ h) (by simp [CodePoint.isScalar])

theorem all_writeString (t : Text) : (writeString false t).all good = t.all CodePoint.isScalar := by
  have hbody : (t.flatMap (escape false)).all good = t.all CodePoint.isScalar := by
    rw [List.all_flatMap]
    exact congrArg t.all (funext (all_escape hg))
  have hquote : good (.scalar '"') = true := hg.of_isLegible _ rfl
  rw [writeString, List.all_cons, List.all_append, hbody, List.all_cons, List.all_nil, hquote,
    Bool.true_and, Bool.and_true, Bool.and_true]

end

section
variable {s : Style} {good : CodePoint → Bool} (hs : s.IsPlain) (hg : CodePoint.TellsSurrogates good)
include hs hg

theorem all_bracketed (level : Nat) {opening closing : Char}
    (ho : (CodePoint.scalar opening).isLegible = true)
    (hc : (CodePoint.scalar closing).isLegible = true) (items : List Text) :
    (bracketed s level opening closing items).all good = items.all (·.all good) := by
  have hbreak : ∀ n, (s.lineBreak n).all good = true := fun n =>
    hg.all (all_isLegible_of_isSpace (all_isSpace_lineBreak s n))
  have hsep : (s.separator (level + 1)).all good = true := by
    rw [Style.separator, List.all_cons, List.all_append, hbreak,
      hg.all (all_isLegible_of_isSpace hs.afterComma), hg.of_isLegible _ rfl]
    rfl
  cases items with
  | nil => simp [bracketed, hg.of_isLegible _ ho, hg.of_isLegible _ hc]
  | cons t items => simp only [bracketed, List.all_cons, List.all_append, List.all_nil,
      hg.of_isLegible _ ho, hg.of_isLegible _ hc, hbreak, all_join hsep, Bool.and_true, Bool.true_and]

theorem all_writeScalar (x : Scalar) :
    (writeScalar s.ascii x).all good = (Value.scalar x).isUnicode := by
  rw [hs.ascii]
  cases x with
  | null => exact hg.all (t := "null") rfl
  | bool b =>
    cases b with
    | true => exact hg.all (t := "true") rfl
    | false => exact hg.all (t := "false") rfl
  | integer n =>
    have hlegible := all_isLegible_ofInt n
    exact (hg.all hlegible).trans (Text.all_isScalar_of_isLegible hlegible).symm
  | float x =>
    exact (hg.all (all_isLegible_writeFloat x)).trans
      (Text.all_isScalar_of_isLegible (all_isLegible_toText x)).symm
  | string t => exact all_writeString hg t
  | date d => exact all_writeString hg _
  | timestamp t => exact all_writeString hg _
  | bytes b => exact all_writeString hg _

end

section
variable {s : Style} {good : CodePoint → Bool}

mutual

/-- Surrogates are found in a written document exactly if there are some in the value. -/
theorem all_writeAt (hs : s.IsPlain) (hg : CodePoint.TellsSurrogates good) :
    ∀ (v : Value) (level : Nat), (writeAt s level v).all good = v.isUnicode
  | .scalar x, _ => all_writeScalar hs hg x
  | .set items, _ => by
    rw [writeAt, hs.ascii]
    exact all_writeString hg _
  | .list items, level => (all_bracketed hs hg level rfl rfl _).trans (all_writeItems hs hg items _)
  | .tuple items, level => (all_bracketed hs hg level rfl rfl _).trans (all_writeItems hs hg items _)
  | .map entries, level => (all_bracketed hs hg level rfl rfl _).trans (all_writeEntries hs hg entries _)

theorem all_writeItems (hs : s.IsPlain) (hg : CodePoint.TellsSurrogates good) :
    ∀ (items : List Value) (level : Nat),
    (writeItems s level items).all (·.all good) = Value.areUnicode items
  | [], _ => rfl
  | v :: items, level => by
    rw [writeItems, List.all_cons, all_writeAt hs hg v, all_writeItems hs hg items, Value.areUnicode]

theorem all_writeEntries (hs : s.IsPlain) (hg : CodePoint.TellsSurrogates good) :
    ∀ (entries : List (Scalar × Value)) (level : Nat),
    (writeEntries s level entries).all (·.all good) = Value.entriesUnicode entries
  | [], _ => rfl
  | (k, v) :: entries, level => by
    have hcolon : good (.scalar ':') = true := hg.of_isLegible _ rfl
    rw [writeEntries, List.all_cons, all_writeEntries hs hg entries, member, hs.ascii, List.all_append,
      List.all_cons, List.all_append, all_writeString hg, hcolon,
      hg.all (all_isLegible_of_isSpace hs.afterColon), all_writeAt hs hg v, Value.entriesUnicode,
      Bool.true_and, Bool.true_and]

end

end

section
variable {s : Style} (hs : s.IsPlain)
include hs

theorem all_isLegible_write (v : Value) :
    (write s v).all CodePoint.isLegible = v.isUnicode :=
  all_writeAt hs CodePoint.tellsSurrogates_isLegible v 0

/-- **Which documents have bytes.** A written document has bytes exactly if there are no surrogates in
the value. -/
theorem exists_encode_write_iff (v : Value) :
    (∃ bytes, Utf8.encode? (write s v) = some bytes) ↔ v.isUnicode = true := by
  rw [Utf8.exists_encode_iff, ← all_writeAt hs CodePoint.tellsSurrogates_isScalar v 0]
  rfl

/-- **Over the wire.** The bytes of a written document are read as the document that was written. -/
theorem readBytes_written {constants : Bool} {depth : Nat} {v : Value} {bytes : Bytes}
    (hw : refusal? v = none)
    (hr : v.isReadable constants depth = true) (hbytes : Utf8.encode? (write s v) = some bytes) :
    Tree.readBytes constants depth bytes = .ok (Tree.ofValue v) := by
  have hlegible : (write s v).all CodePoint.isLegible = true :=
    (all_isLegible_write hs v).trans ((exists_encode_write_iff hs v).mp ⟨bytes, hbytes⟩)
  have hread : decodeBytes bytes = .ok (write s v) := by
    obtain ⟨p, t, ht, -, -, -, hascii⟩ : Begins (write s v) := begins_writeAt s 0 hr
    have hzero := Utf8.ne_zero_of_mem_encode hbytes hlegible
    obtain ⟨b, rest, rfl, hb⟩ := Utf8.encode_ascii_first (ht ▸ hbytes) hascii
    rw [decodeBytes_of_ascii hb hzero]
    exact Utf8.decodeFrom_encode true 0 hbytes
  rw [Tree.readBytes, hread]
  show (readDocument constants depth (write s v)).mapError _ = _
  rw [readDocument_write hs constants hw hr]
  rfl

/-- A written document without floating-point numbers and surrogates has bytes that are read as the
document. -/
theorem readBytes_write (constants : Bool) {depth : Nat} {v : Value} (hw : refusal? v = none)
    (hr : v.readsBack depth = true) (hu : v.isUnicode = true) :
    ∃ bytes, Utf8.encode? (write s v) = some bytes ∧
      Tree.readBytes constants depth bytes = .ok (Tree.ofValue v) := by
  obtain ⟨bytes, hbytes⟩ := (exists_encode_write_iff hs v).mpr hu
  exact ⟨bytes, hbytes, readBytes_written hs hw (Value.isReadable_of_readsBack constants hr) hbytes⟩

end

end Json
end LogQuery
