import LogQuery.Json.Reader
import LogQuery.Json.Writer
import LogQuery.Proofs.Number.Shortest
import Mathlib.Data.List.TakeDrop
/-!
# Reading written atoms

A number in front of a text is read up to its end, provided that the text behind it does not go on
with a number (`isEnd`): what stands behind a value in a document never does.

* `readNumber_ofInt`, `readNumber_decimal`: a written integer is read, and so is any other number literal.
* `skipSpace_blank`: blanks between tokens do not matter.
-/
namespace LogQuery.Json

/-! ## Blanks -/

theorem skipSpace_blank {blank : Text} (h : blank.all isSpace = true) (t : Text) :
    skipSpace (blank ++ t) = skipSpace t := by
  unfold skipSpace
  rw [List.dropWhile_append_of_pos]
  exact List.all_eq_true.mp h

theorem skipSpace_cons {p : CodePoint} (h : isSpace p = false) (t : Text) :
    skipSpace (p :: t) = p :: t := by
  rw [skipSpace, List.dropWhile_cons_of_neg (by simp [h])]

theorem all_isSpace_lineBreak (s : Style) (depth : Nat) : (s.lineBreak depth).all isSpace = true := by
  unfold Style.lineBreak
  split
  · rfl
  · rw [List.all_cons, List.all_replicate]
    split <;> decide

/-! ## Numbers -/

/-- A text in front of which a number ends. -/
def isEnd : Text → Bool
  | [] => true
  | p :: _ => !p.isAsciiDigit && p != .scalar '.' && p != .scalar 'e' && p != .scalar 'E'

theorem isEnd_of_isSpace {p : CodePoint} (h : isSpace p = true) (t : Text) : isEnd (p :: t) = true := by
  cases p with
  | surrogate o => cases h
  | scalar c =>
    simp only [isSpace, Bool.decide_or, Bool.or_eq_true, decide_eq_true_eq] at h
    obtain rfl | rfl | rfl | rfl := h <;> rfl

theorem isEnd_blank {blank t : Text} (h : blank.all isSpace = true) (ht : isEnd t = true) :
    isEnd (blank ++ t) = true := by
  cases blank with
  | nil => exact ht
  | cons p blank =>
    rw [List.all_cons, Bool.and_eq_true] at h
    exact isEnd_of_isSpace h.1 _

def endsDigits : Text → Bool
  | [] => true
  | p :: _ => !p.isAsciiDigit

theorem endsDigits_of_isEnd {t : Text} (h : isEnd t = true) : endsDigits t = true := by
  cases t with
  | nil => rfl
  | cons p t =>
    simp only [isEnd, Bool.and_eq_true] at h
    exact h.1.1.1

theorem spanDigits_end {digits rest : Text} (hd : ∀ p ∈ digits, p.isAsciiDigit = true)
    (hr : endsDigits rest = true) : spanDigits (digits ++ rest) = (digits, rest) := by
  have hrest : rest.takeWhile CodePoint.isAsciiDigit = [] ∧
      rest.dropWhile CodePoint.isAsciiDigit = rest := by
    cases rest with
    | nil => exact ⟨rfl, rfl⟩
    | cons p rest =>
      have hp : p.isAsciiDigit = false := by simpa [endsDigits] using hr
      simp [hp]
  rw [spanDigits, List.span_eq_takeWhile_dropWhile, List.takeWhile_append_of_pos hd,
    List.dropWhile_append_of_pos hd, hrest.1, hrest.2, List.append_nil]

theorem spanWhole?_ofNat (n : Nat) {rest : Text} (hr : endsDigits rest = true) :
    spanWhole? (Text.ofNat n ++ rest) = some (Text.ofNat n, rest) := by
  cases h : Text.ofNat n with
  | nil => exact absurd h (Text.ofNat_ne_nil n)
  | cons p digits =>
    have hall : ∀ q ∈ p :: digits, q.isAsciiDigit = true := fun q hq =>
      Text.isAsciiDigit_of_mem_ofNat (h ▸ hq)
    rw [List.cons_append]
    by_cases hp : p = .scalar '0'
    · obtain rfl := hp
      obtain rfl := Text.ofNat_zero_first h
      rfl
    · simp only [spanWhole?, if_neg hp, hall p List.mem_cons_self, if_true,
        spanDigits_end (fun q hq => hall q (List.mem_cons_of_mem p hq)) hr]

theorem spanFraction_literal {fraction rest : Text} (hf : IsFraction fraction)
    (hr : endsDigits rest = true) (hpoint : rest.head? ≠ some (.scalar '.')) :
    spanFraction (fraction ++ rest) = (fraction, rest) := by
  cases hf with
  | none =>
    rw [List.nil_append]
    unfold spanFraction
    split
    · exact absurd rfl hpoint
    · rfl
  | @point digits hne h =>
    simp only [List.cons_append, spanFraction, spanDigits_end h hr]

theorem spanExponent_literal {exponent rest : Text} (hx : IsExponent exponent)
    (hr : isEnd rest = true) : spanExponent (exponent ++ rest) = (exponent, rest) := by
  cases hx with
  | none =>
    cases rest with
    | nil => rfl
    | cons p rest =>
      simp only [isEnd, Bool.and_eq_true, bne_iff_ne] at hr
      simp only [List.nil_append, spanExponent, hr.1.2, hr.2, or_self, if_false]
  | @power sign digits hsign hne h =>
    have hspan : spanSign (.scalar sign :: (digits ++ rest)) = ([.scalar sign], digits ++ rest) := by
      rcases hsign with rfl | rfl <;> rfl
    simp only [List.cons_append, spanExponent, true_or, if_true, hspan,
      spanDigits_end h (endsDigits_of_isEnd hr), List.nil_append]

theorem ends_exponent {exponent rest : Text} (hx : IsExponent exponent) (hr : isEnd rest = true) :
    endsDigits (exponent ++ rest) = true ∧ (exponent ++ rest).head? ≠ some (.scalar '.') := by
  cases hx with
  | none =>
    refine ⟨endsDigits_of_isEnd hr, ?_⟩
    cases rest with
    | nil => simp
    | cons p rest =>
      simp only [isEnd, Bool.and_eq_true, bne_iff_ne] at hr
      simpa using hr.1.1.2
  | power => exact ⟨rfl, by simp⟩

theorem ends_fraction {fraction rest : Text} (hf : IsFraction fraction)
    (hr : endsDigits rest = true) : endsDigits (fraction ++ rest) = true := by
  cases hf with
  | none => exact hr
  | point => rfl

theorem readNumber_signed (negative : Bool) {t whole fraction exponent behind rest' rest : Text}
    (hwhole : spanWhole? t = some (whole, behind)) (hfraction : spanFraction behind = (fraction, rest'))
    (hexponent : spanExponent rest' = (exponent, rest)) :
    readNumber (Text.signed negative t) =
      if fraction = [] ∧ exponent = [] then
        if Integer.maxDigits < whole.length then .error (.longInteger whole.length)
        else .ok (.integer (Text.signed negative whole), rest)
      else .ok (.decimal (Text.signed negative (whole ++ fraction ++ exponent)), rest) := by
  cases negative with
  | true =>
    simp only [Text.signed, if_true, readNumber, hwhole, hfraction, hexponent]
    rfl
  | false =>
    unfold readNumber
    split
    next sign unsigned heq =>
    split at heq
    · -- A numeral does not begin with a minus sign.
      rename_i rest' hminus
      rw [show Text.signed false t = t from rfl] at hminus
      rw [hminus] at hwhole
      cases hwhole
    · cases heq
      simp only [Text.signed, Bool.false_eq_true, if_false, hwhole, hfraction, hexponent, List.nil_append]

theorem length_ofNat_le_maxDigits {n : Int} (h : Integer.isWritable n = true) :
    (Text.ofNat n.natAbs).length ≤ Integer.maxDigits :=
  (Text.length_ofNat_le_iff (by decide)).mpr (Integer.isWritable_iff.mp h)

theorem readNumber_ofInt {n : Int} (h : Integer.isWritable n = true) {rest : Text}
    (hr : isEnd rest = true) :
    readNumber (Text.ofInt n ++ rest) = .ok (.integer (Text.ofInt n), rest) := by
  have hends := ends_exponent .none hr
  have hread := readNumber_signed (n < 0) (spanWhole?_ofNat n.natAbs hends.1)
    (spanFraction_literal .none hends.1 hends.2) (spanExponent_literal .none hr)
  rw [List.nil_append, ← Text.signed_append, ← Text.ofInt_eq_signed] at hread
  rw [hread, if_pos ⟨rfl, rfl⟩, if_neg (Nat.not_lt_of_le (length_ofNat_le_maxDigits h))]

/-- **A number literal is read** as it stands. -/
theorem readNumber_decimal {t : Text} (h : IsDecimal t) (negative : Bool) {rest : Text}
    (hr : isEnd rest = true) :
    readNumber (Text.signed negative t ++ rest) = .ok (.decimal (Text.signed negative t), rest) := by
  obtain @⟨whole, fraction, exponent, hf, hx, hne⟩ := h
  obtain ⟨hends, hpoint⟩ := ends_exponent hx hr
  rw [Text.signed_append, List.append_assoc, List.append_assoc,
    readNumber_signed _ (spanWhole?_ofNat whole (ends_fraction hf hends))
      (spanFraction_literal hf hends hpoint) (spanExponent_literal hx hr), if_neg hne,
    List.append_assoc]

/-! ## Words -/

theorem readWord?_digit {p : CodePoint} (h : p.isAsciiDigit = true) (t : Text) :
    readWord? (p :: t) = none ∧ readWord? (.scalar '-' :: p :: t) = none := by
  have hne : ∀ c : Char, (CodePoint.scalar c).isAsciiDigit = false → CodePoint.scalar c ≠ p := by
    rintro c hc rfl
    rw [h] at hc
    cases hc
  constructor <;>
    simp [readWord?, words, Text.ofString, Text.ofChars, Text.dropPrefix?, hne 'n' rfl, hne 't' rfl,
      hne 'f' rfl, hne 'N' rfl, hne 'I' rfl, hne '-' rfl]

theorem readWord?_signed (negative : Bool) {p : CodePoint} (h : p.isAsciiDigit = true) (t : Text) :
    readWord? (Text.signed negative (p :: t)) = none := by
  cases negative with
  | true => exact (readWord?_digit h t).2
  | false => exact (readWord?_digit h t).1

theorem readAtom_signed (constants negative : Bool) {p : CodePoint} (h : p.isAsciiDigit = true)
    (t : Text) :
    readAtom constants (Text.signed negative (p :: t)) = readNumber (Text.signed negative (p :: t)) := by
  rw [readAtom, readWord?_signed negative h]

end LogQuery.Json
