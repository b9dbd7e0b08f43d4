import LogQuery.Proofs.Number.ReadInteger
import Mathlib.Data.List.Induction
/-!
# Canonical numerals

Digits without a leading zero are the way in which their number is written, so a numeral in this form
is lost in no number: whoever writes the number writes the numeral (`ofNat_digits`,
`ofInt_integerOf`). The exception is `-0`, which is written without its sign.

`IsNumeral` and `IsDecimal` are the forms that the numbers of a document have.
-/
namespace LogQuery

namespace CodePoint

theorem eq_digitChar {p : CodePoint} (h : p.isAsciiDigit = true) :
    p = .scalar (p.code - 0x30).digitChar := by
  cases p with
  | surrogate o => cases h
  | scalar c =>
    have hc : 0x30 ≤ c.toNat ∧ c.toNat ≤ 0x39 := code_of_isAsciiDigit h
    have key : ∀ d : Fin 10, (d.val).digitChar.toNat = 0x30 + d.val := by decide
    have hd : (c.toNat - 0x30).digitChar.toNat = 0x30 + (c.toNat - 0x30) :=
      key ⟨c.toNat - 0x30, by omega⟩
    exact congrArg scalar (Char.toNat_inj.mp (by rw [code, hd]; omega)).symm

end CodePoint

namespace Text

theorem ofNat_digit {n : Nat} (h : n < 10) : ofNat n = [.scalar n.digitChar] := by
  rw [ofNat_eq_map, Nat.toDigits_of_lt_base h, List.map_singleton]

theorem ofNat_append_digit {n d : Nat} (hn : n ≠ 0) (hd : d < 10) :
    ofNat (n * 10 + d) = ofNat n ++ [.scalar d.digitChar] := by
  rw [ofNat_eq_map, Nat.toDigits_eq_if (by decide), if_neg (by omega), List.map_append,
    show (n * 10 + d) / 10 = n by omega, show (n * 10 + d) % 10 = d by omega]
  rfl

def signed (negative : Bool) (t : Text) : Text := if negative then .scalar '-' :: t else t

theorem signed_append (negative : Bool) (t u : Text) :
    signed negative t ++ u = signed negative (t ++ u) := by
  cases negative <;> rfl

theorem ofInt_eq_signed (n : Int) : ofInt n = signed (n < 0) (ofNat n.natAbs) := by
  simp only [ofInt, signed, decide_eq_true_eq]

theorem ofNat_zero : ofNat 0 = [.scalar '0'] := by decide

theorem ofNat_digits {p : CodePoint} (hp : p ≠ .scalar '0') (t : Text)
    (h : ∀ q ∈ p :: t, q.isAsciiDigit = true) :
    ofNat (LogQuery.ofDigits 10 ((p :: t).filterMap CodePoint.asciiDigit?)) = p :: t := by
  -- By induction from the last digit on, which is the one that a number ends with.
  induction t using List.reverseRecOn with
  | nil =>
    have hdigit := h p List.mem_cons_self
    have hcode := CodePoint.code_of_isAsciiDigit hdigit
    rw [List.filterMap_cons_some (CodePoint.asciiDigit?_eq hdigit), List.filterMap_nil]
    simp only [LogQuery.ofDigits, List.foldl_cons, List.foldl_nil, Nat.zero_mul, Nat.zero_add]
    rw [ofNat_digit (by omega), ← CodePoint.eq_digitChar hdigit]
  | append_singleton t q ih =>
    have hq : q.isAsciiDigit = true := h q (by simp)
    have hcode := CodePoint.code_of_isAsciiDigit hq
    have hfront := ih fun r hr => h r (by rw [← List.cons_append]; exact List.mem_append_left [q] hr)
    generalize hn : LogQuery.ofDigits 10 ((p :: t).filterMap CodePoint.asciiDigit?) = n at hfront
    have hpositive : n ≠ 0 := by
      rintro rfl
      rw [ofNat_zero] at hfront
      exact hp (List.cons.inj hfront).1.symm
    have hlast : LogQuery.ofDigits 10 ((p :: (t ++ [q])).filterMap CodePoint.asciiDigit?)
        = n * 10 + (q.code - 0x30) := by
      rw [← List.cons_append, List.filterMap_append,
        List.filterMap_cons_some (CodePoint.asciiDigit?_eq hq), List.filterMap_nil,
        LogQuery.ofDigits, List.foldl_append, ← LogQuery.ofDigits, hn]
      rfl
    rw [hlast, ofNat_append_digit hpositive (by omega), hfront, ← CodePoint.eq_digitChar hq,
      List.cons_append]

end Text

namespace Json

/-- The form of the numerals of integers: digits without a leading zero, a minus sign in front or
none. -/
inductive IsNumeral : Text → Prop
  | unsigned (n : Nat) : IsNumeral (Text.ofNat n)
  | negative (n : Nat) : IsNumeral (.scalar '-' :: Text.ofNat n)

/-- The fraction of a number literal: a point and digits, or nothing. -/
inductive IsFraction : Text → Prop
  | none : IsFraction []
  | point {digits : Text} (hne : digits ≠ []) (h : ∀ p ∈ digits, p.isAsciiDigit = true) :
    IsFraction (.scalar '.' :: digits)

/-- The exponent of a number literal: a sign and digits, or nothing. -/
inductive IsExponent : Text → Prop
  | none : IsExponent []
  | power {sign : Char} {digits : Text} (hsign : sign = '+' ∨ sign = '-') (hne : digits ≠ [])
    (h : ∀ p ∈ digits, p.isAsciiDigit = true) : IsExponent (.scalar 'e' :: .scalar sign :: digits)

/-- The form of a number without a sign that has a fraction or an exponent. -/
inductive IsDecimal : Text → Prop
  | intro (whole : Nat) {fraction exponent : Text} (hf : IsFraction fraction)
    (hx : IsExponent exponent) (hne : ¬ (fraction = [] ∧ exponent = [])) :
    IsDecimal (Text.ofNat whole ++ (fraction ++ exponent))

theorem IsDecimal.first {t : Text} (h : IsDecimal t) : ∃ p u, t = p :: u ∧ p.isAsciiDigit = true := by
  obtain ⟨whole, -, -, -⟩ := h
  obtain ⟨p, u, hu, hp⟩ := Text.ofNat_first whole
  exact ⟨p, _, by rw [hu, List.cons_append], hp⟩

theorem ofInt_integerOf {literal : Text} (h : IsNumeral literal) (hn : integerOf literal ≠ 0) :
    Text.ofInt (integerOf literal) = literal := by
  cases h with
  | unsigned n =>
    rw [integerOf_ofNat, Text.ofInt, if_neg (by omega)]
    rfl
  | negative n =>
    rw [integerOf_minus] at hn ⊢
    rw [Text.ofInt, if_pos (by omega), Int.natAbs_neg, Int.natAbs_natCast]

end Json
end LogQuery
