import LogQuery.Proofs.Number.Canonical
/-!
# Numerals of a fixed width

A number that fits is written with as many digits as its field is wide (`ofNatPadded_two`,
`ofNatPadded_four`), and each digit is read back. Digits behind a point are a fraction of ten to the number
of them, and cutting them off is dividing (`ofDigits_cut`).
-/
namespace LogQuery

namespace CodePoint

/-- The ASCII digit of a value. -/
def digit (d : Nat) : CodePoint := .scalar d.digitChar

variable {d : Nat} (h : d < 10)
include h

theorem asciiDigit?_digit : (digit d).asciiDigit? = some d :=
  (by decide : ∀ d < 10, (digit d).asciiDigit? = some d) d h

theorem decimal?_digit : (digit d).decimal? = some d :=
  (by decide : ∀ d < 10, (digit d).decimal? = some d) d h

theorem isAsciiDigit_digit : (digit d).isAsciiDigit = true := by
  rw [isAsciiDigit, asciiDigit?_digit h]
  rfl

theorem isDigit_digit : (digit d).isDigit = true := by
  have hascii := isAsciiDigit_digit h
  have hcode := code_of_isAsciiDigit hascii
  rw [isDigit, if_pos (by omega), hascii]

end CodePoint

namespace Text

open CodePoint (digit)

theorem ofNatPadded_one {n : Nat} (h : n < 10) : ofNatPadded 1 n = [digit n] := by
  rw [ofNatPadded, ofNat_digit h]
  rfl

theorem padLeft_concat (fill : Char) (width : Nat) (t : Text) (p : CodePoint) :
    padLeft fill (width + 1) (t ++ [p]) = padLeft fill width t ++ [p] := by
  rw [padLeft, padLeft, List.length_append, List.length_singleton, Nat.add_sub_add_right,
    List.append_assoc]

theorem ofNatPadded_succ (width n : Nat) :
    ofNatPadded (width + 2) n = ofNatPadded (width + 1) (n / 10) ++ [digit (n % 10)] := by
  have hlast : n % 10 < 10 := Nat.mod_lt n (by decide)
  by_cases h : n / 10 = 0
  · -- Nothing is left, and the zero in the last place before is one of the zeros in front.
    have hn : n % 10 = n := by omega
    rw [h, hn, ofNatPadded, ofNatPadded, ofNat_zero, ofNat_digit (by omega), ← List.nil_append [_],
      padLeft_concat]
    simp only [padLeft, List.length_nil, List.length_singleton, Nat.sub_zero, List.append_nil,
      Nat.add_sub_cancel]
    rw [List.replicate_succ']
    rfl
  · have hn : ofNat n = ofNat (n / 10) ++ [digit (n % 10)] := by
      rw [digit, ← ofNat_append_digit h hlast, Nat.div_add_mod']
    rw [ofNatPadded, ofNatPadded, hn, padLeft_concat]

theorem ofNatPadded_two {n : Nat} (h : n < 100) :
    ofNatPadded 2 n = [digit (n / 10), digit (n % 10)] := by
  rw [ofNatPadded_succ, ofNatPadded_one (by omega)]
  rfl

theorem ofNatPadded_four {n : Nat} (h : n < 10000) :
    ofNatPadded 4 n = [digit (n / 1000), digit (n / 100 % 10), digit (n / 10 % 10), digit (n % 10)] := by
  have hfirst : n / 10 / 10 / 10 = n / 1000 := by omega
  have hsecond : n / 10 / 10 % 10 = n / 100 % 10 := by omega
  rw [ofNatPadded_succ, ofNatPadded_succ, ofNatPadded_two (by omega), hfirst, hsecond]
  rfl

end Text

/-! ## Rows of digits -/

section
variable {base : Nat}

theorem foldl_digits (ds : List Nat) (n : Nat) :
    ds.foldl (fun n d => n * base + d) n = n * base ^ ds.length + ofDigits base ds := by
  induction ds generalizing n with
  | nil => simp [ofDigits]
  | cons d ds ih =>
    rw [ofDigits, List.foldl_cons, List.foldl_cons, ih, ih (0 * base + d), List.length_cons,
      Nat.pow_succ]
    rw [Nat.zero_mul, Nat.zero_add, Nat.add_mul, Nat.mul_assoc, Nat.mul_comm base, Nat.add_assoc]

theorem ofDigits_append (ds es : List Nat) :
    ofDigits base (ds ++ es) = ofDigits base ds * base ^ es.length + ofDigits base es := by
  rw [ofDigits, List.foldl_append, foldl_digits]
  rfl

theorem ofDigits_zeros (k : Nat) : ofDigits base (List.replicate k 0) = 0 := by
  induction k with
  | zero => rfl
  | succ k ih =>
    rw [List.replicate_succ', ofDigits_append, ih]
    simp [ofDigits]

theorem ofDigits_lt {ds : List Nat} (h : ∀ d ∈ ds, d < base) :
    ofDigits base ds < base ^ ds.length := by
  induction ds with
  | nil => exact Nat.one_pos
  | cons d ds ih =>
    rw [List.forall_mem_cons] at h
    have hrest := ih h.2
    have hd : (d + 1) * base ^ ds.length ≤ base * base ^ ds.length := Nat.mul_le_mul_right _ h.1
    rw [ofDigits, List.foldl_cons, foldl_digits, Nat.zero_mul, Nat.zero_add, List.length_cons,
      Nat.pow_succ, Nat.mul_comm _ base]
    rw [Nat.succ_mul] at hd
    omega

theorem Text.exists_digits_ofNatPadded : ∀ {width n : Nat}, n < 10 ^ (width + 1) →
    ∃ ds : List Nat, ofNatPadded (width + 1) n = ds.map CodePoint.digit ∧ ds.length = width + 1 ∧
      (∀ d ∈ ds, d < 10) ∧ ofDigits 10 ds = n
  | 0, n, h => ⟨[n], ofNatPadded_one h, rfl, List.forall_mem_singleton.mpr h, by simp [ofDigits]⟩
  | width + 1, n, h => by
    rw [Nat.pow_succ] at h
    have hfront : n / 10 < 10 ^ (width + 1) := Nat.div_lt_of_lt_mul (by omega)
    obtain ⟨ds, hds, hlength, hdigits, hvalue⟩ := exists_digits_ofNatPadded hfront
    have hlast : n % 10 < 10 := Nat.mod_lt n (by decide)
    refine ⟨ds ++ [n % 10], ?_, ?_, ?_, ?_⟩
    · rw [ofNatPadded_succ, hds, List.map_append]
      rfl
    · rw [List.length_append, hlength]
      rfl
    · exact List.forall_mem_append.mpr ⟨hdigits, List.forall_mem_singleton.mpr hlast⟩
    · rw [ofDigits_append, hvalue]
      show n / 10 * 10 ^ 1 + (0 * 10 + n % 10) = n
      omega

end

/-! ## Fractions -/

/-- The first digits of a fraction, with zeros behind them where there are too few, are the whole part of
the fraction at that precision. -/
theorem ofDigits_cut (k : Nat) {ds : List Nat} (h : ∀ d ∈ ds, d < 10) :
    ofDigits 10 (ds.take k ++ List.replicate (k - (ds.take k).length) 0)
      = ofDigits 10 ds * 10 ^ k / 10 ^ ds.length := by
  rw [ofDigits_append, ofDigits_zeros, Nat.add_zero, List.length_replicate]
  rcases Nat.le_total ds.length k with hlength | hlength
  · rw [List.take_of_length_le hlength]
    rw [← Nat.sub_add_cancel hlength, Nat.pow_add, ← Nat.mul_assoc,
      Nat.mul_div_cancel _ (Nat.pow_pos (by decide)), Nat.sub_add_cancel hlength]
  · have hcut : (ds.take k).length = k := List.length_take_of_le hlength
    have hbehind : ofDigits 10 (ds.drop k) < 10 ^ (ds.length - k) := by
      rw [← List.length_drop]
      exact ofDigits_lt fun d hd => h d (List.mem_of_mem_drop hd)
    have hsplit : ofDigits 10 ds
        = ofDigits 10 (ds.take k) * 10 ^ (ds.length - k) + ofDigits 10 (ds.drop k) := by
      rw [← List.length_drop, ← ofDigits_append, List.take_append_drop]
    rw [hcut, Nat.sub_self, Nat.pow_zero, Nat.mul_one, hsplit]
    calc ofDigits 10 (ds.take k)
        = (ofDigits 10 (ds.take k) * 10 ^ (ds.length - k) + ofDigits 10 (ds.drop k))
            / 10 ^ (ds.length - k) := by
          rw [Nat.mul_comm, Nat.mul_add_div (Nat.pow_pos (by decide)), Nat.div_eq_of_lt hbehind,
            Nat.add_zero]
      _ = _ := by
          rw [← Nat.mul_div_mul_right _ _ (Nat.pow_pos (by decide) : 0 < 10 ^ k), ← Nat.pow_add,
            Nat.sub_add_cancel hlength]

end LogQuery
