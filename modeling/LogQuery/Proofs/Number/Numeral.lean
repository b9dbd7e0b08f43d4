import LogQuery.Json.Plain
import Mathlib.Algebra.Group.Nat.Defs
/-!
# Decimal numerals

What `Text.ofNat` and `Text.ofInt` write: ASCII digits, the first of them a zero only when it stands
alone, not more than the size of the number takes. `integerOf_ofInt` says that they are read back.
-/
namespace LogQuery

theorem CodePoint.asciiDigit?_scalar {c : Char} (h : c.isDigit = true) :
    (CodePoint.scalar c).asciiDigit? = some (c.toNat - '0'.toNat) := by
  have hc : '0' ≤ c ∧ c ≤ '9' := by simpa [Char.isDigit, Char.le_def] using h
  simp only [asciiDigit?, if_pos hc]

theorem CodePoint.code_of_isAsciiDigit {p : CodePoint} (h : p.isAsciiDigit = true) :
    0x30 ≤ p.code ∧ p.code ≤ 0x39 := by
  cases p with
  | surrogate o => cases h
  | scalar c =>
    simp only [isAsciiDigit, asciiDigit?] at h
    split at h
    next hc => exact hc
    next => cases h

namespace Text

theorem ofNat_eq_map (n : Nat) : ofNat n = (Nat.toDigits 10 n).map .scalar := rfl

theorem ofNat_ne_nil (n : Nat) : ofNat n ≠ [] := by simp [ofNat_eq_map]

theorem isAsciiDigit_of_mem_ofNat {n : Nat} {p : CodePoint} (h : p ∈ ofNat n) :
    p.isAsciiDigit = true := by
  rw [ofNat_eq_map] at h
  obtain ⟨c, hc, rfl⟩ := List.mem_map.mp h
  have hd := Nat.isDigit_of_mem_toDigits (by decide) (by decide) hc
  simp [CodePoint.isAsciiDigit, CodePoint.asciiDigit?_scalar hd]

theorem ofNat_first (n : Nat) : ∃ p t, ofNat n = p :: t ∧ p.isAsciiDigit = true := by
  obtain ⟨p, t, h⟩ := List.exists_cons_of_ne_nil (ofNat_ne_nil n)
  exact ⟨p, t, h, isAsciiDigit_of_mem_ofNat (h ▸ List.mem_cons_self)⟩

theorem length_ofNat_le_iff {n k : Nat} (hk : 0 < k) : (ofNat n).length ≤ k ↔ n < 10 ^ k := by
  rw [ofNat_eq_map, List.length_map]
  exact Nat.length_toDigits_le_iff (by decide) hk

theorem eq_zero_of_head? {n : Nat} (h : (Nat.toDigits 10 n).head? = some '0') : n = 0 := by
  induction n using Nat.strongRecOn with
  | ind n ih =>
    rw [Nat.toDigits_eq_if (by decide)] at h
    split at h
    · rename_i hlt
      have hd : n.digitChar = '0' := by simpa using h
      have := congrArg (fun c : Char => c.toNat - 48) hd
      simpa [Nat.toNat_digitChar_sub_48_of_lt_ten hlt] using this
    · rename_i hge
      have hne : (Nat.toDigits 10 (n / 10)).head? ≠ none := by simp
      rw [List.head?_append, Option.or_eq_left_of_isSome (Option.isSome_iff_ne_none.mpr hne)] at h
      have := ih (n / 10) (by omega) h
      omega

theorem ofNat_zero_first {n : Nat} {t : Text} (h : ofNat n = .scalar '0' :: t) : t = [] := by
  rw [ofNat_eq_map] at h
  obtain ⟨c, cs, hcs, hc, rfl⟩ := List.map_eq_cons_iff.mp h
  obtain rfl : n = 0 := eq_zero_of_head? (by rw [hcs, CodePoint.scalar.inj hc]; rfl)
  rw [Nat.toDigits_zero] at hcs
  cases hcs
  rfl

theorem ofDigits_ofNat (n : Nat) :
    LogQuery.ofDigits 10 ((ofNat n).filterMap CodePoint.asciiDigit?) = n := by
  have hdigits : ∀ cs : List Char, (∀ c ∈ cs, c.isDigit = true) →
      (cs.map CodePoint.scalar).filterMap CodePoint.asciiDigit? = cs.map (·.toNat - '0'.toNat) := by
    intro cs hcs
    induction cs with
    | nil => rfl
    | cons c cs ih =>
      rw [List.map_cons, List.filterMap_cons_some (CodePoint.asciiDigit?_scalar (hcs c (by simp))),
        ih fun d hd => hcs d (by simp [hd])]
      rfl
  rw [ofNat_eq_map, hdigits _ fun c hc => Nat.isDigit_of_mem_toDigits (by decide) (by decide) hc]
  have h := Nat.ofDigitChars_ten_toDigits (n := n)
  rw [Nat.ofDigitChars] at h
  rw [LogQuery.ofDigits, List.foldl_map]
  simpa only [Nat.mul_comm] using h

end Text

namespace Integer

theorem isWritable_iff {n : Int} : isWritable n = true ↔ n.natAbs < 10 ^ maxDigits := by
  rw [isWritable, decide_eq_true_eq, Nat.pow_eq]

theorem isWritable_of_lt {n : Int} (h : n.natAbs < 2 ^ 64) : isWritable n = true := by
  refine isWritable_iff.mpr (Nat.lt_of_lt_of_le h ?_)
  calc 2 ^ 64 ≤ 10 ^ 64 := Nat.pow_le_pow_left (by decide) 64
    _ ≤ 10 ^ maxDigits := Nat.pow_le_pow_right (by decide) (by decide)

theorem isWritable_mono {m n : Int} (h : isWritable n = true) (hm : m.natAbs ≤ n.natAbs) :
    isWritable m = true :=
  isWritable_iff.mpr (Nat.lt_of_le_of_lt hm (isWritable_iff.mp h))

end Integer

namespace Json

theorem readSign_ofNat (n : Nat) : Integer.readSign (Text.ofNat n) = (false, Text.ofNat n) := by
  unfold Integer.readSign
  split
  · rename_i h
    exact absurd (Text.isAsciiDigit_of_mem_ofNat (h ▸ List.mem_cons_self)) (by decide)
  · rename_i h
    exact absurd (Text.isAsciiDigit_of_mem_ofNat (h ▸ List.mem_cons_self)) (by decide)
  · rfl

theorem integerOf_ofNat (n : Nat) : integerOf (Text.ofNat n) = n := by
  simp only [integerOf, readSign_ofNat, Bool.false_eq_true, if_false, Text.ofDigits_ofNat]

theorem integerOf_minus (n : Nat) : integerOf (.scalar '-' :: Text.ofNat n) = -n := by
  simp only [integerOf, Integer.readSign, if_true, Text.ofDigits_ofNat]

theorem integerOf_ofInt (n : Int) : integerOf (Text.ofInt n) = n := by
  unfold Text.ofInt
  split
  · rw [integerOf_minus]; omega
  · rw [integerOf_ofNat]; omega

end Json
end LogQuery
