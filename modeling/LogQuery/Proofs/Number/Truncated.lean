import LogQuery.Number.Binary64
import LogQuery.Proofs.Number.Numeral
/-!
# Whole parts of rounded fractions

A number of microseconds is divided by a million, rounded to double precision and then cut to whole
seconds. Rounding may reach the next second only where the unit of the rounded number is coarser than a
microsecond, which is never so below `2^34` seconds: up to there the whole part is that of the exact
quotient (`truncate?_ofRatio_million`).
-/
namespace LogQuery.Binary64

theorem roundDiv_spec (num : Nat) {den : Nat} (hden : 0 < den) :
    num / den ≤ roundDiv num den ∧ 2 * (den * roundDiv num den) ≤ 2 * num + den := by
  have hsplit : den * (num / den) + num % den = num := Nat.div_add_mod num den
  have hsucc : den * (num / den + 1) = den * (num / den) + den := Nat.mul_succ _ _
  have hlt : num % den < den := Nat.mod_lt num hden
  unfold roundDiv
  dsimp only
  split
  · omega
  split
  · rw [hsucc]
    omega
  split
  · omega
  · rw [hsucc]
    omega

/-- In units of at most `2^-19` a rounded number of microseconds does not reach the next second. -/
theorem roundDiv_million (num : Nat) {k : Nat} (hk : 19 ≤ k) :
    roundDiv (num * 2 ^ k) 1000000 / 2 ^ k = num / 1000000 := by
  have hpow : 2 ^ 19 ≤ 2 ^ k := Nat.pow_le_pow_right Nat.two_pos hk
  obtain ⟨hlow, hhigh⟩ := roundDiv_spec (num * 2 ^ k) (by decide : 0 < 1000000)
  apply Nat.le_antisymm
  · apply Nat.le_of_lt_succ
    rw [Nat.div_lt_iff_lt_mul (by omega)]
    have hnum : num + 1 ≤ (num / 1000000 + 1) * 1000000 := by omega
    have hscaled : (num + 1) * 2 ^ k ≤ (num / 1000000 + 1) * 1000000 * 2 ^ k :=
      Nat.mul_le_mul_right _ hnum
    rw [Nat.add_mul, Nat.one_mul, Nat.mul_right_comm] at hscaled
    show _ < (num / 1000000 + 1) * 2 ^ k
    omega
  · rw [Nat.le_div_iff_mul_le (by omega)]
    refine Nat.le_trans ?_ hlow
    rw [Nat.le_div_iff_mul_le (by decide), Nat.mul_right_comm]
    exact Nat.mul_le_mul_right _ (Nat.div_mul_le_self num 1000000)

/-- Below `2^34` seconds the unit of a number of microseconds is at most `2^-19` seconds. -/
theorem unitExponent_million {num : Nat} (h : num < 2 ^ 34 * 1000000) :
    unitExponent num 1000000 ≤ -19 := by
  have hlog : num.log2 ≤ 53 := by
    by_cases hzero : num = 0
    · rw [hzero]
      decide
    · exact Nat.le_of_lt_succ ((Nat.log2_lt hzero).mpr (Nat.lt_trans h (by decide)))
  have hden : Nat.log2 1000000 = 19 := by decide
  unfold unitExponent
  rw [hden]
  dsimp only
  by_cases htop : num.log2 = 53
  · -- With this exponent the quotient would have to reach `2^34`.
    have hsmall : (inUnits num 1000000 (-18)).1 / (inUnits num 1000000 (-18)).2 < Nat.pow 2 52 := by
      show num * Nat.pow 2 18 / 1000000 < _
      rw [Nat.div_lt_iff_lt_mul (by decide)]
      show num * 2 ^ 18 < 2 ^ 52 * 1000000
      omega
    have hexponent : ((53 : Nat) : Int) - (19 : Nat) - 52 = -18 := rfl
    rw [htop, hexponent, if_pos hsmall, minExponent]
    decide
  · rw [minExponent]
    split <;> omega

/-- **Whole seconds** of a number of microseconds, through double precision. -/
theorem truncate?_ofRatio_million {num : Nat} (h : num < 2 ^ 34 * 1000000) :
    (ofRatio false num 1000000).truncate? = some ((num / 1000000 : Nat) : Int) := by
  by_cases hzero : num = 0
  · rw [hzero, ofRatio, if_pos rfl]
    simp only [zero, truncate?, Nat.zero_div, Int.natCast_zero, Int.zero_ediv, Int.zero_mul, ite_self,
      Bool.false_eq_true, if_false]
  have hunit := unitExponent_million h
  have hmax : ∀ e : Int, e ≤ 0 → ¬ maxExponent < e := by
    intro e he
    rw [maxExponent]
    omega
  generalize he : unitExponent num 1000000 = e at hunit
  have hunits : inUnits num 1000000 e = (num * 2 ^ e.natAbs, 1000000) := if_pos (by omega)
  have hround := roundDiv_million num (k := e.natAbs) (by omega)
  simp only [ofRatio, if_neg hzero, he, hunits]
  by_cases hcarry : roundDiv (num * 2 ^ e.natAbs) 1000000 = Nat.pow 2 53
  · -- The mantissa has one bit too many and loses it to the exponent.
    rw [if_pos hcarry]
    simp only [if_neg (hmax (e + 1) (by omega)), truncate?, if_pos (show e + 1 < 0 by omega)]
    have hexponent : e.natAbs = (e + 1).natAbs + 1 := by omega
    have hbit : Nat.pow 2 53 = 2 ^ 52 * 2 := rfl
    rw [hcarry, hbit, hexponent, Nat.pow_succ 2 (e + 1).natAbs, Nat.mul_div_mul_right _ _ Nat.two_pos]
      at hround
    rw [← hround]
    rfl
  · rw [if_neg hcarry]
    simp only [if_neg (hmax e (by omega)), truncate?, if_pos (show e < 0 by omega)]
    rw [← hround]
    rfl

end LogQuery.Binary64
