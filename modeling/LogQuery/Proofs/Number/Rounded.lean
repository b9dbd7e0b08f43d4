import LogQuery.Number.Binary64
import LogQuery.Proofs.Number.Numeral
/-!
# The size of rounded numbers

Rounding takes the exponent of the unit from the sizes of numerator and denominator, so that a fraction
has a mantissa of few bits however large it is. With the greatest exponent of the format this bounds
what is left of a fraction when its rounded number is cut to a whole one.

* `ofRatio_eq_finite`: mantissa and exponent of a rounded fraction.
* `isWritable_whole_ofRatio`: its whole part can be written.
* `inFormat_decimalOf`: a number that is read from a literal has the size of a rounded one.
-/
namespace LogQuery.Binary64

theorem unitExponent_ge (num den : Nat) :
    (num.log2 : Int) - den.log2 - 53 ≤ unitExponent num den := by
  unfold unitExponent
  dsimp only
  split <;> omega

theorem minExponent_le_unitExponent (num den : Nat) : minExponent ≤ unitExponent num den :=
  Int.le_max_left _ _

theorem inUnits_div_lt {num den : Nat} {e : Int} (hden : den ≠ 0)
    (he : (num.log2 : Int) - den.log2 - 53 ≤ e) :
    (inUnits num den e).1 / (inUnits num den e).2 < 2 ^ 54 := by
  have hnum : num < 2 ^ (num.log2 + 1) := Nat.lt_log2_self
  have hlog : 2 ^ den.log2 ≤ den := Nat.log2_self_le hden
  have hpos : 0 < 2 ^ e.natAbs := Nat.two_pow_pos _
  unfold inUnits
  split
  next hneg =>
    refine Nat.div_lt_of_lt_mul ?_
    calc num * 2 ^ e.natAbs
        < 2 ^ (num.log2 + 1) * 2 ^ e.natAbs := Nat.mul_lt_mul_of_pos_right hnum hpos
      _ = 2 ^ (num.log2 + 1 + e.natAbs) := (Nat.pow_add _ _ _).symm
      _ ≤ 2 ^ (den.log2 + 54) := Nat.pow_le_pow_right Nat.two_pos (by omega)
      _ = 2 ^ den.log2 * 2 ^ 54 := Nat.pow_add _ _ _
      _ ≤ den * 2 ^ 54 := Nat.mul_le_mul_right _ hlog
  next hneg =>
    refine Nat.div_lt_of_lt_mul ?_
    calc num < 2 ^ (num.log2 + 1) := hnum
      _ ≤ 2 ^ (den.log2 + e.natAbs + 54) := Nat.pow_le_pow_right Nat.two_pos (by omega)
      _ = 2 ^ den.log2 * 2 ^ e.natAbs * 2 ^ 54 := by rw [Nat.pow_add, Nat.pow_add]
      _ ≤ den * 2 ^ e.natAbs * 2 ^ 54 := Nat.mul_le_mul_right _ (Nat.mul_le_mul_right _ hlog)

theorem roundDiv_le (num den : Nat) : roundDiv num den ≤ num / den + 1 := by
  unfold roundDiv
  dsimp only
  split
  · omega
  split
  · omega
  split <;> omega

theorem ofRatio_eq_finite {s s' : Bool} {num den m : Nat} {e : Int} (hden : den ≠ 0)
    (h : ofRatio s num den = finite s' m e) : m ≤ 2 ^ 54 ∧ minExponent ≤ e ∧ e ≤ maxExponent := by
  have hunit := minExponent_le_unitExponent num den
  have hunits := inUnits_div_lt hden (unitExponent_ge num den)
  have hround := roundDiv_le (inUnits num den (unitExponent num den)).1
    (inUnits num den (unitExponent num den)).2
  unfold ofRatio at h
  dsimp only at h
  split at h
  · cases h
    decide
  split at h
  · split at h
    · cases h
    · cases h
      exact ⟨Nat.pow_le_pow_right Nat.two_pos (by decide), by omega, by omega⟩
  · split at h
    · cases h
    · cases h
      exact ⟨by omega, hunit, by omega⟩

def isFinite : Binary64 → Bool
  | finite _ _ _ => true
  | _ => false

/-- Whether a number, if it is finite, has the size of a rounded one. -/
def inFormat : Binary64 → Bool
  | finite _ m e => decide (m ≤ 2 ^ 54 ∧ minExponent ≤ e ∧ e ≤ maxExponent)
  | _ => true

theorem inFormat_ofRatio (s : Bool) (num : Nat) {den : Nat} (hden : den ≠ 0) :
    (ofRatio s num den).inFormat = true := by
  cases hratio : ofRatio s num den with
  | finite s' m e =>
    exact decide_eq_true (ofRatio_eq_finite hden hratio)
  | _ => rfl

theorem inFormat_ofDecimal (s : Bool) (n width : Nat) (exponent : Int) :
    (ofDecimal s n width exponent).inFormat = true := by
  unfold ofDecimal
  repeat' split
  · rfl
  · rfl
  · rfl
  · exact inFormat_ofRatio s n (Nat.ne_of_gt (Nat.pow_pos (by decide)))
  · exact inFormat_ofRatio s _ Nat.one_ne_zero

theorem inFormat_decimalOf (literal : Text) : (Json.decimalOf literal).inFormat = true := by
  unfold Json.decimalOf
  cases hread : Decimal.readPlain? literal with
  | none => rfl
  | some x =>
    simp only [Decimal.readPlain?] at hread
    split at hread
    · cases hread
    · obtain ⟨k, -, rfl⟩ := Option.map_eq_some_iff.mp hread
      exact inFormat_ofDecimal _ _ _ _

theorem natAbs_le_of_truncate? {s : Bool} {m : Nat} {e n : Int}
    (h : (finite s m e).truncate? = some n) : n.natAbs ≤ m * 2 ^ e.toNat := by
  have hsign : n.natAbs =
      (if e < 0 then (m : Int) / Nat.pow 2 e.natAbs else m * Nat.pow 2 e.natAbs).natAbs := by
    rw [← Option.some.inj h]
    cases s
    · rfl
    · exact Int.natAbs_neg _
  rw [hsign]
  split
  next hneg =>
    rw [Int.toNat_of_nonpos (by omega), Nat.pow_zero, Nat.mul_one]
    exact Nat.div_le_self m (Nat.pow 2 e.natAbs)
  next hneg =>
    rw [show e.toNat = e.natAbs by omega]
    exact Nat.le_refl (m * Nat.pow 2 e.natAbs)

theorem isWritable_of_bits {n : Int} {m i j : Nat} (hm : m ≤ 2 ^ i) (hbits : i + j < Integer.maxDigits)
    (h : n.natAbs ≤ m * 2 ^ j) : Integer.isWritable n = true := by
  have hpow : ∀ k, i + j < k → n.natAbs < 10 ^ k := by
    intro k hk
    calc n.natAbs ≤ m * 2 ^ j := h
      _ ≤ 2 ^ i * 2 ^ j := Nat.mul_le_mul_right _ hm
      _ = 2 ^ (i + j) := (Nat.pow_add 2 i j).symm
      _ < 2 ^ k := Nat.pow_lt_pow_right (by decide) hk
      _ ≤ 10 ^ k := Nat.pow_le_pow_left (by decide) k
  exact Integer.isWritable_iff.mpr (hpow _ hbits)

theorem isWritable_whole_ofRatio (s : Bool) (num : Nat) {den : Nat} (hden : den ≠ 0) :
    Integer.isWritable ((ofRatio s num den).truncate?.getD 0) = true := by
  have hzero : Integer.isWritable 0 = true :=
    isWritable_of_bits (i := 0) (j := 0) (Nat.zero_le _) (by decide) (Nat.zero_le _)
  cases hratio : ofRatio s num den with
  | nan => exact hzero
  | infinite s' => exact hzero
  | finite s' m e =>
    obtain ⟨hm, -, he⟩ := ofRatio_eq_finite hden hratio
    have hexponent : e.toNat ≤ 971 := Int.toNat_le.mpr he
    refine isWritable_of_bits hm ?_ (natAbs_le_of_truncate? rfl)
    show 54 + e.toNat < 4300
    omega

end LogQuery.Binary64
