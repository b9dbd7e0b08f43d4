import LogQuery.Number.Shortest
import LogQuery.Proofs.Number.Canonical
import LogQuery.Proofs.Number.Rounded
import Mathlib.Algebra.Order.Field.Power
import Mathlib.Data.List.TakeWhile
import Mathlib.Tactic.Linarith
import Mathlib.Tactic.Positivity
import Mathlib.Tactic.Ring
/-!
# Shortest forms are number literals

The search for the shortest decimal ends with a point of some grid, because the last of its grids is
finer than the neighbourhood of any number of the format (`scale_fine`): seventeen digits behind the
first one suffice. The point is not zero, so it has significant digits, and these are laid out as a
number literal wherever the point stands (`isDecimal_layDigits`).

* `shortestDecimal_ne_zero`: the search of grids does not come back without digits.
* `toText_eq`: the form of a finite number.
-/
namespace LogQuery.Binary64

open Json (IsFraction IsExponent IsDecimal)

/-! ## Points of a grid -/

theorem holds_of_pointIn? {nb : Neighbourhood} {s : Scale} {point : Nat}
    (h : pointIn? nb s = some point) : holds nb s point = true := by
  unfold pointIn? at h
  simp only at h
  split at h
  next hbelow habove =>
    split at h
    · exact Option.some.inj h ▸ hbelow
    split at h
    · exact Option.some.inj h ▸ habove
    · rw [← Option.some.inj h]
      split
      · exact hbelow
      · exact habove
  next hbelow _ => exact Option.some.inj h ▸ hbelow
  next _ habove => exact Option.some.inj h ▸ habove
  next => cases h

theorem ne_zero_of_holds {nb : Neighbourhood} {s : Scale} {point : Nat} (hlow : 0 < nb.low)
    (hup : 0 < s.up) (h : holds nb s point = true) : point ≠ 0 := by
  rintro rfl
  have hpos : 0 < nb.low * s.up := Nat.mul_pos hlow hup
  unfold holds at h
  simp only [Nat.zero_mul] at h
  split at h <;> simp only [Bool.and_eq_true, decide_eq_true_eq] at h <;> omega

/-- A grid that is not too coarse has a point in the neighbourhood: the first one above the number. -/
theorem exists_pointIn? {nb : Neighbourhood} {s : Scale} (hlow : nb.low ≤ nb.centre)
    (hhigh : nb.centre + 2 ≤ nb.high) (hdown : 0 < s.down) (hfine : s.down ≤ s.up) :
    ∃ point, pointIn? nb s = some point := by
  have habove : holds nb s (nb.centre * s.up / s.down + 1) = true := by
    have hdiv := Nat.div_add_mod (nb.centre * s.up) s.down
    have hmod := Nat.mod_lt (nb.centre * s.up) hdown
    have hlow' : nb.low * s.up ≤ nb.centre * s.up := Nat.mul_le_mul_right _ hlow
    have hhigh' : nb.centre * s.up + 2 * s.up ≤ nb.high * s.up := by
      rw [← Nat.add_mul]
      exact Nat.mul_le_mul_right _ hhigh
    have hpoint : (nb.centre * s.up / s.down + 1) * s.down
        = s.down * (nb.centre * s.up / s.down) + s.down := by
      rw [Nat.succ_mul, Nat.mul_comm]
    unfold holds
    simp only [hpoint]
    split <;> simp only [Bool.and_eq_true, decide_eq_true_eq] <;> omega
  unfold pointIn?
  simp only [habove]
  cases holds nb s (nb.centre * s.up / s.down)
  · exact ⟨_, rfl⟩
  · simp only
    split
    · exact ⟨_, rfl⟩
    split <;> exact ⟨_, rfl⟩

theorem scale_pos (e g : Int) : 0 < (scale e g).up ∧ 0 < (scale e g).down := by
  simp only [scale, Nat.pow_eq]
  constructor <;> positivity

theorem searchGrids_ne_zero {nb : Neighbourhood} {e : Int} (hlow : 0 < nb.low) :
    ∀ {tries k : Nat} {g : Int}, k < tries → (∃ point, pointIn? nb (scale e (g - k)) = some point) →
      (searchGrids nb e tries g).1 ≠ 0
  | tries + 1, k, g, hk, hpoint => by
    unfold searchGrids
    split
    next hfound => exact ne_zero_of_holds hlow (scale_pos e g).1 (holds_of_pointIn? hfound)
    next hnone =>
      cases k with
      | zero =>
        obtain ⟨point, hpoint⟩ := hpoint
        rw [Int.natCast_zero, Int.sub_zero, hnone] at hpoint
        cases hpoint
      | succ k =>
        refine searchGrids_ne_zero hlow (k := k) (by omega) ?_
        rw [show g - 1 - (k : Int) = g - ((k + 1 : Nat) : Int) by omega]
        exact hpoint

/-! ## Powers of ten and of two -/

theorem toNat_pow {b : Rat} (hb : b ≠ 0) (n : Int) : b ^ n.toNat = b ^ n * b ^ (-n).toNat := by
  rw [← zpow_natCast, ← zpow_natCast, ← zpow_add₀ hb]
  congr 1
  omega

theorem pow_le_iff (m : Nat) (k e : Int) :
    Nat.pow 10 k.toNat * Nat.pow 2 (-e).toNat ≤ m * Nat.pow 2 e.toNat * Nat.pow 10 (-k).toNat ↔
      (10 : Rat) ^ k ≤ m * (2 : Rat) ^ e := by
  have hpos : (0 : Rat) < 10 ^ (-k).toNat * 2 ^ (-e).toNat := by positivity
  rw [← mul_le_mul_iff_of_pos_right hpos, ← @Nat.cast_le Rat]
  simp only [Nat.pow_eq]
  push_cast
  rw [toNat_pow (by norm_num) k, toNat_pow (b := 2) (by norm_num) e]
  have hleft : (10 : Rat) ^ k * 10 ^ (-k).toNat * 2 ^ (-e).toNat
      = 10 ^ k * (10 ^ (-k).toNat * 2 ^ (-e).toNat) := mul_assoc _ _ _
  have hright : (m : Rat) * (2 ^ e * 2 ^ (-e).toNat) * 10 ^ (-k).toNat
      = m * 2 ^ e * (10 ^ (-k).toNat * 2 ^ (-e).toNat) := by ring
  rw [hleft, hright]

/-- The estimate of a decimal exponent from a binary one. -/
def estimate (k : Int) : Int := (k * 30103).fdiv 100000

/-- A power of ten is below a power of two if their exponents are in the ratio of powers that are so. -/
theorem ten_zpow_le_two_zpow {p k j : Int} {n : Nat} (hn : n ≠ 0)
    (hratio : (10 : Rat) ^ (p * k) ≤ (2 : Rat) ^ (n * k)) (h : j * n ≤ p * k) :
    (10 : Rat) ^ j ≤ (2 : Rat) ^ k := by
  refine le_of_pow_le_pow_left₀ hn (by positivity) ?_
  calc ((10 : Rat) ^ j) ^ n = 10 ^ (j * n) := by rw [zpow_mul, zpow_natCast]
    _ ≤ 10 ^ (p * k) := zpow_le_zpow_right₀ (by norm_num) h
    _ ≤ 2 ^ (n * k) := hratio
    _ = (2 ^ k) ^ n := by rw [mul_comm, zpow_mul, zpow_natCast]

theorem ten_zpow_estimate_le {k : Int} (hmin : -1074 ≤ k) (hmax : k < 1026) :
    (10 : Rat) ^ (estimate k - 1) ≤ (2 : Rat) ^ k := by
  have hestimate : 100000 * estimate k ≤ 30103 * k := by
    rw [estimate, Int.fdiv_eq_ediv_of_nonneg _ (by decide)]
    omega
  -- `10^59` lies closely below `2^196`, and `2^93` below `10^28`.
  rcases Int.le_total 0 k with hk | hk
  · refine ten_zpow_le_two_zpow (p := 59) (n := 196) (by decide) ?_ (by omega)
    have hpow := zpow_le_zpow_left₀ hk (by positivity)
      (show (10 : Rat) ^ (59 : Int) ≤ 2 ^ (196 : Int) by norm_num)
    rwa [← zpow_mul, ← zpow_mul] at hpow
  · refine ten_zpow_le_two_zpow (p := 28) (n := 93) (by decide) ?_ (by omega)
    obtain ⟨n, rfl⟩ := Int.exists_eq_neg_ofNat hk
    have hpow := zpow_le_zpow_left₀ (Int.natCast_nonneg n) (by positivity)
      (show (2 : Rat) ^ (93 : Int) ≤ 10 ^ (28 : Int) by norm_num)
    rw [← zpow_mul, ← zpow_mul] at hpow
    rw [mul_neg, mul_neg, zpow_neg, zpow_neg]
    exact inv_anti₀ (by positivity) hpow

theorem ten_zpow_decimalExponent_le {m : Nat} {e : Int} (hm : m ≠ 0) (hbits : m ≤ 2 ^ 54)
    (hmin : minExponent ≤ e) (hmax : e ≤ maxExponent) :
    (10 : Rat) ^ decimalExponent m e ≤ m * (2 : Rat) ^ e := by
  have hlog : m.log2 < 55 := (Nat.log2_lt hm).mpr (by omega)
  simp only [minExponent, maxExponent] at hmin hmax
  unfold decimalExponent
  simp only [decide_eq_true_eq, pow_le_iff]
  split
  · assumption
  split
  · assumption
  · calc (10 : Rat) ^ (estimate (m.log2 + e) - 1)
        ≤ (2 : Rat) ^ ((m.log2 : Int) + e) := ten_zpow_estimate_le (by omega) (by omega)
      _ = (2 : Rat) ^ m.log2 * (2 : Rat) ^ e := by rw [zpow_add₀ (by norm_num), zpow_natCast]
      _ ≤ m * (2 : Rat) ^ e := by
        have hself : ((2 ^ m.log2 : Nat) : Rat) ≤ m := Nat.cast_le.mpr (Nat.log2_self_le hm)
        push_cast at hself
        exact mul_le_mul_of_nonneg_right hself (by positivity)

theorem scale_fine {m : Nat} {e : Int} (hm : m ≠ 0) (hbits : m ≤ 2 ^ 54) (hmin : minExponent ≤ e)
    (hmax : e ≤ maxExponent) :
    (scale e (decimalExponent m e - 17)).down ≤ (scale e (decimalExponent m e - 17)).up := by
  have hle := ten_zpow_decimalExponent_le hm hbits hmin hmax
  have hbits' : (m : Rat) ≤ 2 ^ 54 := by exact_mod_cast hbits
  have hgrid : (10 : Rat) ^ (decimalExponent m e - 17) ≤ (1 : Nat) * (2 : Rat) ^ (e - 2) := by
    rw [zpow_sub₀ (by norm_num), zpow_sub₀ (by norm_num)]
    have hpos : (0 : Rat) < 2 ^ e := by positivity
    rw [div_le_iff₀ (by positivity)]
    calc (10 : Rat) ^ decimalExponent m e ≤ m * 2 ^ e := hle
      _ ≤ 2 ^ 54 * 2 ^ e := mul_le_mul_of_nonneg_right hbits' hpos.le
      _ ≤ ((1 : Nat) : Rat) * (2 ^ e / 2 ^ (2 : Int)) * 10 ^ (17 : Int) := by
        norm_num
        linarith
  have hpow := (pow_le_iff 1 (decimalExponent m e - 17) (e - 2)).mpr hgrid
  rw [Nat.one_mul, show -(e - 2) = 2 - e by omega] at hpow
  exact hpow

theorem shortestDecimal_ne_zero {m : Nat} {e : Int} (hm : m ≠ 0) (hbits : m ≤ 2 ^ 54)
    (hmin : minExponent ≤ e) (hmax : e ≤ maxExponent) : (shortestDecimal m e).1 ≠ 0 := by
  have hlow : 0 < (neighbourhood m e).low := by
    simp only [neighbourhood]
    split <;> omega
  refine searchGrids_ne_zero hlow (k := 17) (by decide) ?_
  exact exists_pointIn? (by simp [neighbourhood]) (Nat.le_refl _) (scale_pos _ _).2
    (scale_fine hm hbits hmin hmax)


/-! ## Digits and a point -/

theorem isAsciiDigit_ofChars {cs : List Char} (h : ∀ c ∈ cs, c.isDigit = true) :
    ∀ p ∈ Text.ofChars cs, p.isAsciiDigit = true := by
  intro p hp
  obtain ⟨c, hc, rfl⟩ := List.mem_map.mp hp
  simp [CodePoint.isAsciiDigit, CodePoint.asciiDigit?_scalar (h c hc)]

theorem ofChars_ne_nil {cs : List Char} (h : cs ≠ []) : Text.ofChars cs ≠ [] := by
  simpa [Text.ofChars] using h

theorem ofChars_append (a b : List Char) : Text.ofChars (a ++ b) = Text.ofChars a ++ Text.ofChars b :=
  List.map_append

/-- Digits of which the first is no zero. -/
structure IsSignificant (digits : List Char) : Prop where
  digit : ∀ c ∈ digits, c.isDigit = true
  first : ∃ d ds, digits = d :: ds ∧ d ≠ '0'

theorem IsSignificant.exists_ofNat {digits : List Char} (h : IsSignificant digits) (more : List Char)
    (hmore : ∀ c ∈ more, c.isDigit = true) : ∃ n, Text.ofChars (digits ++ more) = Text.ofNat n := by
  obtain ⟨d, ds, rfl, hd⟩ := h.first
  have hall : ∀ c ∈ d :: (ds ++ more), c.isDigit = true := by
    intro c hc
    rcases List.mem_append.mp (show c ∈ (d :: ds) ++ more from hc) with hc | hc
    · exact h.digit c hc
    · exact hmore c hc
  exact ⟨_, (Text.ofNat_digits (by simpa using hd) _ (isAsciiDigit_ofChars hall)).symm⟩

theorem isDigit_replicate (n : Nat) : ∀ c ∈ List.replicate n '0', c.isDigit = true := by
  intro c hc
  rw [List.eq_of_mem_replicate hc]
  rfl

theorem isExponent_exponentText (k : Int) :
    IsExponent (Text.ofChars ('e' :: exponentText k)) := by
  have hdigits : ∀ c ∈ Nat.toDigits 10 k.natAbs, c.isDigit = true := fun c hc =>
    Nat.isDigit_of_mem_toDigits (by decide) (by decide) hc
  have hpadded : (if (Nat.toDigits 10 k.natAbs).length < 2 then '0' :: Nat.toDigits 10 k.natAbs
      else Nat.toDigits 10 k.natAbs) ≠ [] := by
    split <;> simp
  have hsign : (if k < 0 then '-' else '+') = '+' ∨ (if k < 0 then '-' else '+') = '-' := by
    split
    · exact Or.inr rfl
    · exact Or.inl rfl
  refine .power hsign (ofChars_ne_nil hpadded) (isAsciiDigit_ofChars fun c hc => ?_)
  split at hc
  · rcases List.mem_cons.mp hc with rfl | hc
    · rfl
    · exact hdigits c hc
  · exact hdigits c hc

theorem IsSignificant.take {digits : List Char} (h : IsSignificant digits) {n : Nat} (hn : n ≠ 0) :
    IsSignificant (digits.take n) := by
  refine ⟨fun c hc => h.digit c (List.mem_of_mem_take hc), ?_⟩
  obtain ⟨d, ds, rfl, hd⟩ := h.first
  obtain ⟨k, rfl⟩ := Nat.exists_eq_succ_of_ne_zero hn
  exact ⟨d, ds.take k, rfl, hd⟩

theorem isFraction_ofChars (cs : List Char) (hne : cs ≠ []) (h : ∀ c ∈ cs, c.isDigit = true) :
    IsFraction (Text.ofChars ('.' :: cs)) :=
  .point (ofChars_ne_nil hne) (isAsciiDigit_ofChars h)

/-- **Significant digits are laid out as a number literal**, wherever the point stands. -/
theorem isDecimal_layDigits {digits : List Char} (h : IsSignificant digits) (point : Int) :
    IsDecimal (Text.ofChars (layDigits digits point)) := by
  unfold layDigits
  split
  · split
    · -- All digits are behind the point.
      have hfraction := isFraction_ofChars (List.replicate point.natAbs '0' ++ digits)
        (by obtain ⟨d, ds, rfl, -⟩ := h.first; simp)
        (List.forall_mem_append.mpr ⟨isDigit_replicate _, h.digit⟩)
      have hdecimal := IsDecimal.intro 0 hfraction .none (by simp [Text.ofChars])
      rwa [Text.ofNat_zero, List.append_nil] at hdecimal
    · -- Some digits are in front of the point, and zeros fill what is left up to it.
      obtain ⟨n, hn⟩ := (h.take (n := point.toNat) (by omega)).exists_ofNat _
        (isDigit_replicate (point.toNat - digits.length))
      have hfraction := isFraction_ofChars
        (if digits.drop point.toNat = [] then ['0'] else digits.drop point.toNat)
        (by split <;> simp_all)
        (by
          split
          · simp
          · exact fun c hc => h.digit c (List.mem_of_mem_drop hc))
      have hdecimal := IsDecimal.intro n hfraction .none (by simp [Text.ofChars])
      rwa [← hn, List.append_nil, ← ofChars_append] at hdecimal
  · -- One digit is in front of the point, and an exponent says where the point belongs.
    obtain ⟨n, hn⟩ := (h.take (n := 1) (by decide)).exists_ofNat [] (by simp)
    obtain ⟨d, ds, rfl, -⟩ := h.first
    have hfraction : IsFraction (Text.ofChars (if ds = [] then [] else '.' :: ds)) := by
      split
      next => exact .none
      next hne =>
        exact isFraction_ofChars ds hne fun c hc => h.digit c (List.mem_cons_of_mem d hc)
    have hdecimal := IsDecimal.intro n hfraction (isExponent_exponentText (point - 1))
      (by simp [Text.ofChars])
    rwa [← hn, ← ofChars_append, ← ofChars_append] at hdecimal

/-! ## Digits of a positive number -/

theorem isSignificant_strip {n : Nat} (hn : n ≠ 0) :
    IsSignificant ((Nat.toDigits 10 n).reverse.dropWhile (· = '0')).reverse := by
  have hfront : ((Nat.toDigits 10 n).reverse.dropWhile (· = '0')).reverse <+: Nat.toDigits 10 n := by
    rw [← List.reverse_suffix, List.reverse_reverse]
    exact List.dropWhile_suffix _
  refine ⟨fun c hc => Nat.isDigit_of_mem_toDigits (by decide) (by decide) (hfront.mem hc), ?_⟩
  obtain ⟨d, ds, hdigits⟩ := List.exists_cons_of_ne_nil (Nat.toDigits_ne_nil (n := n) (b := 10))
  have hd : d ≠ '0' := by
    rintro rfl
    exact hn (Text.eq_zero_of_head? (by rw [hdigits, List.head?_cons]))
  rw [hdigits] at hfront ⊢
  cases hstrip : ((d :: ds).reverse.dropWhile (· = '0')).reverse with
  | nil =>
    -- The first digit is not stripped.
    rw [List.reverse_eq_nil_iff, List.dropWhile_eq_nil_iff] at hstrip
    have hzero := hstrip d (by simp)
    exact absurd (by simpa using hzero) hd
  | cons c cs =>
    rw [hstrip] at hfront
    obtain ⟨rfl, -⟩ := List.cons_prefix_cons.mp hfront
    exact ⟨c, cs, rfl, hd⟩

/-- **A finite number is written as a number literal**, behind a minus sign or none. -/
theorem toText_eq {s : Bool} {m : Nat} {e : Int} (h : (finite s m e).inFormat = true) :
    ∃ t, IsDecimal t ∧ (finite s m e).toText = Text.signed s t := by
  obtain ⟨hbits, hmin, hmax⟩ := of_decide_eq_true h
  refine ⟨Text.ofChars (magnitudeText m e), ?_, ?_⟩
  · unfold magnitudeText
    split
    next =>
      have hzero := IsDecimal.intro 0 (isFraction_ofChars ['0'] (by simp) (by simp)) .none
        (by simp [Text.ofChars])
      rwa [Text.ofNat_zero, List.append_nil] at hzero
    next hm =>
      exact isDecimal_layDigits (isSignificant_strip (shortestDecimal_ne_zero hm hbits hmin hmax)) _
  · cases s <;> rfl

end LogQuery.Binary64
