import LogQuery.Proofs.Number.Numeral
import LogQuery.Proofs.Text.Split
/-!
# Reading written integers

A written integer has nothing around it to trim and no underscores in it, so all of its digits are read.
`read_ofInt` says that it is read back by the reader of numerals that people write, which takes much
more than what is written here.
-/
namespace LogQuery

namespace CodePoint

variable {p : CodePoint} (h : p.isAsciiDigit = true)
include h

theorem asciiDigit?_eq : p.asciiDigit? = some (p.code - 0x30) := by
  cases p with
  | surrogate o => cases h
  | scalar c => exact if_pos (code_of_isAsciiDigit h)

theorem decimal?_eq : p.decimal? = some (p.code - 0x30) := by
  have hcode := code_of_isAsciiDigit h
  rw [decimal?, if_pos (by omega), asciiDigit?_eq h]

theorem plainDigit_eq : p.plainDigit = p := by
  have hcode := code_of_isAsciiDigit h
  cases p with
  | surrogate o => cases h
  | scalar c =>
    simp only [code] at hcode
    simp only [plainDigit, decimal?_eq h, code]
    have : '0'.toNat + (c.toNat - 0x30) = c.toNat := by
      show 0x30 + _ = _
      omega
    rw [this, Char.ofNat_toNat]

theorem isNumeralBlank_eq : p.isNumeralBlank = false := by
  have hcode := code_of_isAsciiDigit h
  simp only [isNumeralBlank, isBlank, if_pos (show p.code < 0x80 by omega), Bool.and_eq_false_iff,
    Bool.or_eq_false_iff, decide_eq_false_iff_not]
  omega

theorem digitIn?_eq : p.digitIn? 10 = some (p.code - 0x30) := by
  have hcode := code_of_isAsciiDigit h
  cases p with
  | surrogate o => cases h
  | scalar c =>
    have : (CodePoint.scalar c).hexDigit? = some (c.toNat - 0x30) := if_pos hcode
    rw [digitIn?, this, Option.filter_some, if_pos]
    · rfl
    · simp only [code] at hcode
      simp only [decide_eq_true_eq]
      omega

end CodePoint

namespace Text

theorem plainNumeral_ofInt (n : Int) : (ofInt n).plainNumeral = ofInt n := by
  have hplain : ∀ p ∈ ofInt n, p.isNumeralBlank = false ∧ p.plainDigit = p := by
    intro p hp
    have hdigit : p ∈ ofNat n.natAbs → p.isNumeralBlank = false ∧ p.plainDigit = p := fun hp =>
      have h := isAsciiDigit_of_mem_ofNat hp
      ⟨CodePoint.isNumeralBlank_eq h, CodePoint.plainDigit_eq h⟩
    unfold ofInt at hp
    split at hp
    · rcases List.mem_cons.mp hp with rfl | hp
      · exact ⟨rfl, rfl⟩
      · exact hdigit hp
    · exact hdigit hp
  rw [plainNumeral, trim_eq_self fun p hp => (hplain p hp).1]
  exact (List.map_congr_left fun p hp => (hplain p hp).2).trans (List.map_id _)

end Text

namespace Integer

theorem digitRun_digits : ∀ {t : Text}, (∀ p ∈ t, p.isAsciiDigit = true) →
    digitRun 10 t = (t.filterMap CodePoint.asciiDigit?, [])
  | [], _ => rfl
  | [p], h => by
    have hp := h p List.mem_cons_self
    simp only [digitRun, CodePoint.digitIn?_eq hp, List.filterMap_cons, CodePoint.asciiDigit?_eq hp,
      List.filterMap_nil]
  | p :: q :: t, h => by
    have hp := h p List.mem_cons_self
    have hrest := digitRun_digits fun r hr => h r (List.mem_cons_of_mem p hr)
    rw [List.filterMap_cons_some (CodePoint.asciiDigit?_eq hp)]
    simp only [digitRun, CodePoint.digitIn?_eq hp, hrest]

theorem readDigits_digits {t : Text} (h : ∀ p ∈ t, p.isAsciiDigit = true) :
    readDigits 10 t = (t.filterMap CodePoint.asciiDigit?, []) := by
  rw [← digitRun_digits h]
  unfold readDigits
  split
  · rfl
  · exact absurd (h _ List.mem_cons_self) (by decide)
  · rfl

theorem readSign_ofInt (n : Int) :
    readSign (Text.ofInt n) = (decide (n < 0), Text.ofNat n.natAbs) := by
  unfold Text.ofInt
  split
  next h => simp [readSign, h]
  next h => rw [Json.readSign_ofNat, decide_eq_false h]

theorem read_ofInt {n : Int} (h : isWritable n = true) : read 10 (Text.ofInt n) = .ok n := by
  have hdigits : ∀ p ∈ Text.ofNat n.natAbs, p.isAsciiDigit = true := fun p hp =>
    Text.isAsciiDigit_of_mem_ofNat hp
  have hlength : ((Text.ofNat n.natAbs).filterMap CodePoint.asciiDigit?).length ≤ maxDigits :=
    Nat.le_trans (List.length_filterMap_le _ _)
      ((Text.length_ofNat_le_iff (by decide)).mpr (isWritable_iff.mp h))
  have hne : (Text.ofNat n.natAbs).filterMap CodePoint.asciiDigit? ≠ [] := by
    obtain ⟨p, t, ht⟩ := List.exists_cons_of_ne_nil (Text.ofNat_ne_nil n.natAbs)
    rw [ht, List.filterMap_cons_some (CodePoint.asciiDigit?_eq (hdigits p (ht ▸ List.mem_cons_self)))]
    exact List.cons_ne_nil _ _
  have hvalue : (if n < 0 then -(n.natAbs : Int) else n.natAbs) = n := by
    clear h hlength
    split <;> omega
  simp only [read, Text.plainNumeral_ofInt, readSign_ofInt, readDigits_digits hdigits, hne, false_or,
    List.head?_nil, reduceCtorEq, if_false, true_and, Nat.not_lt.mpr hlength, ne_eq,
    not_true_eq_false, Text.ofDigits_ofNat, decide_eq_true_eq, hvalue]

theorem read_ofNat {n : Nat} (h : n < 10 ^ maxDigits) : read 10 (Text.ofNat n) = .ok n :=
  read_ofInt (n := n) (isWritable_iff.mpr h)

end Integer
end LogQuery
