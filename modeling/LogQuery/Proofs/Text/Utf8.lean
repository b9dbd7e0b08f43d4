import LogQuery.Text.Utf8
/-!
# Reading UTF-8 back

A text that can be written as UTF-8 is read from its bytes as it was, with or without surrogates being
let through (`decodeFrom_encode`). The bytes of a code point are its front (`front_encodeNumber`), one
case for each number of bytes.
-/
namespace LogQuery

theorem CodePoint.ofNat_code (p : CodePoint) : CodePoint.ofNat p.code = p := by
  cases p with
  | surrogate o =>
    have ho := o.isLt
    simp [code, ofNat, ofNat?, show 0xd800 + o.val < 0xe000 by omega]
  | scalar c =>
    have hc : c.toNat < 0xd800 ∨ 0xdfff < c.toNat ∧ c.toNat < 0x110000 := c.valid
    simp [code, ofNat, ofNat?, show ¬ (0xd800 ≤ c.toNat ∧ c.toNat < 0xe000) by omega,
      show c.toNat < 0x110000 by omega, Char.ofNat_toNat]

namespace Utf8

theorem continuation {x : Nat} (h : x < 0x40) :
    isContinuation (UInt8.ofNat (0x80 + x)) = true ∧ payload (UInt8.ofNat (0x80 + x)) = x ∧
      (UInt8.ofNat (0x80 + x)).toNat = 0x80 + x := by
  have key : ∀ x : Fin 0x40, isContinuation (UInt8.ofNat (0x80 + x.val)) = true ∧
      payload (UInt8.ofNat (0x80 + x.val)) = x.val ∧
      (UInt8.ofNat (0x80 + x.val)).toNat = 0x80 + x.val := by decide
  exact key ⟨x, h⟩

theorem toNat_ofNat_of_lt {x : Nat} (h : x < 0x100) : (UInt8.ofNat x).toNat = x :=
  UInt8.toNat_ofNat_of_lt' h

section
variable (surrogates : Bool) (rest : Bytes)

theorem front_one {n : Nat} (h : n < 0x80) :
    front surrogates (UInt8.ofNat n) rest = .point n 1 := by
  have hn := toNat_ofNat_of_lt (show n < 0x100 by omega)
  simp only [front, UInt8.lt_iff_toNat_lt, hn, UInt8.reduceToNat, if_pos h]

theorem front_two {n : Nat} (h : 0x80 ≤ n) (h' : n < 0x800) :
    front surrogates (UInt8.ofNat (0xc0 + n / 0x40)) (UInt8.ofNat (0x80 + n % 0x40) :: rest)
      = .point n 2 := by
  have hn := toNat_ofNat_of_lt (show 0xc0 + n / 0x40 < 0x100 by omega)
  obtain ⟨hc, hp, -⟩ := continuation (Nat.mod_lt n (by decide : 0 < 0x40))
  simp only [front, UInt8.lt_iff_toNat_lt, hn, hc, hp, UInt8.reduceToNat, if_true]
  rw [if_neg (by omega), if_neg (by omega), if_pos (by omega)]
  exact congrArg (Front.point · 2) (by omega)

theorem front_three {n : Nat} (h : 0x800 ≤ n) (h' : n < 0x10000)
    (hs : ¬ (0xd800 ≤ n ∧ n ≤ 0xdfff)) :
    front surrogates (UInt8.ofNat (0xe0 + n / 0x1000))
      (UInt8.ofNat (0x80 + n / 0x40 % 0x40) :: UInt8.ofNat (0x80 + n % 0x40) :: rest)
      = .point n 3 := by
  have hn := toNat_ofNat_of_lt (show 0xe0 + n / 0x1000 < 0x100 by omega)
  obtain ⟨hc, hp, ht⟩ := continuation (Nat.mod_lt (n / 0x40) (by decide : 0 < 0x40))
  obtain ⟨hc', hp', -⟩ := continuation (Nat.mod_lt n (by decide : 0 < 0x40))
  have hsecond : secondOfThree surrogates (UInt8.ofNat (0xe0 + n / 0x1000))
      (UInt8.ofNat (0x80 + n / 0x40 % 0x40)) = true := by
    simp only [secondOfThree, hc, Bool.true_and, beq_iff_eq, ← UInt8.toNat_inj, hn,
      UInt8.le_iff_toNat_le, UInt8.lt_iff_toNat_lt, ht, UInt8.reduceToNat]
    split
    · exact decide_eq_true (by omega)
    · split
      · rw [Bool.or_eq_true, decide_eq_true_eq]
        exact Or.inr (by omega)
      · rfl
  simp only [front, UInt8.lt_iff_toNat_lt, hn, hc', hp, hp', hsecond, UInt8.reduceToNat,
    Bool.not_true, Bool.false_eq_true, if_false]
  rw [if_neg (by omega), if_neg (by omega), if_neg (by omega), if_pos (by omega)]
  exact congrArg (Front.point · 3) (by omega)

theorem front_four {n : Nat} (h : 0x10000 ≤ n) (h' : n < 0x110000) :
    front surrogates (UInt8.ofNat (0xf0 + n / 0x40000))
      (UInt8.ofNat (0x80 + n / 0x1000 % 0x40) :: UInt8.ofNat (0x80 + n / 0x40 % 0x40)
        :: UInt8.ofNat (0x80 + n % 0x40) :: rest)
      = .point n 4 := by
  have hn := toNat_ofNat_of_lt (show 0xf0 + n / 0x40000 < 0x100 by omega)
  obtain ⟨hc, hp, ht⟩ := continuation (Nat.mod_lt (n / 0x1000) (by decide : 0 < 0x40))
  obtain ⟨hc', hp', -⟩ := continuation (Nat.mod_lt (n / 0x40) (by decide : 0 < 0x40))
  obtain ⟨hc'', hp'', -⟩ := continuation (Nat.mod_lt n (by decide : 0 < 0x40))
  have hsecond : secondOfFour (UInt8.ofNat (0xf0 + n / 0x40000))
      (UInt8.ofNat (0x80 + n / 0x1000 % 0x40)) = true := by
    simp only [secondOfFour, hc, Bool.true_and, beq_iff_eq, ← UInt8.toNat_inj, hn,
      UInt8.le_iff_toNat_le, UInt8.lt_iff_toNat_lt, ht, UInt8.reduceToNat]
    split
    · exact decide_eq_true (by omega)
    · split
      · exact decide_eq_true (by omega)
      · rfl
  simp only [front, UInt8.lt_iff_toNat_lt, hn, hc', hc'', hp, hp', hp'', hsecond,
    UInt8.reduceToNat, Bool.not_true, Bool.false_eq_true, if_false]
  rw [if_neg (by omega), if_neg (by omega), if_neg (by omega), if_neg (by omega), if_pos (by omega)]
  exact congrArg (Front.point · 4) (by omega)

theorem front_encodeNumber {n : Nat} (h : n.isValidChar) :
    ∃ b tail, encodeNumber n = b :: tail ∧
      front surrogates b (tail ++ rest) = .point n (tail.length + 1) := by
  have hs : n < 0xd800 ∨ 0xdfff < n ∧ n < 0x110000 := h
  unfold encodeNumber
  split
  next h1 => exact ⟨_, _, rfl, front_one surrogates rest h1⟩
  next h1 =>
  split
  next h2 => exact ⟨_, _, rfl, front_two surrogates rest (by omega) h2⟩
  next h2 =>
  split
  next h3 => exact ⟨_, _, rfl, front_three surrogates rest (by omega) h3 (by omega)⟩
  next h3 => exact ⟨_, _, rfl, front_four surrogates rest (by omega) (by omega)⟩

theorem decodeFrom_skip : ∀ (bytes : Bytes) (place : Nat),
    decodeFrom surrogates place bytes.length (bytes ++ rest)
      = decodeFrom surrogates (place + bytes.length) 0 rest
  | [], _ => rfl
  | b :: bytes, place => by
    rw [List.cons_append, List.length_cons, decodeFrom, decodeFrom_skip bytes (place + 1)]
    congr 1
    omega

/-- **Round trip.** What is written as UTF-8 is read back. -/
theorem decodeFrom_encode : ∀ {t : Text} {bytes : Bytes} (place : Nat), encode? t = some bytes →
    decodeFrom surrogates place 0 bytes = .ok t
  | [], bytes, place, h => by
    cases h
    rfl
  | .scalar c :: t, bytes, place, h => by
    obtain ⟨later, hlater, rfl⟩ := Option.map_eq_some_iff.mp h
    have hvalid : c.toNat.isValidChar := c.valid
    obtain ⟨b, tail, hbytes, hfront⟩ := front_encodeNumber surrogates later hvalid
    have hskip := decodeFrom_skip surrogates later tail (place + 1)
    simp only [hbytes, List.cons_append, decodeFrom, hfront, Nat.add_sub_cancel, hskip,
      decodeFrom_encode _ hlater, bind, Except.bind]
    exact congrArg (Except.ok <| · :: t) (CodePoint.ofNat_code (.scalar c))
  | .surrogate o :: t, _, _, h => by cases h

end

theorem strict_encode {t : Text} {bytes : Bytes} (h : encode? t = some bytes) : strict bytes = .ok t :=
  decodeFrom_encode false 0 h

end Utf8
end LogQuery
