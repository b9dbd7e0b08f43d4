import LogQuery.Base64
import LogQuery.Proofs.Steps
/-!
# Base 64 is read back

Strict reading undoes writing, for every number of bytes (`decode_encode_bytes`): the first two characters
of a group complete a byte, and so do the third and the fourth (`decodeFrom_first`, `decodeFrom_second`,
`decodeFrom_third`), and what is left over is filled up with equals signs. A text that is read has no
characters but the sixty-four and that sign (`isMember_of_decode`), so it is ASCII.
-/
namespace LogQuery.Base64

variable {n : Nat} {p : CodePoint} {t : Text} {bytes : Bytes}

/-! ## Characters -/

theorem digit?_digit (h : n < 64) : digit? (digit n) = some n :=
  (by decide +kernel : ∀ n < 64, digit? (digit n) = some n) n h

theorem digit_ne_pad (h : n < 64) : digit n ≠ pad :=
  (by decide +kernel : ∀ n < 64, digit n ≠ pad) n h

/-- A character that may occur in base 64. -/
def IsMember (p : CodePoint) : Prop := p = pad ∨ p ∈ alphabet.map CodePoint.scalar

theorem mem_of_digit? {value : Nat} (h : digit? p = some value) : p ∈ alphabet.map CodePoint.scalar := by
  rw [← List.isSome_idxOf?]
  exact Option.isSome_of_eq_some h

theorem IsMember.code_lt (h : IsMember p) : p.code < 0x80 := by
  rcases h with rfl | h
  · decide
  · exact (by decide +kernel : ∀ p ∈ alphabet.map CodePoint.scalar, p.code < 0x80) p h

theorem IsMember.ne_colon (h : IsMember p) : p ≠ .scalar ':' := by
  rcases h with rfl | h
  · decide
  · exact (by decide +kernel : ∀ p ∈ alphabet.map CodePoint.scalar, p ≠ .scalar ':') p h

/-! ## What is read -/

theorem isMember_of_decodeFrom : ∀ {t : Text} {count : Nat} {padded : Bool} {g : Group} {bytes : Bytes},
    decodeFrom true count padded g t = .ok bytes → ∀ p ∈ t, IsMember p
  | [], _, _, _, _, _, p, hp => by cases hp
  | q :: t, count, padded, g, bytes, h, p, hp => by
    unfold decodeFrom at h
    split at h
    next hpad =>
      have hq : IsMember q := Or.inl hpad
      have hrest : ∀ p ∈ t, IsMember p := by
        split at h
        · split at h
          · -- The text may only end behind the last equals sign of a group.
            cases t with
            | nil => exact List.forall_mem_nil _
            | cons r t => cases h
          · exact isMember_of_decodeFrom h
        · exact isMember_of_decodeFrom h
      exact List.forall_mem_cons.mpr ⟨hq, hrest⟩ p hp
    next hpad =>
      split at h
      next => cases h
      next value hvalue =>
        have hq : IsMember q := Or.inr (mem_of_digit? hvalue)
        have hrest : ∀ p ∈ t, IsMember p := by
          split at h
          · cases h
          split at h
          · obtain ⟨bytes', hbytes', -⟩ := eq_ok_of_map h
            exact isMember_of_decodeFrom hbytes'
          · exact isMember_of_decodeFrom h
        exact List.forall_mem_cons.mpr ⟨hq, hrest⟩ p hp

theorem isMember_of_decode (h : decode t = .ok bytes) : ∀ p ∈ t, IsMember p := by
  unfold decode at h
  split at h
  · cases h
  · exact isMember_of_decodeFrom h

/-! ## Round trip -/

theorem decodeFrom_digit (h : n < 64) (count : Nat) (g : Group) (t : Text) :
    decodeFrom true count false g (digit n :: t) =
      match g.add n with
      | (some byte, g) => (decodeFrom true (count + 1) false g t).map (byte :: ·)
      | (none, g) => decodeFrom true count false g t := by
  rw [decodeFrom, if_neg (digit_ne_pad h), digit?_digit h]
  rfl

theorem ofNat_high (a : UInt8) {more : Nat} (h : more < 16) :
    UInt8.ofNat (a.toNat / 4 * 4 + (a.toNat % 4 * 16 + more) / 16) = a := by
  have hbits : a.toNat / 4 * 4 + (a.toNat % 4 * 16 + more) / 16 = a.toNat := by omega
  rw [hbits, UInt8.ofNat_toNat]

theorem ofNat_middle (b : UInt8) {more : Nat} (h : more < 4) :
    UInt8.ofNat (b.toNat / 16 * 16 + (b.toNat % 16 * 4 + more) / 4) = b := by
  have hbits : b.toNat / 16 * 16 + (b.toNat % 16 * 4 + more) / 4 = b.toNat := by omega
  rw [hbits, UInt8.ofNat_toNat]

theorem ofNat_low (c : UInt8) : UInt8.ofNat (c.toNat / 64 * 64 + c.toNat % 64) = c := by
  rw [Nat.div_add_mod', UInt8.ofNat_toNat]

theorem decodeFrom_first (a : UInt8) {more : Nat} (h : more < 16) (count : Nat) (t : Text) :
    decodeFrom true count false {} (digit (a.toNat / 4) :: digit (a.toNat % 4 * 16 + more) :: t) =
      (decodeFrom true (count + 1) false { characters := 2, bits := more } t).map (a :: ·) := by
  have ha := a.toNat_lt
  have hbits : (a.toNat % 4 * 16 + more) % 16 = more := by omega
  rw [decodeFrom_digit (by omega)]
  show decodeFrom true count false { characters := 1, bits := a.toNat / 4 } _ = _
  rw [decodeFrom_digit (by omega)]
  simp only [Group.add, ofNat_high a h, hbits]

theorem decodeFrom_second (b : UInt8) {more : Nat} (h : more < 4) (count : Nat) (t : Text) :
    decodeFrom true count false { characters := 2, bits := b.toNat / 16 }
      (digit (b.toNat % 16 * 4 + more) :: t) =
      (decodeFrom true (count + 1) false { characters := 3, bits := more } t).map (b :: ·) := by
  have hbits : (b.toNat % 16 * 4 + more) % 4 = more := by omega
  rw [decodeFrom_digit (by omega)]
  simp only [Group.add, ofNat_middle b h, hbits]

theorem decodeFrom_third (c : UInt8) (count : Nat) (t : Text) :
    decodeFrom true count false { characters := 3, bits := c.toNat / 64 } (digit (c.toNat % 64) :: t) =
      (decodeFrom true (count + 1) false {} t).map (c :: ·) := by
  rw [decodeFrom_digit (Nat.mod_lt _ (by decide))]
  simp only [Group.add, ofNat_low]

theorem decodeFrom_encode : ∀ (bytes : Bytes) (count : Nat),
    decodeFrom true count false {} (encode bytes) = .ok bytes
  | [], _ => rfl
  | [a], count => by
    have hrest := decodeFrom_first a (show 0 < 16 by decide) count [pad, pad]
    rw [encode]
    exact hrest
  | [a, b], count => by
    have hb := b.toNat_lt
    have hrest := decodeFrom_second b (show 0 < 4 by decide) (count + 1) [pad]
    rw [encode, decodeFrom_first a (by omega)]
    exact congrArg (Except.map (a :: ·)) hrest
  | a :: b :: c :: bytes, count => by
    have hb := b.toNat_lt
    have hc := c.toNat_lt
    rw [encode, decodeFrom_first a (by omega), decodeFrom_second b (by omega), decodeFrom_third,
      decodeFrom_encode bytes]
    rfl

theorem head?_encode (bytes : Bytes) : (encode bytes).head? ≠ some pad := by
  have hfirst : ∀ a : UInt8, some (digit (a.toNat / 4)) ≠ some pad := by
    intro a h
    have ha := a.toNat_lt
    exact digit_ne_pad (by omega) (Option.some.inj h)
  match bytes with
  | [] => exact nofun
  | [a] => exact hfirst a
  | [a, _] => exact hfirst a
  | a :: _ :: _ :: _ => exact hfirst a

/-- **Round trip.** What is written in base 64 is read back. -/
theorem decode_encode_bytes (bytes : Bytes) : decode (encode bytes) = .ok bytes := by
  rw [decode, if_neg (head?_encode bytes), decodeFrom_encode]

end LogQuery.Base64
