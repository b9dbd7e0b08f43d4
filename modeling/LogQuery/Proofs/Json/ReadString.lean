import LogQuery.Json.Reader
import LogQuery.Json.Writer
import LogQuery.Proofs.Text.Utf8
/-!
# Reading written strings

Between quotes a written string has only escapes and characters that stand for themselves, so reading
it takes one step for each code point (`readString_escape`) and stops at the closing quote
(`readString_written`). This is about strings in which only what has to be escaped is escaped; surrogates
stand for themselves there, in pairs as well.
-/
namespace LogQuery.Json

theorem ofNatHex_control (n : Nat) (h : n < 0x20) :
    ∃ a b : Char, Text.ofNatHex 4 n = [.scalar '0', .scalar '0', .scalar a, .scalar b] ∧
      (CodePoint.scalar a).hexDigit? = some (n / 16) ∧
      (CodePoint.scalar b).hexDigit? = some (n % 16) := by
  have key : ∀ n : Fin 0x20,
      Text.ofNatHex 4 n.val = [.scalar '0', .scalar '0', .scalar (n.val / 16).digitChar,
        .scalar (n.val % 16).digitChar] ∧
      (CodePoint.scalar (n.val / 16).digitChar).hexDigit? = some (n.val / 16) ∧
      (CodePoint.scalar (n.val % 16).digitChar).hexDigit? = some (n.val % 16) := by decide +kernel
  exact ⟨_, _, key ⟨n, h⟩⟩

theorem hex4?_control {n : Nat} (h : n < 0x20) (rest : Text) :
    hex4? (Text.ofNatHex 4 n ++ rest) = some (n, rest) := by
  obtain ⟨a, b, he, ha, hb⟩ := ofNatHex_control n h
  have h0 : (CodePoint.scalar '0').hexDigit? = some 0 := by decide
  rw [he]
  simp only [List.cons_append, List.nil_append, hex4?, h0, ha, hb, Option.bind_eq_bind,
    Option.bind_some, Option.some.injEq, Prod.mk.injEq, and_true]
  omega

theorem readUnicodeEscape_control {n : Nat} (h : n < 0x20) (u : CodePoint) {rest : Text}
    (hrest : rest ≠ []) :
    readUnicodeEscape u (Text.ofNatHex 4 n ++ rest) = .ok (CodePoint.ofNat n, rest) := by
  unfold readUnicodeEscape
  rw [hex4?_control h]
  cases rest with
  | nil => exact absurd rfl hrest
  | cons p rest => simp only [show ¬ (0xd800 ≤ n ∧ n < 0xdc00) by omega, if_false]

section
variable (start : Text) (fuel : Nat) {rest : Text}

/-- What reading a string comes to behind its first code point. -/
def prepend (p : CodePoint) (r : Except Stop (Text × Text)) : Except Stop (Text × Text) :=
  r.map fun (tail, after) => (p :: tail, after)

theorem readString_simple {e : CodePoint} {c : Char} (hu : e ≠ .scalar 'u')
    (he : simpleEscape? e = some c) :
    readString start (fuel + 1) (.scalar '\\' :: e :: rest)
      = prepend (.scalar c) (readString start fuel rest) := by
  simp only [readString, CodePoint.scalar.injEq, Char.reduceEq, if_false, if_true, if_neg hu, he]
  cases readString start fuel rest <;> rfl

theorem readString_control {p : CodePoint} (h : p.code < 0x20) (hrest : rest ≠ []) :
    readString start (fuel + 1) (unicodeEscapes p.code ++ rest)
      = prepend p (readString start fuel rest) := by
  have he : unicodeEscapes p.code ++ rest
      = .scalar '\\' :: .scalar 'u' :: (Text.ofNatHex 4 p.code ++ rest) := by
    rw [unicodeEscapes, if_pos (by omega)]; rfl
  rw [he]
  simp only [readString, CodePoint.scalar.injEq, Char.reduceEq, if_false, if_true,
    readUnicodeEscape_control h _ hrest, CodePoint.ofNat_code, bind, Except.bind]
  cases readString start fuel rest <;> rfl

theorem readString_plain {p : CodePoint} (hq : p ≠ .scalar '"') (hb : p ≠ .scalar '\\')
    (h : ¬ p.code < 0x20) :
    readString start (fuel + 1) (p :: rest) = prepend p (readString start fuel rest) := by
  simp only [readString, if_neg hq, if_neg hb, if_neg h]
  cases readString start fuel rest <;> rfl

theorem readString_escape (p : CodePoint) (hrest : rest ≠ []) :
    readString start (fuel + 1) (escape false p ++ rest) = prepend p (readString start fuel rest) := by
  unfold escape
  split
  case h_8 hquote hbackslash _ _ _ _ _ =>
    simp only [Bool.false_and, Bool.or_false, decide_eq_true_eq]
    split
    · rename_i h; exact readString_control start fuel h hrest
    · rename_i h; exact readString_plain start fuel hquote hbackslash h
  case h_1 => exact readString_simple start fuel (e := .scalar '"') (by decide) rfl
  case h_2 => exact readString_simple start fuel (e := .scalar '\\') (by decide) rfl
  case h_3 => exact readString_simple start fuel (e := .scalar 'n') (by decide) rfl
  case h_4 => exact readString_simple start fuel (e := .scalar 'r') (by decide) rfl
  case h_5 => exact readString_simple start fuel (e := .scalar 't') (by decide) rfl
  case h_6 => exact readString_simple start fuel (e := .scalar 'b') (by decide) rfl
  case h_7 => exact readString_simple start fuel (e := .scalar 'f') (by decide) rfl

end

theorem readString_written (start rest : Text) : ∀ (t : Text) {fuel : Nat}, t.length < fuel →
    readString start fuel (t.flatMap (escape false) ++ .scalar '"' :: rest) = .ok (t, rest)
  | [], fuel + 1, _ => by simp [readString]
  | p :: t, fuel + 1, h => by
    rw [List.flatMap_cons, List.append_assoc, readString_escape start fuel p (by simp),
      readString_written start rest t (Nat.lt_of_succ_lt_succ h)]
    rfl

theorem length_le_flatMap_escape (ascii : Bool) : ∀ t : Text,
    t.length ≤ (t.flatMap (escape ascii)).length
  | [] => Nat.le_refl 0
  | p :: t => by
    have hp : 1 ≤ (escape ascii p).length := by
      have hu : (Text.ofString "\\u").length = 2 := by decide
      unfold escape unicodeEscapes unicodeEscape
      split <;> try exact (by decide)
      split
      · split <;> simp only [List.length_append] <;> omega
      · exact Nat.le_refl 1
    have := length_le_flatMap_escape ascii t
    rw [List.flatMap_cons, List.length_append, List.length_cons]
    omega

end LogQuery.Json
