import LogQuery.Calendar.Expression
import LogQuery.Proofs.Number.Padded
import Mathlib.Tactic.IntervalCases
/-!
# Dates written in a layout

`Layout.print` writes numbers in a layout, each as wide as its field. The parts of a layout are lenient and
can often be read in several ways, but the first way to read what a part writes is the one that takes all of
it and nothing more (`readPart_print`). So a row of parts is read back (`readParts?_printRow`), with the
numbers that the row has.
-/
namespace LogQuery

open CodePoint (digit)

def DateNumbers.get (n : DateNumbers) : DateField → Nat
  | .year => n.year
  | .month => n.month
  | .day => n.day
  | .hour => n.hour
  | .minute => n.minute
  | .second => n.second

/-- The numbers are those of a date and a time of day. -/
def DateNumbers.IsValid (n : DateNumbers) : Prop :=
  IsDate n.year n.month n.day ∧ IsTimeOfDay n.hour n.minute n.second 0

namespace LayoutPart

/-- The number that a part stands for. -/
def field? : LayoutPart → Option DateField
  | field f => some f
  | shortMonth => some .month
  | longMonth => some .month
  | mark _ => none
  | blanks => none

def monthName (month : Nat) : String := Date.monthNames.getD (month - 1) ""

/-- What a part writes: numbers with two digits, the year with four. -/
def print (n : DateNumbers) : LayoutPart → Text
  | field .year => Text.ofNatPadded 4 n.year
  | field f => Text.ofNatPadded 2 (n.get f)
  | shortMonth => Date.shortName (monthName n.month)
  | longMonth => Text.ofString (monthName n.month)
  | mark c => Text.single c
  | blanks => Text.single ' '

def copy (part : LayoutPart) (n m : DateNumbers) : DateNumbers :=
  match part.field? with
  | some f => m.set f (n.get f)
  | none => m

end LayoutPart

namespace Layout

def printRow (n : DateNumbers) (parts : List LayoutPart) : Text := parts.flatMap (LayoutPart.print n)

def copyRow (n : DateNumbers) (parts : List LayoutPart) (m : DateNumbers) : DateNumbers :=
  parts.foldl (fun m part => part.copy n m) m

variable {n : DateNumbers} {t : Text}

/-! ## Numbers -/

section
variable {d : Nat} (hd : d < 10)
include hd

theorem anyDigit?_digit : anyDigit? (digit d :: t) = some (d, t) := by
  rw [anyDigit?, CodePoint.decimal?_digit hd]
  rfl

theorem digitFrom?_digit (low high : Nat) :
    digitFrom? low high (digit d :: t) = if low ≤ d ∧ d ≤ high then some (d, t) else none := by
  rw [digitFrom?, CodePoint.asciiDigit?_digit hd, Option.filter_some]
  by_cases h : low ≤ d ∧ d ≤ high <;> simp [h]

end

theorem twoDigits?_digits {a b low high : Nat} {second : Text → Option (Nat × Text)} (ha : a < 10)
    (hrange : low ≤ a ∧ a ≤ high) (hsecond : second (digit b :: t) = some (b, t)) :
    twoDigits? low high second (digit a :: digit b :: t) = some (a * 10 + b, t) := by
  simp only [twoDigits?, digitFrom?_digit ha, if_pos hrange, hsecond, Option.bind_eq_bind,
    Option.bind_some]

theorem twoDigits?_none {a low high : Nat} {second : Text → Option (Nat × Text)} (ha : a < 10)
    (hrange : ¬ (low ≤ a ∧ a ≤ high)) : twoDigits? low high second (digit a :: t) = none := by
  simp only [twoDigits?, digitFrom?_digit ha, if_neg hrange, Option.bind_eq_bind, Option.bind_none]

theorem fourDigits?_digits {a b c d : Nat} (ha : a < 10) (hb : b < 10) (hc : c < 10) (hd : d < 10) :
    fourDigits? (digit a :: digit b :: digit c :: digit d :: t)
      = some (a * 1000 + b * 100 + c * 10 + d, t) := by
  simp only [fourDigits?, anyDigit?_digit ha, anyDigit?_digit hb, anyDigit?_digit hc,
    anyDigit?_digit hd, Option.bind_eq_bind, Option.bind_some]

/-- The numbers that a field of two digits may have. -/
def InRange : DateField → Nat → Prop
  | .year, _ => False
  | .month, v => 1 ≤ v ∧ v ≤ 12
  | .day, v => 1 ≤ v ∧ v ≤ 31
  | .hour, v => v < 24
  | .minute, v => v < 60
  | .second, v => v < 60

theorem readField_two {f : DateField} {a b : Nat} (hb : b < 10) (h : InRange f (a * 10 + b)) :
    ∃ more, readField f (digit a :: digit b :: t) = (a * 10 + b, t) :: more := by
  cases f <;> simp only [InRange] at h
  case month =>
    rcases (by omega : a = 0 ∨ a = 1) with rfl | rfl
    · rw [readField, twoDigits?_none (by decide) (by decide), twoDigits?_digits (by decide) (by decide)]
      · exact ⟨_, rfl⟩
      · rw [digitFrom?_digit hb, if_pos (by omega)]
    · rw [readField, twoDigits?_digits (by decide) (by decide)]
      · exact ⟨_, rfl⟩
      · rw [digitFrom?_digit hb, if_pos (by omega)]
  case day =>
    rcases (by omega : a = 0 ∨ (a = 1 ∨ a = 2) ∨ a = 3) with rfl | ha | rfl
    · rw [readField, twoDigits?_none (by decide) (by decide), twoDigits?_none (by decide) (by decide),
        twoDigits?_digits (by decide) (by decide)]
      · exact ⟨_, rfl⟩
      · rw [digitFrom?_digit hb, if_pos (by omega)]
    · rw [readField, twoDigits?_none (by omega) (by omega), twoDigits?_digits (by omega) (by omega)]
      · exact ⟨_, rfl⟩
      · exact anyDigit?_digit hb
    · rw [readField, twoDigits?_digits (by decide) (by decide)]
      · exact ⟨_, rfl⟩
      · rw [digitFrom?_digit hb, if_pos (by omega)]
  case hour =>
    rcases (by omega : (a = 0 ∨ a = 1) ∨ a = 2) with ha | rfl
    · rw [readField, twoDigits?_none (by omega) (by omega), twoDigits?_digits (by omega) (by omega)]
      · exact ⟨_, rfl⟩
      · exact anyDigit?_digit hb
    · rw [readField, twoDigits?_digits (by decide) (by decide)]
      · exact ⟨_, rfl⟩
      · rw [digitFrom?_digit hb, if_pos (by omega)]
  case minute =>
    rw [readField, twoDigits?_digits (by omega) (by omega)]
    · exact ⟨_, rfl⟩
    · exact anyDigit?_digit hb
  case second =>
    rw [readField, twoDigits?_none (by omega) (by omega), twoDigits?_digits (by omega) (by omega)]
    · exact ⟨_, rfl⟩
    · exact anyDigit?_digit hb

theorem readField_year {v : Nat} (h : v < 10000) :
    readField .year (Text.ofNatPadded 4 v ++ t) = [(v, t)] := by
  have hv : v / 1000 * 1000 + v / 100 % 10 * 100 + v / 10 % 10 * 10 + v % 10 = v := by omega
  rw [readField, Text.ofNatPadded_four h]
  simp only [List.cons_append, List.nil_append]
  rw [fourDigits?_digits (by omega) (by omega) (by omega) (by omega), hv]
  rfl

theorem readField_padded {f : DateField} {v : Nat} (h : InRange f v) :
    ∃ more, readField f (Text.ofNatPadded 2 v ++ t) = (v, t) :: more := by
  have hv : v < 100 := by cases f <;> simp only [InRange] at h <;> omega
  have hparts : v / 10 * 10 + v % 10 = v := by omega
  rw [← hparts] at h
  have hread := readField_two (t := t) (by omega) h
  rw [hparts] at hread
  rw [Text.ofNatPadded_two hv]
  exact hread

/-! ## Names of months -/

theorem readMonth_shortName {month : Nat} (h : 1 ≤ month ∧ month ≤ 12) :
    readMonth Date.shortName (Date.shortName (LayoutPart.monthName month) ++ t) = [(month, t)] := by
  obtain ⟨hfirst, hlast⟩ := h
  interval_cases month <;> rfl

theorem readMonth_longName {month : Nat} (h : 1 ≤ month ∧ month ≤ 12) :
    readMonth Text.ofString (Text.ofString (LayoutPart.monthName month) ++ t) = [(month, t)] := by
  obtain ⟨hfirst, hlast⟩ := h
  interval_cases month <;> rfl

/-! ## Parts -/

/-- A part that writes a number or a name. -/
def IsSolid (part : LayoutPart) : Prop := part.field?.isSome = true

instance (part : LayoutPart) : Decidable (IsSolid part) := by unfold IsSolid; infer_instance

theorem daysInMonth_le (year month : Nat) : daysInMonth year month ≤ 31 := by
  unfold daysInMonth
  split <;> (try split) <;> decide

theorem inRange_of_isValid (hn : n.IsValid) {f : DateField} (hf : f ≠ .year) : InRange f (n.get f) := by
  obtain ⟨⟨-, hmonth, hday⟩, hhour, hminute, hsecond, -⟩ := hn
  have := daysInMonth_le n.year n.month
  cases f with
  | year => exact absurd rfl hf
  | month => exact hmonth
  | day => exact ⟨hday.1, by simp only [DateNumbers.get]; omega⟩
  | hour => exact hhour
  | minute => exact hminute
  | second => exact hsecond

theorem print_field {f : DateField} (hf : f ≠ .year) :
    (LayoutPart.field f).print n = Text.ofNatPadded 2 (n.get f) := by
  cases f with
  | year => exact absurd rfl hf
  | _ => rfl

theorem printPart_head (hn : n.IsValid) {part : LayoutPart} (hpart : IsSolid part) :
    ∃ p u, part.print n = p :: u ∧
      p.isBlank = false ∧ p ≠ .scalar '-' ∧ p ≠ .scalar 'n' := by
  have hdigit : ∀ d < 10, (digit d).isBlank = false ∧ digit d ≠ .scalar '-' ∧ digit d ≠ .scalar 'n' := by
    decide
  have hmonth : 1 ≤ n.month ∧ n.month ≤ 12 := hn.1.2.1
  have hname : ∀ month, 1 ≤ month ∧ month ≤ 12 → ∃ p q r u, Text.ofString (LayoutPart.monthName month)
      = p :: q :: r :: u ∧ p.isBlank = false ∧ p ≠ .scalar '-' ∧ p ≠ .scalar 'n' := by
    intro month h
    obtain ⟨hfirst, hlast⟩ := h
    interval_cases month <;> exact ⟨_, _, _, _, rfl, by decide⟩
  cases part with
  | field f =>
    by_cases hf : f = .year
    · have hyear : n.year ≤ 9999 := hn.1.1.2
      rw [hf, LayoutPart.print, Text.ofNatPadded_four (by omega)]
      exact ⟨_, _, rfl, hdigit _ (by omega)⟩
    · have hrange := inRange_of_isValid hn hf
      have htwo : n.get f < 100 := by cases f <;> simp only [InRange] at hrange <;> omega
      rw [print_field hf, Text.ofNatPadded_two htwo]
      exact ⟨_, _, rfl, hdigit _ (by omega)⟩
  | shortMonth =>
    obtain ⟨p, q, r, u, hp, hhead⟩ := hname _ hmonth
    refine ⟨p, [q, r], ?_, hhead⟩
    rw [LayoutPart.print, Date.shortName, hp]
    rfl
  | longMonth =>
    obtain ⟨p, q, r, u, hp, hhead⟩ := hname _ hmonth
    exact ⟨p, q :: r :: u, hp, hhead⟩
  | mark c => cases hpart
  | blanks => cases hpart

theorem skipBlanks_of_not_blank (ht : ∀ p u, t = p :: u → p.isBlank = false) : skipBlanks t = [] := by
  cases t with
  | nil => rfl
  | cons p u =>
    rw [skipBlanks, ht p u rfl]
    rfl

/-- **What a part writes** is what it reads first. -/
theorem readPart_print (hn : n.IsValid) {part : LayoutPart}
    (ht : part = .blanks → ∀ p u, t = p :: u → p.isBlank = false) :
    ∃ more, readPart part (part.print n ++ t) = (part.copy n, t) :: more := by
  have hmonth : 1 ≤ n.month ∧ n.month ≤ 12 := hn.1.2.1
  cases part with
  | field f =>
    by_cases hf : f = .year
    · have hyear : n.year ≤ 9999 := hn.1.1.2
      rw [hf, readPart, LayoutPart.print, readField_year (by omega)]
      exact ⟨[], rfl⟩
    · obtain ⟨more, hread⟩ := readField_padded (t := t) (inRange_of_isValid hn hf)
      rw [readPart, print_field hf, hread]
      exact ⟨_, rfl⟩
  | shortMonth =>
    rw [readPart, LayoutPart.print, readMonth_shortName hmonth]
    exact ⟨[], rfl⟩
  | longMonth =>
    rw [readPart, LayoutPart.print, readMonth_longName hmonth]
    exact ⟨[], rfl⟩
  | mark c => exact ⟨[], if_pos rfl⟩
  | blanks =>
    rw [LayoutPart.print, Text.single, List.singleton_append, readPart, skipBlanks,
      skipBlanks_of_not_blank (ht rfl)]
    exact ⟨[], rfl⟩

/-! ## Rows -/

/-- Blanks stand in front of numbers and names only. -/
def IsSpaced : List LayoutPart → Prop
  | [] => True
  | part :: parts => (part = .blanks → ∃ next ∈ parts.head?, IsSolid next) ∧ IsSpaced parts

instance decidableIsSpaced : (parts : List LayoutPart) → Decidable (IsSpaced parts)
  | [] => isTrue trivial
  | part :: parts =>
    have : Decidable (IsSpaced parts) := decidableIsSpaced parts
    by unfold IsSpaced; infer_instance

theorem printRow_cons (n : DateNumbers) (part : LayoutPart) (parts : List LayoutPart) :
    printRow n (part :: parts) = part.print n ++ printRow n parts := List.flatMap_cons

theorem printRow_head (hn : n.IsValid) {parts : List LayoutPart}
    (hparts : ∃ next ∈ parts.head?, IsSolid next) : ∃ p u, printRow n parts = p :: u ∧
      p.isBlank = false ∧ p ≠ .scalar '-' ∧ p ≠ .scalar 'n' := by
  obtain ⟨next, hnext, hsolid⟩ := hparts
  obtain ⟨more, rfl⟩ := List.head?_eq_some_iff.mp hnext
  obtain ⟨p, u, hp, hhead⟩ := printPart_head hn hsolid
  refine ⟨p, u ++ printRow n more, ?_, hhead⟩
  rw [printRow_cons, hp]
  rfl

/-- **What a row writes** is read back to its end. -/
theorem readParts?_printRow (hn : n.IsValid) : ∀ {parts : List LayoutPart} (m : DateNumbers),
    IsSpaced parts → readParts? parts (printRow n parts) m = some (copyRow n parts m, [])
  | [], m, _ => rfl
  | part :: parts, m, hspaced => by
    have hblank : part = .blanks → ∀ p u, printRow n parts = p :: u → p.isBlank = false := by
      intro hpart p u hp
      obtain ⟨p', u', hp', hhead, -⟩ := printRow_head hn (hspaced.1 hpart)
      rw [hp'] at hp
      rw [← (List.cons.inj hp).1]
      exact hhead
    obtain ⟨more, hread⟩ := readPart_print hn hblank
    have hrest := readParts?_printRow hn (part.copy n m) hspaced.2
    rw [printRow_cons, readParts?, hread, List.findSome?_cons]
    simp only [hrest]
    rfl

end Layout
end LogQuery
