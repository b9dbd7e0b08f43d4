import LogQuery.Proofs.Calendar.Print
import LogQuery.Proofs.Calendar.Unambiguous
/-!
# Every layout is read back

A date written in a layout of the table is read as the moment with the numbers that were written, those
that the layout lacks taken from the reference moment (`resolve_print`). The layout itself reads it, as its
parts, its fraction and its `Z` are taken off again one by one (`readsAs_print`), and because the table is
unambiguous no layout in front of it reads anything else.
-/
namespace LogQuery

open CodePoint (digit)

theorem Text.cutLast?_of_not_mem {sep : CodePoint} : ∀ {t : Text}, sep ∉ t → t.cutLast? sep = none
  | [], _ => rfl
  | p :: t, h => by
    rw [List.mem_cons, not_or] at h
    rw [cutLast?, cutLast?_of_not_mem h.2]
    exact if_neg (Ne.symm h.1)

theorem Text.cutLast?_append {sep : CodePoint} {after : Text} (h : sep ∉ after) : ∀ before : Text,
    (before ++ sep :: after).cutLast? sep = some (before, after)
  | [] => by
    rw [List.nil_append, cutLast?, cutLast?_of_not_mem h]
    exact if_pos rfl
  | p :: before => by
    rw [List.cons_append, cutLast?, cutLast?_append h before]

namespace Layout

def has (l : Layout) (f : DateField) : Bool := l.parts.any fun part => part.field? = some f

/-- The numbers of a layout, completed: the date from a reference, the time of day with zeros. -/
def completed (l : Layout) (now : Date) (n : DateNumbers) : DateNumbers where
  year := if l.has .year then n.year else now.year
  month := if l.has .month then n.month else now.month
  day := if l.has .day then n.day else now.day
  hour := if l.has .hour then n.hour else 0
  minute := if l.has .minute then n.minute else 0
  second := if l.has .second then n.second else 0

/-- Numbers and digits of a fraction written in a layout. -/
def print (l : Layout) (n : DateNumbers) (digits : List Nat) : Text :=
  printRow n l.parts ++ (if l.fraction = 0 then [] else .scalar '.' :: digits.map digit)
    ++ (if l.zulu then Text.single 'Z' else [])

/-- The whole microseconds of a fraction of a second. -/
def wholeMicros (digits : List Nat) : Nat := ofDigits 10 digits * 1000000 / 10 ^ digits.length

variable {l : Layout} {now : Date} {n : DateNumbers} {digits : List Nat}

/-! ## The ending -/

theorem takeZulu?_append (t : Text) (zulu : Bool) :
    takeZulu? zulu (t ++ if zulu then Text.single 'Z' else []) = some t := by
  cases zulu with
  | false => simp [takeZulu?]
  | true => simp [takeZulu?, Text.single]

theorem mapM_decimal?_digits (h : ∀ d ∈ digits, d < 10) :
    (digits.map digit).mapM CodePoint.decimal? = some digits := by
  induction digits with
  | nil => rfl
  | cons d digits ih =>
    rw [List.forall_mem_cons] at h
    rw [List.map_cons, List.mapM_cons, CodePoint.decimal?_digit h.1, ih h.2]
    rfl

theorem fractionMicros?_digits (h : ∀ d ∈ digits, d < 10) :
    fractionMicros? (digits.map digit) = some (wholeMicros digits) := by
  have hread : ((digits.map digit).take 6).mapM CodePoint.decimal? = some (digits.take 6) := by
    rw [← List.map_take]
    exact mapM_decimal?_digits fun d hd => h d (List.mem_of_mem_take hd)
  rw [fractionMicros?, hread, Option.map_some, ofDigits_cut 6 h]
  rfl

theorem takeFraction?_append (t : Text) (h : ∀ d ∈ digits, d < 10) (hlength : digits.length = l.fraction) :
    takeFraction? l.fraction (t ++ if l.fraction = 0 then [] else .scalar '.' :: digits.map digit)
      = some (t, wholeMicros digits) := by
  by_cases hzero : l.fraction = 0
  · rw [hzero] at hlength
    rw [hzero, List.length_eq_zero_iff.mp hlength]
    simp [takeFraction?, wholeMicros, ofDigits]
  · have hdot : .scalar '.' ∉ digits.map digit := by
      intro hmem
      obtain ⟨d, hd, hp⟩ := List.mem_map.mp hmem
      have := CodePoint.isAsciiDigit_digit (h d hd)
      rw [hp] at this
      cases this
    have hdigits : (digits.map digit).all CodePoint.isDigit = true := by
      rw [List.all_map, List.all_eq_true]
      exact fun d hd => CodePoint.isDigit_digit (h d hd)
    rw [takeFraction?, if_neg hzero, if_neg hzero, Text.cutLast?_append hdot]
    simp only [List.length_map, hlength, hdigits, fractionMicros?_digits h]
    simp

theorem wholeMicros_lt (h : ∀ d ∈ digits, d < 10) : wholeMicros digits < 1000000 := by
  rw [wholeMicros, Nat.div_lt_iff_lt_mul (Nat.pow_pos (by decide)), Nat.mul_comm]
  exact Nat.mul_lt_mul_of_pos_left (ofDigits_lt h) (by decide)

/-! ## The row -/

theorem print_congr {part : LayoutPart} {n n' : DateNumbers}
    (h : ∀ f, part.field? = some f → n.get f = n'.get f) : part.print n = part.print n' := by
  cases part with
  | field f =>
    have := h f rfl
    cases f <;> simp only [LayoutPart.print, DateNumbers.get] at this ⊢ <;> rw [this]
  | shortMonth =>
    have : n.month = n'.month := h .month rfl
    rw [LayoutPart.print, LayoutPart.print, this]
  | longMonth =>
    have : n.month = n'.month := h .month rfl
    rw [LayoutPart.print, LayoutPart.print, this]
  | mark c => rfl
  | blanks => rfl

theorem eq_of_get {n n' : DateNumbers} (h : ∀ f, n.get f = n'.get f) : n = n' := by
  cases n
  cases n'
  exact DateNumbers.mk.injEq .. |>.mpr ⟨h .year, h .month, h .day, h .hour, h .minute, h .second⟩

theorem get_set (n : DateNumbers) (f g : DateField) (v : Nat) :
    (n.set f v).get g = if f = g then v else n.get g := by
  cases f <;> cases g <;> rfl

theorem get_copyRow (n : DateNumbers) (f : DateField) : ∀ (parts : List LayoutPart) (m : DateNumbers),
    (copyRow n parts m).get f = if ∃ part ∈ parts, part.field? = some f then n.get f else m.get f
  | [], m => by simp [copyRow]
  | part :: parts, m => by
    have hrest := get_copyRow n f parts (part.copy n m)
    rw [copyRow] at hrest ⊢
    rw [List.foldl_cons, hrest, LayoutPart.copy]
    by_cases hmore : ∃ part ∈ parts, part.field? = some f
    · rw [if_pos hmore, if_pos]
      simp only [List.mem_cons, exists_eq_or_imp]
      exact Or.inr hmore
    · rw [if_neg hmore]
      cases hfield : part.field? with
      | none => simp [hfield, hmore]
      | some g =>
        by_cases hg : g = f
        · subst hg
          simp [hfield, get_set]
        · simp [hfield, hmore, get_set, hg]

theorem get_completed (l : Layout) (now : Date) (n : DateNumbers) (f : DateField) :
    (l.completed now n).get f
      = if l.has f then n.get f
        else DateNumbers.get { year := now.year, month := now.month, day := now.day } f := by
  cases f <;> rfl

/-- The whole row of a layout: the parts that are supplied and its own. -/
def wholeRow (l : Layout) (now : Date) : List LayoutPart := (l.supplied now).1 ++ l.parts

theorem wholeRow_eq (l : Layout) (now now' : Date) : l.wholeRow now = l.wholeRow now' := by
  unfold wholeRow supplied
  split
  · rfl
  split <;> rfl

/-- The rows of the table are spaced and begin with a number or a name, they have a whole date, and what
is supplied is what they lack. -/
theorem wholeRow_spec (h : l ∈ table) (now : Date) :
    IsSpaced (l.wholeRow now) ∧ (∃ next ∈ l.parts.head?, IsSolid next) ∧
      (∀ f ∈ [DateField.year, .month, .day], ∃ part ∈ l.wholeRow now, part.field? = some f) ∧
      (l.timeOnly = true → l.has .year = false ∧ l.has .month = false ∧ l.has .day = false) ∧
      (l.yearless = true → l.has .year = false) := by
  rw [wholeRow_eq l now default]
  exact (by decide +kernel : ∀ l ∈ bareTable,
    IsSpaced (l.wholeRow default) ∧ (∃ next ∈ l.parts.head?, IsSolid next) ∧
      (∀ f ∈ [DateField.year, .month, .day], ∃ part ∈ l.wholeRow default, part.field? = some f) ∧
      (l.timeOnly = true → l.has .year = false ∧ l.has .month = false ∧ l.has .day = false) ∧
      (l.yearless = true → l.has .year = false)) l.bare (bare_mem h)

theorem supplied_eq_printRow (h : l ∈ table) (now : Date) (n : DateNumbers) :
    (l.supplied now).2 = printRow (l.completed now n) (l.supplied now).1 := by
  obtain ⟨-, -, -, htime, hyear⟩ := wholeRow_spec h now
  unfold supplied
  split
  next h =>
    obtain ⟨hyear, hmonth, hday⟩ := htime h
    simp [printRow, LayoutPart.print, DateNumbers.get, completed, hyear, hmonth, hday, Text.single,
      Text.ofString, Text.ofChars]
  split
  next h => simp [printRow, LayoutPart.print, completed, hyear h, Text.single, Text.ofString, Text.ofChars]
  next => rfl

theorem copyRow_completed (h : l ∈ table) (now : Date) (n : DateNumbers) :
    copyRow (l.completed now n) (l.wholeRow now) {} = l.completed now n := by
  obtain ⟨-, -, hdate, -⟩ := wholeRow_spec h now
  apply eq_of_get
  intro f
  rw [get_copyRow]
  by_cases hf : ∃ part ∈ l.wholeRow now, part.field? = some f
  · rw [if_pos hf]
  · have hlacks : l.has f = false := by
      rw [has, List.any_eq_false]
      intro part hpart hfield
      exact hf ⟨part, List.mem_append_right _ hpart, of_decide_eq_true hfield⟩
    rw [if_neg hf, get_completed, hlacks]
    cases f with
    | year => exact absurd (hdate _ (by decide)) hf
    | month => exact absurd (hdate _ (by decide)) hf
    | day => exact absurd (hdate _ (by decide)) hf
    | hour => rfl
    | minute => rfl
    | second => rfl

/-! ## The layout -/

theorem printRow_completed (l : Layout) (now : Date) (n : DateNumbers) :
    printRow (l.completed now n) l.parts = printRow n l.parts := by
  apply List.flatMap_congr
  intro part hpart
  apply print_congr
  intro f hf
  rw [get_completed, if_pos]
  exact List.any_eq_true.mpr ⟨part, hpart, decide_eq_true hf⟩

theorem print_head (h : l ∈ table) (hn : (l.completed now n).IsValid) (digits : List Nat) :
    ∃ p u, l.print n digits = p :: u ∧ p.isBlank = false ∧ p ≠ .scalar '-' ∧ p ≠ .scalar 'n' := by
  obtain ⟨-, hsolid, -⟩ := wholeRow_spec h now
  obtain ⟨p, u, hp, hhead⟩ := printRow_head hn hsolid
  rw [printRow_completed] at hp
  rw [print, hp]
  exact ⟨p, _, rfl, hhead⟩

/-- **A layout reads what is written in it.** -/
theorem readsAs_print (h : l ∈ table) (hn : (l.completed now n).IsValid)
    (hdigits : ∀ d ∈ digits, d < 10) (hlength : digits.length = l.fraction) :
    l.ReadsAs now (l.print n digits) (l.completed now n) (wholeMicros digits) := by
  obtain ⟨hspaced, -⟩ := wholeRow_spec h now
  refine ⟨_, _, takeZulu?_append _ _, takeFraction?_append _ hdigits hlength, ?_⟩
  rw [supplied_eq_printRow h now n, ← printRow_completed l now n, printRow, printRow, ← List.flatMap_append]
  exact (readParts?_printRow hn {} hspaced).trans (by rw [copyRow_completed h])

end Layout

theorem resolve_of_findSome? {t u : Text} {p : CodePoint} (ht : t = p :: u) (hword : p ≠ .scalar 'n')
    (hminus : p ≠ .scalar '-') {now m : Moment}
    (hfind : (Layout.table.findSome? fun l => l.read? now t) = some m) : resolve t now = .ok m := by
  have hnow : t.isString "now" = false := by
    rw [Text.isString, ht, beq_eq_false_iff_ne]
    intro h
    exact hword (List.cons.inj h).1
  have hstep : Step.ofText? t = none := by
    rw [ht]
    unfold Step.ofText?
    split
    next h => exact absurd (List.cons.inj h).1 hminus
    next => rfl
  simp only [resolve, hnow, hstep, hfind, Bool.false_eq_true, if_false]

/-- **A text that a layout reads** is read so by the table, whichever layouts are in front of it. -/
theorem findSome?_table {l : Layout} (h : l ∈ Layout.table) {now m : Moment} {t : Text}
    (hread : l.read? now t = some m) : (Layout.table.findSome? fun l => l.read? now t) = some m :=
  Layout.findSome?_of_read? (List.Subset.refl _) h hread

def Moment.numbers (m : Moment) : DateNumbers where
  year := m.date.year
  month := m.date.month
  day := m.date.day
  hour := m.time.hour
  minute := m.time.minute
  second := m.time.second

/-- **Every layout is read back exactly**: what is written in a layout of the table is read as the moment
with the numbers that were written, those that the layout lacks taken from the reference moment, and with
the fraction of a second cut to microseconds. With a `Z` behind it the moment is in universal time, and
without one in the zone of the reference moment. -/
theorem resolve_print (l : Layout) (hl : l ∈ Layout.table) (now : Moment) (n : DateNumbers)
    (digits : List Nat) (hdigits : ∀ d ∈ digits, d < 10) (hlength : digits.length = l.fraction)
    (hvalid : (l.completed now.date n).IsValid) :
    ∃ m, resolve (l.print n digits) now = .ok m ∧ m.numbers = l.completed now.date n ∧
      m.time.micro = Layout.wholeMicros digits ∧ m.zone = (if l.zulu then .utc else now.zone) ∧
      m.later = false := by
  have hdate := hvalid.1
  have htime : IsTimeOfDay (l.completed now.date n).hour (l.completed now.date n).minute
      (l.completed now.date n).second (Layout.wholeMicros digits) :=
    ⟨hvalid.2.1, hvalid.2.2.1, hvalid.2.2.2.1, Layout.wholeMicros_lt hdigits⟩
  let m : Moment :=
    { date := ⟨_, _, _, hdate⟩, time := ⟨_, _, _, _, htime⟩,
      zone := if l.zulu then .utc else now.zone, later := false }
  have hread : l.read? now (l.print n digits) = some m :=
    Layout.read?_eq_some_iff.mpr ⟨_, _, Layout.readsAs_print hl hvalid hdigits hlength, dif_pos hdate,
      dif_pos htime, rfl, rfl⟩
  obtain ⟨p, u, hp, -, hminus, hword⟩ := Layout.print_head hl hvalid digits
  exact ⟨m, resolve_of_findSome? hp hword hminus (findSome?_table hl hread), rfl, rfl, rfl, rfl⟩

/-- A leap day without its year, read in a leap year in Berlin. -/
theorem resolve_print_leapDay :
    ∃ m, resolve "Feb 29 23:59:58.12345678Z"
        { date := ⟨2024, 7, 14, by decide⟩, time := .midnight, zone := .region "Europe/Berlin",
          later := false } = .ok m ∧
      m.numbers = { year := 2024, month := 2, day := 29, hour := 23, minute := 59, second := 58 } ∧
      m.time.micro = 123456 ∧ m.zone = .utc ∧ m.later = false :=
  resolve_print
    { parts := Layout.monthDayTime .shortMonth, yearless := true, fraction := 8, zulu := true }
    (by decide +kernel)
    { date := ⟨2024, 7, 14, by decide⟩, time := .midnight, zone := .region "Europe/Berlin",
      later := false }
    { month := 2, day := 29, hour := 23, minute := 59, second := 58 } [1, 2, 3, 4, 5, 6, 7, 8]
    (by decide) rfl ⟨by decide +kernel, by decide +kernel⟩

end LogQuery
