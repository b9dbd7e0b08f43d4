import LogQuery.Calendar.Expression
import LogQuery.Proofs.Number.Numeral
import LogQuery.Proofs.Text.Split
/-!
# The skeleton of a date

What is left of a text without digits and blanks, in lower case, is its skeleton: the marks of a date, the
name of a month and the signs of an ending. However lenient the parts of a layout are read, a text that is
read in a layout has one of the skeletons of this layout (`ReadsAs.skeleton`).
-/
namespace LogQuery

namespace CodePoint

/-- An ASCII character other than a digit or a blank. -/
def isBone (p : CodePoint) : Bool := p.code < 0x80 && !p.isAsciiDigit && !p.isBlank

theorem isBone_of_capital {p : CodePoint} (h : 65 ≤ p.code ∧ p.code ≤ 90) : p.isBone = true := by
  have hdigit : p.isAsciiDigit = false := by
    rw [Bool.eq_false_iff]
    intro hd
    have := code_of_isAsciiDigit hd
    omega
  rw [isBone, hdigit, isBlank, if_pos (by omega)]
  simp only [Bool.not_false, Bool.and_true, Bool.and_eq_true, decide_eq_true_eq, Bool.not_eq_true',
    Bool.or_eq_false_iff, Bool.and_eq_false_iff, decide_eq_false_iff_not]
  omega

/-- Only capitals have another lower-case form, and these are no digits or blanks either. -/
theorem isBone_of_asciiLower {p : CodePoint} (h : p.asciiLower.isBone = true) : p.isBone = true := by
  cases p with
  | surrogate o => exact h
  | scalar c =>
    by_cases hc : 65 ≤ c.toNat ∧ c.toNat ≤ 90
    · exact isBone_of_capital hc
    · have hlower : c.toLower = c := by
        unfold Char.toLower
        rw [dif_neg]
        exact hc
      rwa [asciiLower, hlower] at h

theorem isBone_eq_false_of_isAsciiDigit {p : CodePoint} (h : p.isAsciiDigit = true) :
    p.isBone = false := by
  simp [isBone, h]

theorem isBone_eq_false_of_isBlank {p : CodePoint} (h : p.isBlank = true) : p.isBone = false := by
  simp [isBone, h]

theorem isBone_eq_false_of_isDigit {p : CodePoint} (h : p.isDigit = true) : p.isBone = false := by
  unfold isDigit at h
  split at h
  · exact isBone_eq_false_of_isAsciiDigit h
  next hcode => simp [isBone, hcode]

theorem isBone_eq_false_of_decimal? {p : CodePoint} {d : Nat} (h : p.decimal? = some d) :
    p.isBone = false := by
  unfold decimal? at h
  split at h
  · exact isBone_eq_false_of_isAsciiDigit (by rw [isAsciiDigit, h]; rfl)
  next hcode => simp [isBone, hcode]

end CodePoint

namespace Text

/-- What is left of a text without its digits and blanks, in lower case. -/
def skeleton (t : Text) : Text := (t.filter CodePoint.isBone).map CodePoint.asciiLower

@[simp] theorem skeleton_nil : skeleton [] = [] := rfl

@[simp] theorem skeleton_append (t u : Text) : skeleton (t ++ u) = skeleton t ++ skeleton u := by
  simp [skeleton]

theorem skeleton_cons {p : CodePoint} (h : p.isBone = false) (t : Text) :
    skeleton (p :: t) = skeleton t := by
  simp [skeleton, h]

theorem skeleton_eq_nil {t : Text} (h : ∀ p ∈ t, p.isBone = false) : skeleton t = [] := by
  rw [skeleton, List.filter_eq_nil_iff.mpr fun p hp => by simp [h p hp], List.map_nil]

/-- A text in lower case without digits and blanks is all skeleton, in whichever case it is written. -/
theorem skeleton_of_asciiLower {t u : Text} (h : t.asciiLower = u) (hu : ∀ p ∈ u, p.isBone = true) :
    skeleton t = u := by
  have hbones : ∀ p ∈ t, p.isBone = true := fun p hp =>
    CodePoint.isBone_of_asciiLower (hu _ (h ▸ List.mem_map_of_mem hp))
  rw [skeleton, List.filter_eq_self.mpr hbones]
  exact h

theorem skeleton_ofNatPadded (width n : Nat) : skeleton (ofNatPadded width n) = [] := by
  apply skeleton_eq_nil
  intro p hp
  apply CodePoint.isBone_eq_false_of_isAsciiDigit
  rcases List.mem_append.mp hp with hp | hp
  · rw [List.eq_of_mem_replicate hp]
    rfl
  · exact isAsciiDigit_of_mem_ofNat hp

theorem eq_append_of_cutLast? {sep : CodePoint} : ∀ {t before after : Text},
    t.cutLast? sep = some (before, after) → t = before ++ sep :: after
  | p :: t, before, after, h => by
    unfold cutLast? at h
    split at h
    next before' after' hrest =>
      cases h
      rw [eq_append_of_cutLast? hrest, List.cons_append]
    next =>
      split at h
      next hp =>
        cases h
        rw [hp, List.nil_append]
      next => cases h

end Text

namespace Layout

variable {t u rest : Text} {n : DateNumbers} {d : Nat} {r r' : DateNumbers × Text}

/-! ## Parts -/

theorem skeleton_of_anyDigit? (h : anyDigit? t = some (d, rest)) : t.skeleton = rest.skeleton := by
  cases t with
  | nil => cases h
  | cons p t =>
    obtain ⟨d', hd, heq⟩ := Option.map_eq_some_iff.mp h
    obtain ⟨rfl, rfl⟩ := Prod.mk.inj heq
    exact Text.skeleton_cons (CodePoint.isBone_eq_false_of_decimal? hd) t

theorem skeleton_of_digitFrom? {low high : Nat} (h : digitFrom? low high t = some (d, rest)) :
    t.skeleton = rest.skeleton := by
  cases t with
  | nil => cases h
  | cons p t =>
    obtain ⟨d', hd, heq⟩ := Option.map_eq_some_iff.mp h
    obtain ⟨rfl, rfl⟩ := Prod.mk.inj heq
    have hdigit : p.asciiDigit? = some d' := Option.eq_some_of_filter_eq_some hd
    exact Text.skeleton_cons (CodePoint.isBone_eq_false_of_isAsciiDigit
      (by rw [CodePoint.isAsciiDigit, hdigit]; rfl)) t

theorem skeleton_of_twoDigits? {low high : Nat} {second : Text → Option (Nat × Text)}
    (hsecond : ∀ {t d rest}, second t = some (d, rest) → t.skeleton = rest.skeleton)
    (h : twoDigits? low high second t = some (d, rest)) : t.skeleton = rest.skeleton := by
  obtain ⟨⟨a, t1⟩, ha, h⟩ := Option.bind_eq_some_iff.mp h
  obtain ⟨⟨b, t2⟩, hb, h⟩ := Option.bind_eq_some_iff.mp h
  cases h
  rw [skeleton_of_digitFrom? ha, hsecond hb]

theorem skeleton_of_fourDigits? (h : fourDigits? t = some (d, rest)) :
    t.skeleton = rest.skeleton := by
  obtain ⟨⟨a, t1⟩, ha, h⟩ := Option.bind_eq_some_iff.mp h
  obtain ⟨⟨b, t2⟩, hb, h⟩ := Option.bind_eq_some_iff.mp h
  obtain ⟨⟨c, t3⟩, hc, h⟩ := Option.bind_eq_some_iff.mp h
  obtain ⟨⟨e, t4⟩, he, h⟩ := Option.bind_eq_some_iff.mp h
  cases h
  rw [skeleton_of_anyDigit? ha, skeleton_of_anyDigit? hb, skeleton_of_anyDigit? hc,
    skeleton_of_anyDigit? he]

theorem skeleton_of_spacedDigit? (h : spacedDigit? t = some (d, rest)) :
    t.skeleton = rest.skeleton := by
  unfold spacedDigit? at h
  split at h
  · rw [Text.skeleton_cons (by decide), skeleton_of_digitFrom? h]
  · cases h

theorem skeleton_of_readField {f : DateField} (h : (d, rest) ∈ readField f t) :
    t.skeleton = rest.skeleton := by
  cases f <;>
    simp only [readField, List.mem_filterMap, id, exists_eq_right, List.mem_cons, List.not_mem_nil,
      or_false] at h
  case year => exact skeleton_of_fourDigits? h.symm
  case month =>
    rcases h with h | h | h
    · exact skeleton_of_twoDigits? skeleton_of_digitFrom? h.symm
    · exact skeleton_of_twoDigits? skeleton_of_digitFrom? h.symm
    · exact skeleton_of_digitFrom? h.symm
  case day =>
    rcases h with h | h | h | h | h
    · exact skeleton_of_twoDigits? skeleton_of_digitFrom? h.symm
    · exact skeleton_of_twoDigits? skeleton_of_anyDigit? h.symm
    · exact skeleton_of_twoDigits? skeleton_of_digitFrom? h.symm
    · exact skeleton_of_digitFrom? h.symm
    · exact skeleton_of_spacedDigit? h.symm
  case hour =>
    rcases h with h | h | h
    · exact skeleton_of_twoDigits? skeleton_of_digitFrom? h.symm
    · exact skeleton_of_twoDigits? skeleton_of_anyDigit? h.symm
    · exact skeleton_of_anyDigit? h.symm
  case minute =>
    rcases h with h | h
    · exact skeleton_of_twoDigits? skeleton_of_anyDigit? h.symm
    · exact skeleton_of_anyDigit? h.symm
  case second =>
    rcases h with h | h | h
    · exact skeleton_of_twoDigits? skeleton_of_digitFrom? h.symm
    · exact skeleton_of_twoDigits? skeleton_of_anyDigit? h.symm
    · exact skeleton_of_anyDigit? h.symm

def partSkeletons : LayoutPart → List Text
  | .field _ => [[]]
  | .shortMonth => Date.monthNames.map fun name => (Date.shortName name).asciiLower
  | .longMonth => Date.monthNames.map fun name => (Text.ofString name).asciiLower
  | .mark c => [[.scalar c.toLower]]
  | .blanks => [[]]

/-- The skeletons of what a row of parts reads. -/
def rowSkeletons : List LayoutPart → List Text
  | [] => [[]]
  | part :: parts => (partSkeletons part).flatMap fun s => (rowSkeletons parts).map (s ++ ·)

theorem mem_readMonth {form : String → Text} (h : (d, rest) ∈ readMonth form t) :
    ∃ name i after, (name, i) ∈ Date.monthNames.zipIdx ∧ d = i + 1 ∧
      rest = t.drop (form name).length ∧ t.asciiLower = (form name).asciiLower ++ after := by
  obtain ⟨⟨name, i⟩, hmem, hread⟩ := List.mem_filterMap.mp h
  obtain ⟨after, hdrop, heq⟩ := Option.map_eq_some_iff.mp hread
  obtain ⟨rfl, rfl⟩ := Prod.mk.inj heq
  exact ⟨name, i, after, hmem, rfl, rfl, Text.eq_append_of_dropPrefix? hdrop⟩

theorem skeleton_of_readMonth {form : String → Text}
    (hform : ∀ name ∈ Date.monthNames, ∀ p ∈ (form name).asciiLower, p.isBone = true)
    (h : (d, rest) ∈ readMonth form t) :
    ∃ name ∈ Date.monthNames, t.skeleton = (form name).asciiLower ++ rest.skeleton := by
  obtain ⟨name, i, after, hmem, rfl, rfl, ht⟩ := mem_readMonth h
  have hname : name ∈ Date.monthNames := List.fst_mem_of_mem_zipIdx hmem
  have hfront : Text.asciiLower (t.take (form name).length) = (form name).asciiLower := by
    rw [Text.asciiLower, List.map_take, ← Text.asciiLower, ht, List.take_left']
    simp [Text.asciiLower]
  refine ⟨name, hname, ?_⟩
  rw [← Text.skeleton_of_asciiLower hfront (hform name hname), ← Text.skeleton_append,
    List.take_append_drop]

theorem skeleton_of_skipBlanks : ∀ {t : Text}, rest ∈ skipBlanks t → t.skeleton = rest.skeleton
  | [], h => by cases h
  | p :: t, h => by
    unfold skipBlanks at h
    split at h
    next hblank =>
      rw [Text.skeleton_cons (CodePoint.isBone_eq_false_of_isBlank hblank)]
      rcases List.mem_append.mp h with h | h
      · exact skeleton_of_skipBlanks h
      · rw [List.mem_singleton.mp h]
    next => cases h

theorem skeleton_of_readPart {part : LayoutPart}
    (hpart : ∀ s ∈ partSkeletons part, ∀ p ∈ s, p.isBone = true)
    {set : DateNumbers → DateNumbers} (h : (set, rest) ∈ readPart part t) :
    ∃ s ∈ partSkeletons part, t.skeleton = s ++ rest.skeleton := by
  cases part with
  | field f =>
    obtain ⟨⟨d, u⟩, hread, heq⟩ := List.mem_map.mp h
    obtain ⟨-, rfl⟩ := Prod.mk.inj heq
    exact ⟨[], List.mem_singleton_self [], skeleton_of_readField hread⟩
  | shortMonth =>
    obtain ⟨⟨d, u⟩, hread, heq⟩ := List.mem_map.mp h
    obtain ⟨-, rfl⟩ := Prod.mk.inj heq
    obtain ⟨name, hname, ht⟩ := skeleton_of_readMonth
      (fun name hname => hpart _ (List.mem_map_of_mem hname)) hread
    exact ⟨_, List.mem_map_of_mem hname, ht⟩
  | longMonth =>
    obtain ⟨⟨d, u⟩, hread, heq⟩ := List.mem_map.mp h
    obtain ⟨-, rfl⟩ := Prod.mk.inj heq
    obtain ⟨name, hname, ht⟩ := skeleton_of_readMonth
      (fun name hname => hpart _ (List.mem_map_of_mem hname)) hread
    exact ⟨_, List.mem_map_of_mem hname, ht⟩
  | mark c =>
    cases t with
    | nil => cases h
    | cons p t =>
      simp only [readPart] at h
      split at h
      next hp =>
        obtain ⟨-, rfl⟩ := Prod.mk.inj (List.mem_singleton.mp h)
        have hmark : Text.skeleton [p] = [.scalar c.toLower] :=
          Text.skeleton_of_asciiLower (by rw [Text.asciiLower, List.map_singleton, hp])
            (hpart _ (List.mem_singleton_self _))
        refine ⟨_, List.mem_singleton_self _, ?_⟩
        rw [← hmark, ← Text.skeleton_append, List.singleton_append]
      next => cases h
  | blanks =>
    obtain ⟨u, hskip, heq⟩ := List.mem_map.mp h
    obtain ⟨-, rfl⟩ := Prod.mk.inj heq
    exact ⟨[], List.mem_singleton_self [], skeleton_of_skipBlanks hskip⟩

/-! ## Rows -/

theorem mem_readPart_of_readParts? {part : LayoutPart} {parts : List LayoutPart}
    (h : readParts? (part :: parts) t n = some r) :
    ∃ set rest, (set, rest) ∈ readPart part t ∧ readParts? parts rest (set n) = some r := by
  obtain ⟨⟨set, rest⟩, hmem, hread⟩ := List.exists_of_findSome?_eq_some h
  exact ⟨set, rest, hmem, hread⟩

theorem skeleton_of_readParts? : ∀ {parts : List LayoutPart} {t : Text} {n : DateNumbers},
    (∀ part ∈ parts, ∀ s ∈ partSkeletons part, ∀ p ∈ s, p.isBone = true) →
    readParts? parts t n = some r → ∃ s ∈ rowSkeletons parts, t.skeleton = s ++ r.2.skeleton
  | [], t, n, _, h => by
    obtain rfl := Option.some.inj h
    exact ⟨[], List.mem_singleton_self [], rfl⟩
  | part :: parts, t, n, hparts, h => by
    rw [List.forall_mem_cons] at hparts
    obtain ⟨set, rest, hmem, hread⟩ := mem_readPart_of_readParts? h
    obtain ⟨s, hs, ht⟩ := skeleton_of_readPart hparts.1 hmem
    obtain ⟨s', hs', hrest⟩ := skeleton_of_readParts? hparts.2 hread
    refine ⟨s ++ s', List.mem_flatMap.mpr ⟨s, hs, List.mem_map_of_mem hs'⟩, ?_⟩
    rw [ht, hrest, List.append_assoc]

theorem rowSkeletons_append {parts : List LayoutPart} (h : ∀ part ∈ parts, partSkeletons part = [[]])
    (more : List LayoutPart) : rowSkeletons (parts ++ more) = rowSkeletons more := by
  induction parts with
  | nil => rfl
  | cons part parts ih =>
    rw [List.forall_mem_cons] at h
    rw [List.cons_append, rowSkeletons, h.1, ih h.2]
    simp

/-! ## Layouts -/

/-- What the ending of a layout leaves of a text. -/
def endSkeleton (l : Layout) : Text :=
  (if l.fraction = 0 then [] else Text.single '.') ++ (if l.zulu then Text.single 'z' else [])

theorem takeZulu?_eq_some {zulu : Bool} (h : takeZulu? zulu t = some u) :
    t = u ++ if zulu then Text.single 'Z' else [] := by
  unfold takeZulu? at h
  cases zulu with
  | false =>
    obtain rfl := Option.some.inj h
    simp
  | true =>
    simp only [if_true] at h ⊢
    split at h
    next hlast =>
      obtain rfl := Option.some.inj h
      obtain ⟨front, rfl⟩ := List.getLast?_eq_some_iff.mp hlast
      rw [List.dropLast_concat]
      rfl
    next => cases h

theorem takeFraction?_eq_some {digits micro : Nat} (h : takeFraction? digits t = some (u, micro)) :
    (digits = 0 ∧ u = t ∧ micro = 0) ∨ digits ≠ 0 ∧ ∃ after, t.cutLast? (.scalar '.') = some (u, after) ∧
      after.length = digits ∧ after.all CodePoint.isDigit ∧ fractionMicros? after = some micro := by
  unfold takeFraction? at h
  split at h
  next hdigits =>
    cases h
    exact Or.inl ⟨hdigits, rfl, rfl⟩
  next hdigits =>
    refine Or.inr ⟨hdigits, ?_⟩
    split at h
    next before after hcut =>
      split at h
      next hafter =>
        obtain ⟨micro', hmicro, heq⟩ := Option.map_eq_some_iff.mp h
        cases heq
        rw [Bool.and_eq_true, decide_eq_true_eq] at hafter
        exact ⟨after, hcut, hafter.1, hafter.2, hmicro⟩
      next => cases h
    next => cases h

theorem skeleton_of_takeFraction? {digits micro : Nat} (h : takeFraction? digits t = some (u, micro)) :
    t.skeleton = u.skeleton ++ if digits = 0 then [] else Text.single '.' := by
  rcases takeFraction?_eq_some h with ⟨hdigits, rfl, -⟩ | ⟨hdigits, after, hcut, -, hafter, -⟩
  · rw [if_pos hdigits, List.append_nil]
  · rw [if_neg hdigits, Text.eq_append_of_cutLast? hcut, ← List.singleton_append, Text.skeleton_append,
      Text.skeleton_append, Text.skeleton_eq_nil (t := after), List.append_nil]
    · rfl
    · intro p hp
      exact CodePoint.isBone_eq_false_of_isDigit (List.all_eq_true.mp hafter p hp)

/-- The numbers and the microseconds that a text has in a layout. -/
structure ReadsAs (l : Layout) (now : Date) (t : Text) (n : DateNumbers) (micro : Nat) : Prop where
  steps : ∃ body row, takeZulu? l.zulu t = some body ∧
    takeFraction? l.fraction body = some (row, micro) ∧
    readParts? ((l.supplied now).1 ++ l.parts) ((l.supplied now).2 ++ row) {} = some (n, [])

theorem readAll?_eq_some_iff {parts : List LayoutPart} :
    readAll? parts t = some n ↔ readParts? parts t {} = some (n, []) := by
  unfold readAll?
  split
  next n' hread => simp [hread]
  next hnot => exact ⟨nofun, fun h => absurd h (hnot n)⟩

theorem read?_eq_some_iff {l : Layout} {now m : Moment} : l.read? now t = some m ↔
    ∃ n micro, l.ReadsAs now.date t n micro ∧ Date.of? n.year n.month n.day = some m.date ∧
      TimeOfDay.of? n.hour n.minute n.second micro = some m.time ∧
      m.zone = (if l.zulu then .utc else now.zone) ∧ m.later = false := by
  constructor
  · intro h
    obtain ⟨body, hzulu, h⟩ := Option.bind_eq_some_iff.mp h
    obtain ⟨⟨row, micro⟩, hfraction, h⟩ := Option.bind_eq_some_iff.mp h
    obtain ⟨n, hparts, h⟩ := Option.bind_eq_some_iff.mp h
    obtain ⟨date, hdate, h⟩ := Option.bind_eq_some_iff.mp h
    obtain ⟨time, htime, h⟩ := Option.bind_eq_some_iff.mp h
    cases h
    exact ⟨n, micro, ⟨body, row, hzulu, hfraction, readAll?_eq_some_iff.mp hparts⟩, hdate, htime,
      rfl, rfl⟩
  · intro h
    obtain ⟨n, micro, ⟨body, row, hzulu, hfraction, hparts⟩, hdate, htime, hzone, hlater⟩ := h
    obtain ⟨date, time, zone, later⟩ := m
    simp only at hdate htime hzone hlater
    simp only [read?, hzulu, hfraction, readAll?_eq_some_iff.mpr hparts, hdate, htime, hzone, hlater,
      Option.bind_eq_bind, Option.bind_some]

theorem skeleton_supplied (l : Layout) (now : Date) :
    (∀ part ∈ (l.supplied now).1, partSkeletons part = [[]]) ∧ (l.supplied now).2.skeleton = [] := by
  unfold supplied
  split
  · refine ⟨by simp [partSkeletons], ?_⟩
    simp only [Text.skeleton_append, Text.skeleton_ofNatPadded]
    rfl
  split
  · refine ⟨by simp [partSkeletons], ?_⟩
    simp only [Text.skeleton_append, Text.skeleton_ofNatPadded]
    rfl
  · exact ⟨nofun, rfl⟩

/-- The marks of a layout show in a skeleton as they are. -/
def IsBony (l : Layout) : Prop :=
  ∀ part ∈ l.parts, ∀ s ∈ partSkeletons part, ∀ p ∈ s, p.isBone = true

/-- **A text that is read in a layout** has a skeleton of its row and its ending. -/
theorem ReadsAs.skeleton {l : Layout} {now : Date} {micro : Nat} (h : l.ReadsAs now t n micro)
    (hl : l.IsBony) : ∃ s ∈ rowSkeletons l.parts, t.skeleton = s ++ l.endSkeleton := by
  obtain ⟨body, row, hzulu, hfraction, hparts⟩ := h.steps
  obtain ⟨hsupplied, hfront⟩ := skeleton_supplied l now
  obtain ⟨s, hs, hrow⟩ := skeleton_of_readParts? (by
    intro part hpart s hs p hp
    rcases List.mem_append.mp hpart with hpart | hpart
    · rw [hsupplied part hpart, List.mem_singleton] at hs
      rw [hs] at hp
      cases hp
    · exact hl part hpart s hs p hp) hparts
  rw [rowSkeletons_append hsupplied] at hs
  rw [Text.skeleton_append, hfront, List.nil_append, Text.skeleton_nil, List.append_nil] at hrow
  refine ⟨s, hs, ?_⟩
  rw [takeZulu?_eq_some hzulu, Text.skeleton_append, skeleton_of_takeFraction? hfraction, hrow,
    endSkeleton, List.append_assoc]
  cases l.zulu <;> rfl

end Layout
end LogQuery
