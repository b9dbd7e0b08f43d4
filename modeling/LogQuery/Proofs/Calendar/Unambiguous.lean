import LogQuery.Proofs.Calendar.Skeleton
import LogQuery.Proofs.Steps
import Mathlib.Data.List.Basic
/-!
# The layouts are unambiguous

Layouts of the table that share a skeleton differ at most in the form of the month with which they begin
(`alike_of_skeleton`), and May alone has a short name that is a long one, so that the blank behind the name
tells the forms apart (`readParts?_month_eq`). The endings show in the skeleton too, and the number of
digits behind the last point is the same for all layouts. So no text is read in two ways (`read?_agree`),
and the order of the table does not matter (`table_unambiguous`).
-/
namespace LogQuery.Layout

variable {t u rest : Text} {n : DateNumbers} {d : Nat} {r r' : DateNumbers × Text}

/-! ## The table -/

def bare (l : Layout) : Layout := { l with fraction := 0, zulu := false }

/-- The layouts without endings. -/
def bareTable : List Layout := table.filter fun l => l.bare = l

theorem bare_mem {l : Layout} (h : l ∈ table) : l.bare ∈ bareTable :=
  (by decide +kernel : ∀ l ∈ table, l.bare ∈ bareTable) l h

theorem isBony_of_mem {l : Layout} (h : l ∈ table) : l.IsBony :=
  (by decide +kernel : ∀ l ∈ bareTable, ∀ part ∈ l.parts, ∀ s ∈ partSkeletons part, ∀ p ∈ s, p.isBone = true)
    l.bare (bare_mem h)

theorem not_mem_rowSkeletons {l : Layout} (h : l ∈ table) {s : Text} (hs : s ∈ rowSkeletons l.parts) :
    .scalar '.' ∉ s ∧ .scalar 'z' ∉ s :=
  (by decide +kernel : ∀ l ∈ bareTable, ∀ s ∈ rowSkeletons l.parts, .scalar '.' ∉ s ∧ .scalar 'z' ∉ s)
    l.bare (bare_mem h) s hs

/-- Two layouts that differ at most in their endings and in the form of the month with which they begin. -/
def Alike (l l' : Layout) : Prop :=
  l.timeOnly = l'.timeOnly ∧ l.yearless = l'.yearless ∧
    (l.parts = l'.parts ∨ (l.timeOnly = false ∧ l.yearless = true ∧
      l.parts.tail = l'.parts.tail ∧ l.parts.tail.head? = some .blanks ∧
      (l.parts.head? = some .shortMonth ∧ l'.parts.head? = some .longMonth ∨
        l.parts.head? = some .longMonth ∧ l'.parts.head? = some .shortMonth)))

instance (l l' : Layout) : Decidable (Alike l l') := by unfold Alike; infer_instance

/-- **Rows that share a skeleton** are alike. -/
theorem alike_of_skeleton {l l' : Layout} (h : l ∈ table) (h' : l' ∈ table) {s : Text}
    (hs : s ∈ rowSkeletons l.parts) (hs' : s ∈ rowSkeletons l'.parts) : Alike l l' :=
  (by decide +kernel : ∀ l ∈ bareTable, ∀ l' ∈ bareTable, ∀ s ∈ rowSkeletons l.parts,
    s ∈ rowSkeletons l'.parts → Alike l l') l.bare (bare_mem h) l'.bare (bare_mem h') s hs hs'

theorem endSkeleton_inj {l l' : Layout} (h : l.endSkeleton = l'.endSkeleton) :
    l.zulu = l'.zulu ∧ (l.fraction = 0 ↔ l'.fraction = 0) := by
  unfold endSkeleton at h
  by_cases hfraction : l.fraction = 0 <;> by_cases hfraction' : l'.fraction = 0 <;>
    cases hzulu : l.zulu <;> cases hzulu' : l'.zulu <;>
    simp [hfraction, hfraction', hzulu, hzulu', Text.single] at h ⊢

theorem filter_skeleton {l : Layout} (h : l ∈ table) {s : Text} (hs : s ∈ rowSkeletons l.parts) :
    (s ++ l.endSkeleton).filter (fun p => p ≠ .scalar '.' ∧ p ≠ .scalar 'z') = s := by
  obtain ⟨hdot, hz⟩ := not_mem_rowSkeletons h hs
  rw [List.filter_append, List.filter_eq_self.mpr, List.filter_eq_nil_iff.mpr, List.append_nil]
  · intro p hp
    unfold endSkeleton at hp
    rcases List.mem_append.mp hp with hp | hp <;> split at hp <;>
      simp_all [Text.single]
  · intro p hp
    rw [decide_eq_true_eq]
    exact ⟨fun h => hdot (h ▸ hp), fun h => hz (h ▸ hp)⟩

/-- **Layouts that read one text** are alike, and so are their endings. -/
theorem ReadsAs.alike {l l' : Layout} (hl : l ∈ table) (hl' : l' ∈ table) {now : Date}
    {n' : DateNumbers} {micro micro' : Nat} (h : l.ReadsAs now t n micro)
    (h' : l'.ReadsAs now t n' micro') :
    Alike l l' ∧ l.zulu = l'.zulu ∧ (l.fraction = 0 ↔ l'.fraction = 0) := by
  obtain ⟨s, hs, ht⟩ := h.skeleton (isBony_of_mem hl)
  obtain ⟨s', hs', ht'⟩ := h'.skeleton (isBony_of_mem hl')
  have hboth : s ++ l.endSkeleton = s' ++ l'.endSkeleton := ht.symm.trans ht'
  obtain rfl : s = s' := by
    rw [← filter_skeleton hl hs, hboth, filter_skeleton hl' hs']
  exact ⟨alike_of_skeleton hl hl' hs hs', endSkeleton_inj (List.append_cancel_left hboth)⟩

/-! ## Forms of the month -/

theorem eq_of_shortName_begins {a b : String × Nat} (ha : a ∈ Date.monthNames.zipIdx)
    (hb : b ∈ Date.monthNames.zipIdx)
    (h : (Date.shortName a.1).asciiLower <+: (Text.ofString b.1).asciiLower) : a = b :=
  (by decide +kernel : ∀ a ∈ Date.monthNames.zipIdx, ∀ b ∈ Date.monthNames.zipIdx,
    (Date.shortName a.1).asciiLower <+: (Text.ofString b.1).asciiLower → a = b) a ha b hb h

theorem long_of_shortName {name : String} (h : name ∈ Date.monthNames) :
    (Date.shortName name).length = 3 ∧ 3 ≤ (Text.ofString name).length ∧
      ∀ p ∈ (Text.ofString name).asciiLower, p.isBone = true :=
  (by decide +kernel : ∀ name ∈ Date.monthNames, (Date.shortName name).length = 3 ∧
    3 ≤ (Text.ofString name).length ∧ ∀ p ∈ (Text.ofString name).asciiLower, p.isBone = true) name h

theorem length_asciiLower (t : Text) : t.asciiLower.length = t.length := List.length_map _

theorem blank_of_readParts? {parts : List LayoutPart} (h : readParts? (.blanks :: parts) t n = some r) :
    ∃ p u, t = p :: u ∧ p.isBlank = true := by
  obtain ⟨set, rest, hmem, -⟩ := mem_readPart_of_readParts? h
  obtain ⟨u, hskip, -⟩ := List.mem_map.mp hmem
  cases t with
  | nil => cases hskip
  | cons p t =>
    unfold skipBlanks at hskip
    split at hskip
    next hp => exact ⟨p, t, rfl, hp⟩
    next => cases hskip

theorem length_le_of_blank {name after : Text} {p : CodePoint} {k : Nat}
    (ht : t.asciiLower = name.asciiLower ++ after) (hname : ∀ p ∈ name.asciiLower, p.isBone = true)
    (hdrop : t.drop k = p :: u) (hp : p.isBlank = true) : name.length ≤ k := by
  apply Nat.le_of_not_lt
  intro hk
  have hat : t.asciiLower[k]? = some p.asciiLower := by
    have hhead := List.head?_drop (l := t) (i := k)
    rw [hdrop] at hhead
    rw [Text.asciiLower, List.getElem?_map, ← hhead]
    rfl
  rw [ht, List.getElem?_append_left (by rwa [length_asciiLower])] at hat
  have hbone : p.isBone = true :=
    CodePoint.isBone_of_asciiLower (hname _ (List.mem_of_getElem? hat))
  rw [CodePoint.isBone_eq_false_of_isBlank hp] at hbone
  cases hbone

theorem readParts?_month_eq {parts : List LayoutPart}
    (h : readParts? (.shortMonth :: .blanks :: parts) t n = some r)
    (h' : readParts? (.longMonth :: .blanks :: parts) t n = some r') : r = r' := by
  obtain ⟨_, _, hmem, hread⟩ := mem_readPart_of_readParts? h
  obtain ⟨_, _, hmem', hread'⟩ := mem_readPart_of_readParts? h'
  obtain ⟨⟨d, rest⟩, hshort, heq⟩ := List.mem_map.mp hmem
  obtain ⟨rfl, rfl⟩ := Prod.mk.inj heq
  obtain ⟨⟨d', rest'⟩, hlong, heq'⟩ := List.mem_map.mp hmem'
  obtain ⟨rfl, rfl⟩ := Prod.mk.inj heq'
  obtain ⟨name, i, after, hname, rfl, rfl, ht⟩ := mem_readMonth hshort
  obtain ⟨name', i', after', hname', rfl, rfl, ht'⟩ := mem_readMonth hlong
  obtain ⟨hthree, -, -⟩ := long_of_shortName (List.fst_mem_of_mem_zipIdx hname)
  obtain ⟨-, hmore, hbones⟩ := long_of_shortName (List.fst_mem_of_mem_zipIdx hname')
  have hprefix : (Date.shortName name).asciiLower <+: (Text.ofString name').asciiLower := by
    apply List.prefix_of_prefix_length_le (List.prefix_append _ after)
    · rw [← ht, ht']
      exact List.prefix_append _ after'
    · rw [length_asciiLower, length_asciiLower, hthree]
      exact hmore
  obtain ⟨rfl, rfl⟩ := Prod.mk.inj (eq_of_shortName_begins hname hname' hprefix)
  -- The blank behind the short name rules out a fourth letter, which only leaves May.
  obtain ⟨p, u, hdrop, hblank⟩ := blank_of_readParts? hread
  rw [hthree] at hdrop hread
  have hlength : (Text.ofString name).length = 3 :=
    Nat.le_antisymm (length_le_of_blank ht' hbones hdrop hblank) hmore
  rw [hlength] at hread'
  exact Option.some.inj (hread.symm.trans hread')

theorem head_of_readMonth {form : String → Text}
    (hform : ∀ name ∈ Date.monthNames, (form name).asciiLower ≠ [] ∧
      ∀ p ∈ (form name).asciiLower, p.isBone = true)
    (h : (d, rest) ∈ readMonth form t) : ∃ p u, t = p :: u ∧ p.isBone = true := by
  obtain ⟨name, i, after, hname, -, -, ht⟩ := mem_readMonth h
  obtain ⟨hne, hbones⟩ := hform name (List.fst_mem_of_mem_zipIdx hname)
  obtain ⟨c, cs, hc⟩ := List.exists_cons_of_ne_nil hne
  rw [hc, List.cons_append] at ht
  obtain ⟨p, u, rfl, hp, -⟩ := List.map_eq_cons_iff.mp ht
  refine ⟨p, u, rfl, CodePoint.isBone_of_asciiLower ?_⟩
  rw [hp]
  exact hbones c (hc ▸ List.mem_cons_self)

theorem head_of_month {month : LayoutPart} (hmonth : month = .shortMonth ∨ month = .longMonth)
    {parts : List LayoutPart} (h : readParts? (month :: parts) t n = some r) :
    ∃ p u, t = p :: u ∧ p.isBone = true := by
  obtain ⟨set, rest, hmem, -⟩ := mem_readPart_of_readParts? h
  rcases hmonth with rfl | rfl
  · obtain ⟨⟨d, rest'⟩, hread, -⟩ := List.mem_map.mp hmem
    exact head_of_readMonth (by decide +kernel) hread
  · obtain ⟨⟨d, rest'⟩, hread, -⟩ := List.mem_map.mp hmem
    exact head_of_readMonth (by decide +kernel) hread

theorem dropWhile_of_skipBlanks {p : CodePoint} (hp : p.isBlank = false) : ∀ {t : Text},
    p :: u ∈ skipBlanks t → t.dropWhile CodePoint.isBlank = p :: u
  | [], h => by cases h
  | q :: t, h => by
    unfold skipBlanks at h
    split at h
    next hq =>
      rw [List.dropWhile_cons_of_pos hq]
      rcases List.mem_append.mp h with h | h
      · exact dropWhile_of_skipBlanks hp h
      · rw [List.mem_singleton] at h
        rw [← h, List.dropWhile_cons_of_neg]
        rw [hp]
        exact Bool.false_ne_true
    next => cases h

theorem readParts?_blanks_month {month : LayoutPart}
    (hmonth : month = .shortMonth ∨ month = .longMonth) {parts : List LayoutPart}
    (h : readParts? (.blanks :: month :: parts) t n = some r) :
    readParts? (month :: parts) (t.dropWhile CodePoint.isBlank) n = some r := by
  obtain ⟨set, rest, hmem, hread⟩ := mem_readPart_of_readParts? h
  obtain ⟨rest', hskip, heq⟩ := List.mem_map.mp hmem
  obtain ⟨rfl, rfl⟩ := Prod.mk.inj heq
  obtain ⟨p, u, rfl, hp⟩ := head_of_month hmonth hread
  have hblank : p.isBlank = false := by
    rw [Bool.eq_false_iff]
    intro h
    rw [CodePoint.isBone_eq_false_of_isBlank h] at hp
    cases hp
  rw [dropWhile_of_skipBlanks hblank hskip]
  exact hread

theorem readParts?_year {parts : List LayoutPart}
    (h : readParts? (.field .year :: parts) t n = some r) :
    ∃ d rest, fourDigits? t = some (d, rest) ∧ readParts? parts rest (n.set .year d) = some r := by
  obtain ⟨set, rest, hmem, hread⟩ := mem_readPart_of_readParts? h
  obtain ⟨⟨d, rest'⟩, hfield, heq⟩ := List.mem_map.mp hmem
  obtain ⟨rfl, rfl⟩ := Prod.mk.inj heq
  simp only [readField, List.mem_filterMap, id, exists_eq_right, List.mem_singleton] at hfield
  exact ⟨d, rest', hfield.symm, hread⟩

/-- **The form of the month** behind a supplied year does not matter. -/
theorem readParts?_yearless_eq {parts : List LayoutPart}
    (h : readParts? (.field .year :: .blanks :: .shortMonth :: .blanks :: parts) t n = some r)
    (h' : readParts? (.field .year :: .blanks :: .longMonth :: .blanks :: parts) t n = some r') :
    r = r' := by
  obtain ⟨d, rest, hyear, hread⟩ := readParts?_year h
  obtain ⟨d', rest', hyear', hread'⟩ := readParts?_year h'
  obtain ⟨rfl, rfl⟩ := Prod.mk.inj (Option.some.inj (hyear.symm.trans hyear'))
  exact readParts?_month_eq (readParts?_blanks_month (Or.inl rfl) hread)
    (readParts?_blanks_month (Or.inr rfl) hread')

/-! ## Unambiguity -/

theorem takeFraction?_eq {digits digits' micro micro' : Nat} {u' : Text}
    (h : takeFraction? digits t = some (u, micro)) (h' : takeFraction? digits' t = some (u', micro'))
    (hzero : digits = 0 ↔ digits' = 0) : u = u' ∧ micro = micro' := by
  rcases takeFraction?_eq_some h with ⟨hdigits, rfl, rfl⟩ | ⟨hdigits, after, hcut, -, -, hmicro⟩
  · rcases takeFraction?_eq_some h' with ⟨-, rfl, rfl⟩ | ⟨hdigits', -⟩
    · exact ⟨rfl, rfl⟩
    · exact absurd (hzero.mp hdigits) hdigits'
  · rcases takeFraction?_eq_some h' with ⟨hdigits', -⟩ | ⟨-, after', hcut', -, -, hmicro'⟩
    · exact absurd (hzero.mpr hdigits') hdigits
    · obtain ⟨rfl, rfl⟩ := Prod.mk.inj (Option.some.inj (hcut.symm.trans hcut'))
      exact ⟨rfl, Option.some.inj (hmicro.symm.trans hmicro')⟩

theorem Alike.numbers_eq {l l' : Layout} (halike : Alike l l') {now : Date} {n n' : DateNumbers}
    (h : readParts? ((l.supplied now).1 ++ l.parts) ((l.supplied now).2 ++ t) {} = some (n, []))
    (h' : readParts? ((l'.supplied now).1 ++ l'.parts) ((l'.supplied now).2 ++ t) {} = some (n', [])) :
    n = n' := by
  obtain ⟨htime, hyear, hparts⟩ := halike
  have hsupplied : l'.supplied now = l.supplied now := by
    rw [supplied, supplied, htime, hyear]
  rw [hsupplied] at h'
  rcases hparts with hparts | ⟨hdated, hyearless, htail, hblanks, hforms⟩
  · rw [hparts] at h
    exact (Prod.mk.inj (Option.some.inj (h.symm.trans h'))).1
  · have hfront : (l.supplied now).1 = [.field .year, .blanks] := by
      rw [supplied, hdated, hyearless]
      rfl
    rw [hfront] at h h'
    obtain ⟨parts, hrest⟩ := List.head?_eq_some_iff.mp hblanks
    rw [hrest] at htail
    rcases hforms with ⟨hshort, hlong⟩ | ⟨hlong, hshort⟩
    · rw [← List.cons_head?_tail hshort, hrest] at h
      rw [← List.cons_head?_tail hlong, ← htail] at h'
      exact (Prod.mk.inj (readParts?_yearless_eq h h')).1
    · rw [← List.cons_head?_tail hlong, hrest] at h
      rw [← List.cons_head?_tail hshort, ← htail] at h'
      exact (Prod.mk.inj (readParts?_yearless_eq h' h)).1.symm

/-- **The numbers of a text** are the same in all layouts in which it has any. -/
theorem ReadsAs.unique {l l' : Layout} (hl : l ∈ table) (hl' : l' ∈ table) {now : Date}
    {n' : DateNumbers} {micro micro' : Nat} (h : l.ReadsAs now t n micro)
    (h' : l'.ReadsAs now t n' micro') : n = n' ∧ micro = micro' ∧ l.zulu = l'.zulu := by
  obtain ⟨halike, hzulu, hzero⟩ := h.alike hl hl' h'
  obtain ⟨body, row, hbody, hrow, hparts⟩ := h.steps
  obtain ⟨body', row', hbody', hrow', hparts'⟩ := h'.steps
  rw [hzulu] at hbody
  obtain rfl := Option.some.inj (hbody.symm.trans hbody')
  obtain ⟨rfl, rfl⟩ := takeFraction?_eq hrow hrow' hzero
  exact ⟨halike.numbers_eq hparts hparts', rfl, hzulu⟩

/-- **No text is read in two ways** by the layouts of the table. -/
theorem read?_agree {l l' : Layout} (hl : l ∈ table) (hl' : l' ∈ table) {now m m' : Moment}
    (h : l.read? now t = some m) (h' : l'.read? now t = some m') : m = m' := by
  obtain ⟨n, micro, hreads, hdate, htime, hzone, hlater⟩ := read?_eq_some_iff.mp h
  obtain ⟨n', micro', hreads', hdate', htime', hzone', hlater'⟩ := read?_eq_some_iff.mp h'
  obtain ⟨rfl, rfl, hzulu⟩ := hreads.unique hl hl' hreads'
  cases m
  cases m'
  simp only at hdate htime hzone hlater hdate' htime' hzone' hlater'
  rw [hdate] at hdate'
  rw [htime] at htime'
  rw [Option.some.inj hdate', Option.some.inj htime', hzone, hzone', hlater, hlater', hzulu]

/-! ## The order of the table -/

/-- **A text that one of some layouts reads** is read so, whichever of the others are tried first. -/
theorem findSome?_of_read? {layouts : List Layout} (hlayouts : layouts ⊆ table) {l : Layout}
    (hl : l ∈ layouts) {now m : Moment} (h : l.read? now t = some m) :
    (layouts.findSome? fun l => l.read? now t) = some m := by
  cases hfind : layouts.findSome? fun l => l.read? now t with
  | none =>
    rw [List.findSome?_eq_none_iff.mp hfind l hl] at h
    cases h
  | some m' =>
    obtain ⟨l', hl', h'⟩ := List.exists_of_findSome?_eq_some hfind
    rw [read?_agree (hlayouts hl') (hlayouts hl) h' h]

theorem findSome?_read?_eq {layouts : List Layout} (hlayouts : ∀ l, l ∈ layouts ↔ l ∈ table)
    (now : Moment) (t : Text) :
    (layouts.findSome? fun l => l.read? now t) = table.findSome? fun l => l.read? now t := by
  cases hfind : table.findSome? fun l => l.read? now t with
  | none =>
    rw [List.findSome?_eq_none_iff] at hfind ⊢
    intro l hl
    exact hfind l ((hlayouts l).mp hl)
  | some m =>
    obtain ⟨l, hl, h⟩ := List.exists_of_findSome?_eq_some hfind
    exact findSome?_of_read? (fun l => (hlayouts l).mp) ((hlayouts l).mpr hl) h

/-- The moment that a date expression means if some layouts are tried, one after the other. -/
def resolveIn (layouts : List Layout) (token : Text) (now : Moment) : Except DateFailure Moment :=
  if token.isString "now" then .ok now
  else
    match Step.ofText? token with
    | some step => step.before token now
    | none =>
      match layouts.findSome? fun l => l.read? now token with
      | some m => .ok m
      | none => .error (.error (.noLayout token))

theorem resolveIn_table (token : Text) (now : Moment) :
    resolveIn table token now = resolve token now := by
  unfold resolveIn resolve
  -- The table itself would be looked through, layout by layout.
  generalize (table.findSome? fun l => l.read? now token) = found
  rfl

/-- **The table is unambiguous.** Layouts of the table that read a date expression at all read the same
moment in it, date, time, microsecond and zone. So a date expression means the same whatever the order in
which these layouts are tried, and however often one of them is repeated. -/
theorem table_unambiguous (token : Text) (now : Moment) :
    (∀ l ∈ table, ∀ l' ∈ table, ∀ m m', l.read? now token = some m → l'.read? now token = some m' →
      m = m') ∧
    ∀ layouts : List Layout, (∀ l, l ∈ layouts ↔ l ∈ table) →
      resolveIn layouts token now = resolve token now := by
  refine ⟨fun l hl l' hl' m m' h h' => read?_agree hl hl' h h', fun layouts hlayouts => ?_⟩
  rw [← resolveIn_table, resolveIn, resolveIn, findSome?_read?_eq hlayouts now token]

/-- A month and a day, by the form of the month. -/
def dayLayout (month : LayoutPart) : Layout := { parts := monthDay month, yearless := true }

def thirdOfMay : Moment :=
  { date := ⟨2024, 5, 3, by decide⟩, time := .midnight, zone := .utc, later := false }

/-- May is read in two layouts, and the table may be tried from its end. -/
theorem table_unambiguous_may : (dayLayout .shortMonth).read? thirdOfMay "May 3" = some thirdOfMay ∧
    (dayLayout .longMonth).read? thirdOfMay "May 3" = some thirdOfMay ∧
    dayLayout .shortMonth ≠ dayLayout .longMonth ∧
    resolveIn table.reverse "May 3" thirdOfMay = .ok thirdOfMay := by
  have hshort : (dayLayout .shortMonth).read? thirdOfMay "May 3" = some thirdOfMay := by decide +kernel
  obtain ⟨hagree, horder⟩ := table_unambiguous "May 3" thirdOfMay
  have hmem : ∀ l, l ∈ table.reverse ↔ l ∈ table := fun l => List.mem_reverse
  have hresolve : resolve "May 3" thirdOfMay = .ok thirdOfMay := eq_ok_of_toOption (by decide +kernel)
  have hlong : ∃ m, (dayLayout .longMonth).read? thirdOfMay "May 3" = some m :=
    Option.isSome_iff_exists.mp (by decide +kernel)
  obtain ⟨m, hm⟩ := hlong
  obtain rfl := hagree _ (by decide +kernel) _ (by decide +kernel) _ _ hshort hm
  exact ⟨hshort, hm, by decide, (horder table.reverse hmem).trans hresolve⟩

end LogQuery.Layout
