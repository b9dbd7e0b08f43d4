import LogQuery.Filter.Order
import Mathlib.Data.List.DropRight
import Mathlib.Data.List.Infix
/-!
# Printed orders

An order is printed as a field with a sign in front of it or a direction behind it, or both. Reading looks
for the shortest field behind which there is nothing or a direction. Neither is inside a field without
blanks that does not end in a direction itself (`IsField`), because no direction has a colon or a blank in
it; so exactly the printed field is found.

* `fieldAndDirection?_append`: the field in front of a direction.
* `isSome_fieldAndDirection?`, `fieldAndDirection?_eq_none_iff`: the texts that begin with a field.
* `parse_printed`: every printed order is read back, and the texts that are no order.
-/
namespace LogQuery

/-! ## Blanks around a text -/

namespace Text

def IsBlank (t : Text) : Prop := ∀ p ∈ t, p.isBlank = true

def IsSolid (t : Text) : Prop := ∀ p ∈ t, p.isBlank = false

instance (t : Text) : Decidable t.IsBlank := inferInstanceAs (Decidable (∀ p ∈ t, p.isBlank = true))

instance (t : Text) : Decidable t.IsSolid := inferInstanceAs (Decidable (∀ p ∈ t, p.isBlank = false))

variable {front t back : Text} {p : CodePoint}

theorem strip_append (hfront : front.IsBlank) (hback : back.IsBlank) (hne : t ≠ [])
    (hhead : ∀ p ∈ t.head?, p.isBlank = false) (hlast : ∀ p ∈ t.getLast?, p.isBlank = false) :
    (front ++ t ++ back).strip = t := by
  have hdrop : ∀ {u v : Text}, u ≠ [] → (∀ p ∈ u.head?, p.isBlank = false) →
      (u ++ v).dropWhile CodePoint.isBlank = u ++ v := by
    intro u v hu hhead
    obtain ⟨p, u, rfl⟩ := List.exists_cons_of_ne_nil hu
    exact List.dropWhile_cons_of_neg (by simp [hhead p rfl])
  have hreverse : t.reverse ≠ [] := List.reverse_ne_nil_iff.mpr hne
  have hback' : ∀ p ∈ back.reverse, p.isBlank = true := fun p hp => hback p (List.mem_reverse.mp hp)
  rw [strip, trim, List.append_assoc, List.dropWhile_append_of_pos hfront, hdrop hne hhead, trimEnd,
    List.reverse_append, List.dropWhile_append_of_pos hback', ← List.append_nil t.reverse,
    hdrop hreverse (by simpa using hlast), List.append_nil, List.reverse_reverse]

theorem strip_eq_nil_iff : t.strip = [] ↔ t.IsBlank := by
  constructor
  · intro h p hp
    have hrest := List.rdropWhile_eq_nil_iff.mp h
    rw [← List.takeWhile_append_dropWhile (p := CodePoint.isBlank) (l := t), List.mem_append] at hp
    exact hp.elim List.mem_takeWhile_imp (hrest p)
  · intro h
    rw [strip, trim, List.dropWhile_eq_nil_iff.mpr h]
    rfl

theorem isBlank_of_mem_head?_strip (h : p ∈ t.strip.head?) : p.isBlank = false := by
  obtain ⟨rest, hrest⟩ : t.strip <+: t.dropWhile CodePoint.isBlank := List.rdropWhile_prefix _ _
  have hall := List.head?_dropWhile_not CodePoint.isBlank t
  rw [← hrest, List.head?_append, h] at hall
  simpa using hall

end Text

namespace Order

variable {field tail t direction : Text} {p : CodePoint}

/-! ## Directions -/

theorem asciiLower_of_isBlank (h : p.isBlank = true) : p.asciiLower = p := by
  cases p with
  | surrogate o => rfl
  | scalar c =>
    have hcapital : ¬ (65 ≤ c.toNat ∧ c.toNat ≤ 90) := by
      intro hc
      have hcode : (CodePoint.scalar c).code = c.toNat := rfl
      rw [CodePoint.isBlank, hcode, if_pos (by omega)] at h
      simp only [Bool.or_eq_true, Bool.and_eq_true, decide_eq_true_eq] at h
      omega
    have hlower : c.toLower = c := by
      unfold Char.toLower
      rw [dif_neg]
      exact hcapital
    rw [CodePoint.asciiLower, hlower]

theorem not_isLetter {c : Char} (hc : c ∈ ['a', 's', 'c', 'd', 'e'])
    (hp : p.isBlank = true ∨ p = .scalar ':') : isLetter c p = false := by
  have hlower : p.asciiLower = p := by
    rcases hp with hp | rfl
    · exact asciiLower_of_isBlank hp
    · rfl
  have hne : ∀ x ∈ ['a', 's', 'c', 'd', 'e', '\u017f'], p ≠ .scalar x := by
    rintro x hx rfl
    have hall : ['a', 's', 'c', 'd', 'e', '\u017f'].all
        (fun x => !(CodePoint.scalar x).isBlank && x != ':') = true := by decide
    have hsolid : (CodePoint.scalar x).isBlank = false ∧ x ≠ ':' := by
      simpa using List.all_eq_true.mp hall x hx
    rcases hp with hp | hp
    · rw [hsolid.1] at hp
      cases hp
    · exact hsolid.2 (CodePoint.scalar.inj hp)
  have hletter := hne c (List.mem_append_left ['\u017f'] hc)
  have hlong := hne '\u017f' (by decide)
  simp [isLetter, hlower, hletter, hlong]

theorem exists_isLetter {word : String} (h : isWord word t = true) (hp : p ∈ t) :
    ∃ c ∈ word.toList, isLetter c p = true := by
  rw [isWord, Bool.and_eq_true, decide_eq_true_eq] at h
  obtain ⟨hlength, hall⟩ := h
  have hsnd : (word.toList.zip t).map Prod.snd = t := List.map_snd_zip (by rw [hlength, String.length_toList])
  rw [← hsnd] at hp
  obtain ⟨⟨c, p⟩, hmem, rfl⟩ := List.mem_map.mp hp
  exact ⟨c, (List.of_mem_zip hmem).1, List.all_eq_true.mp hall _ hmem⟩

theorem not_isDirection (hp : p.isBlank = true ∨ p = .scalar ':') (hmem : p ∈ t) :
    isDirection t = false := by
  have hnot : ∀ word : String, word.toList ⊆ ['a', 's', 'c', 'd', 'e'] → isWord word t = false := by
    intro word hword
    rw [← Bool.not_eq_true]
    intro h
    obtain ⟨c, hc, hletter⟩ := exists_isLetter h hmem
    rw [not_isLetter (hword hc) hp] at hletter
    cases hletter
  rw [isDirection, hnot "asc" (by decide), hnot "desc" (by decide)]
  rfl

/-- A text that names a direction, in ASCII letters of any case. -/
def Names (word : Text) (ascending : Bool) : Prop :=
  word.asciiLower = Text.ofString (if ascending then "asc" else "desc")

theorem isLetter_of_asciiLower {c : Char} (h : p.asciiLower = .scalar c) : isLetter c p = true := by
  simp [isLetter, h]

theorem isWord_of_asciiLower {word : String} (h : t.asciiLower = Text.ofString word) :
    isWord word t = true := by
  have hlength : t.length = word.length := by
    have hlength := congrArg List.length h
    rwa [Text.asciiLower, List.length_map, Text.ofString, Text.ofChars, List.length_map,
      String.length_toList] at hlength
  rw [isWord, decide_eq_true hlength, Bool.true_and, List.all_eq_true]
  rintro ⟨c, p⟩ hmem
  obtain ⟨i, hi⟩ := List.mem_iff_getElem?.mp hmem
  obtain ⟨hc, hp⟩ := List.getElem?_zip_eq_some.mp hi
  have hsame : (t.map CodePoint.asciiLower)[i]? = (word.toList.map CodePoint.scalar)[i]? :=
    congrArg (·[i]?) h
  rw [List.getElem?_map, List.getElem?_map, hc, hp] at hsame
  exact isLetter_of_asciiLower (Option.some.inj hsame)

theorem Names.isDirection {ascending : Bool} (h : Names t ascending) : isDirection t = true := by
  cases ascending with
  | false =>
    have hword : isWord "desc" t = true := isWord_of_asciiLower h
    rw [Order.isDirection, hword, Bool.or_true]
  | true =>
    have hword : isWord "asc" t = true := isWord_of_asciiLower h
    rw [Order.isDirection, hword, Bool.true_or]

theorem ne_nil_of_isDirection (h : isDirection t = true) : t ≠ [] := by
  rintro rfl
  cases h

/-! ## What is behind a field -/

/-- A colon or blanks, which stand between a field and a direction. -/
inductive IsSeparator : Text → Prop
  | colon : IsSeparator [.scalar ':']
  | blanks {t : Text} (hne : t ≠ []) (h : t.IsBlank) : IsSeparator t

theorem directionBehind?_append {separator : Text} (hsep : IsSeparator separator)
    (h : isDirection direction = true) :
    directionBehind? (separator ++ direction) = some direction := by
  cases hsep with
  | colon => exact if_pos h
  | @blanks blanks hne hblank =>
    obtain ⟨p, rest, rfl⟩ := List.exists_cons_of_ne_nil hne
    obtain ⟨hp, hrest⟩ := List.forall_mem_cons.mp hblank
    have hcolon : p ≠ .scalar ':' := by
      rintro rfl
      cases hp
    obtain ⟨q, word, rfl⟩ := List.exists_cons_of_ne_nil (ne_nil_of_isDirection h)
    have hq : ¬ q.isBlank = true := fun hq => by
      rw [not_isDirection (Or.inl hq) List.mem_cons_self] at h
      cases h
    rw [List.cons_append, directionBehind?, if_neg hcolon, if_pos hp,
      List.dropWhile_append_of_pos hrest, List.dropWhile_cons_of_neg hq]
    exact if_pos h

theorem directionBehind?_eq_some (h : directionBehind? tail = some direction) :
    tail = [] ∧ direction = [] ∨
      ∃ separator, IsSeparator separator ∧ isDirection direction = true ∧
        tail = separator ++ direction := by
  cases tail with
  | nil => exact Or.inl ⟨rfl, (Option.some.inj h).symm⟩
  | cons p rest =>
    rw [directionBehind?] at h
    by_cases hcolon : p = .scalar ':'
    · rw [if_pos hcolon] at h
      obtain ⟨hdirection, ⟨⟩⟩ := Option.ite_none_right_eq_some.mp h
      exact Or.inr ⟨_, .colon, hdirection, by rw [hcolon]; rfl⟩
    rw [if_neg hcolon] at h
    obtain ⟨hblank, h⟩ := Option.ite_none_right_eq_some.mp h
    obtain ⟨hdirection, ⟨⟩⟩ := Option.ite_none_right_eq_some.mp h
    refine Or.inr ⟨p :: rest.takeWhile CodePoint.isBlank, .blanks (List.cons_ne_nil _ _) ?_,
      hdirection, ?_⟩
    · exact List.forall_mem_cons.mpr ⟨hblank, fun q => List.mem_takeWhile_imp⟩
    · rw [List.cons_append, List.takeWhile_append_dropWhile]

/-- A field does not end in front of a code point that separates it from no direction. -/
theorem directionBehind?_eq_none (hsolid : p.isBlank = false)
    (hcolon : p = .scalar ':' → isDirection tail = false) : directionBehind? (p :: tail) = none := by
  rw [directionBehind?, hsolid]
  split
  next h => rw [hcolon h]; rfl
  next => rfl

/-! ## Fields -/

/-- A name of a field as it can be printed in an order. -/
structure IsField (field : Text) : Prop where
  ne_nil : field ≠ []
  solid : field.IsSolid
  unsigned : field.head? ≠ some (.scalar '+') ∧ field.head? ≠ some (.scalar '-')
  undirected : ∀ front word, field = front ++ .scalar ':' :: word → isDirection word = false

theorem fieldAndDirection?_append (hne : field ≠ []) (hsolid : field.IsSolid)
    (hbehind : directionBehind? tail = some direction)
    (hinside : ∀ front p rest, field = front ++ p :: rest → front ≠ [] →
      directionBehind? (p :: rest ++ tail) = none) :
    fieldAndDirection? (field ++ tail) = some (field, direction) := by
  induction field with
  | nil => exact absurd rfl hne
  | cons p rest ih =>
    obtain ⟨hp, hrest⟩ := List.forall_mem_cons.mp hsolid
    have hblank : ¬ p.isBlank = true := by simp [hp]
    rw [List.cons_append, fieldAndDirection?, if_neg hblank]
    cases rest with
    | nil => rw [List.nil_append, hbehind]
    | cons q rest =>
      rw [hinside [p] q rest rfl (List.cons_ne_nil p []),
        ih (List.cons_ne_nil q rest) hrest fun front q rest heq hfront => ?_]
      · rfl
      · exact hinside (p :: front) q rest (congrArg (p :: ·) heq) (List.cons_ne_nil p front)

theorem fieldAndDirection?_eq_some (h : fieldAndDirection? t = some (field, direction)) :
    ∃ tail, t = field ++ tail ∧ field ≠ [] ∧ field.IsSolid ∧
      directionBehind? tail = some direction := by
  induction t generalizing field with
  | nil => cases h
  | cons p rest ih =>
    rw [fieldAndDirection?] at h
    obtain ⟨hblank, h⟩ := Option.ite_none_left_eq_some.mp h
    have hp : p.isBlank = false := by simpa using hblank
    split at h
    next hbehind =>
      cases h
      exact ⟨rest, rfl, List.cons_ne_nil p [], List.forall_mem_singleton.mpr hp, hbehind⟩
    next =>
      obtain ⟨⟨field, direction⟩, hrest, h⟩ := Option.map_eq_some_iff.mp h
      cases h
      obtain ⟨tail, rfl, -, hsolid, hbehind⟩ := ih hrest
      exact ⟨tail, rfl, List.cons_ne_nil p field, List.forall_mem_cons.mpr ⟨hp, hsolid⟩, hbehind⟩

theorem isSome_fieldAndDirection? (hne : field ≠ []) (hsolid : field.IsSolid)
    (hbehind : directionBehind? tail = some direction) :
    (fieldAndDirection? (field ++ tail)).isSome = true := by
  induction field with
  | nil => exact absurd rfl hne
  | cons p rest ih =>
    obtain ⟨hp, hrest⟩ := List.forall_mem_cons.mp hsolid
    have hblank : ¬ p.isBlank = true := by simp [hp]
    rw [List.cons_append, fieldAndDirection?, if_neg hblank]
    cases rest with
    | nil => rw [List.nil_append, hbehind]; rfl
    | cons q rest =>
      split
      · rfl
      · rw [Option.isSome_map]
        exact ih (List.cons_ne_nil q rest) hrest

theorem IsField.fieldAndDirection? (hf : IsField field) :
    fieldAndDirection? field = some (field, []) := by
  have h : Order.fieldAndDirection? (field ++ []) = some (field, []) :=
    fieldAndDirection?_append hf.ne_nil hf.solid rfl ?_
  · rwa [List.append_nil] at h
  · intro front p rest heq _
    rw [List.append_nil]
    refine directionBehind?_eq_none (hf.solid p (by simp [heq])) ?_
    rintro rfl
    exact hf.undirected front rest heq

theorem IsSeparator.exists_mem {separator : Text} (h : IsSeparator separator) :
    ∃ p ∈ separator, p.isBlank = true ∨ p = .scalar ':' := by
  cases h with
  | colon => exact ⟨_, List.mem_cons_self, Or.inr rfl⟩
  | blanks hne hblank =>
    obtain ⟨p, hp⟩ := List.exists_mem_of_ne_nil _ hne
    exact ⟨p, hp, Or.inl (hblank p hp)⟩

theorem IsField.fieldAndDirection?_append {separator : Text} (hf : IsField field)
    (hsep : IsSeparator separator) (hdirection : isDirection direction = true) :
    Order.fieldAndDirection? (field ++ (separator ++ direction)) = some (field, direction) := by
  refine Order.fieldAndDirection?_append hf.ne_nil hf.solid (directionBehind?_append hsep hdirection) ?_
  intro front p rest heq _
  refine directionBehind?_eq_none (hf.solid p (by simp [heq])) fun _ => ?_
  -- What follows has the separator in it, which is in no direction.
  obtain ⟨q, hq, hnone⟩ := hsep.exists_mem
  exact not_isDirection hnone (List.mem_append_right rest (List.mem_append_left direction hq))

/-! ## Signs -/

/-- The sign in front of a field, if there is one: plus says ascending, and minus descending. -/
def signText : Option Bool → Text
  | none => []
  | some true => [.scalar '+']
  | some false => [.scalar '-']

theorem split?_unsigned (hplus : t.head? ≠ some (.scalar '+')) (hminus : t.head? ≠ some (.scalar '-')) :
    split? t = (fieldAndDirection? t).map fun (field, direction) => ([], field, direction) := by
  cases t with
  | nil => rfl
  | cons p rest =>
    have hsign : ¬ (p = .scalar '+' ∨ p = .scalar '-') := by simpa using And.intro hplus hminus
    rw [split?, if_neg hsign]

theorem IsField.split?_append (hf : IsField field) (sign : Option Bool)
    (h : Order.fieldAndDirection? (field ++ tail) = some (field, direction)) :
    split? (signText sign ++ (field ++ tail)) = some (signText sign, field, direction) := by
  match sign with
  | none =>
    have hhead : (field ++ tail).head? = field.head? := by
      obtain ⟨p, rest, rfl⟩ := List.exists_cons_of_ne_nil hf.ne_nil
      rfl
    rw [signText, List.nil_append, split?_unsigned (hhead ▸ hf.unsigned.1) (hhead ▸ hf.unsigned.2), h]
    rfl
  | some true => simp [signText, split?, h]
  | some false => simp [signText, split?, h]

theorem split?_eq_none_iff : split? t = none ↔ Order.fieldAndDirection? t = none := by
  cases t with
  | nil => exact iff_of_true rfl rfl
  | cons p rest =>
    by_cases hsign : p = .scalar '+' ∨ p = .scalar '-'
    · have hblank : ¬ p.isBlank = true := by rcases hsign with rfl | rfl <;> decide
      rw [split?, if_pos hsign]
      cases hrest : Order.fieldAndDirection? rest with
      | none => exact Option.map_eq_none_iff
      | some found =>
        simp only [reduceCtorEq, false_iff]
        rw [Order.fieldAndDirection?, if_neg hblank, hrest]
        split <;> exact Option.some_ne_none _
    · rw [split?, if_neg hsign]
      exact Option.map_eq_none_iff

/-! ## Orders -/

theorem isBlank_of_mem_direction (h : isDirection t = true) (hp : p ∈ t) : p.isBlank = false := by
  rw [← Bool.not_eq_true]
  intro hblank
  rw [not_isDirection (Or.inl hblank) hp] at h
  cases h

theorem IsField.strip_append {front back : Text} (hf : IsField field) (sign : Option Bool)
    (hfront : front.IsBlank) (hback : back.IsBlank)
    (hlast : ∀ p ∈ (field ++ tail).getLast?, p.isBlank = false) :
    (front ++ (signText sign ++ (field ++ tail)) ++ back).strip = signText sign ++ (field ++ tail) := by
  have hne : field ++ tail ≠ [] := List.append_ne_nil_of_left_ne_nil hf.ne_nil tail
  refine Text.strip_append hfront hback (List.append_ne_nil_of_right_ne_nil _ hne) ?_ ?_
  · obtain ⟨p, rest, rfl⟩ := List.exists_cons_of_ne_nil hf.ne_nil
    match sign with
    | none =>
      rintro _ ⟨⟩
      exact hf.solid p List.mem_cons_self
    | some true | some false =>
      rintro _ ⟨⟩
      rfl
  · rwa [List.getLast?_append_of_ne_nil _ hne]

theorem isString_signText (sign : Option Bool) :
    (!(signText sign).isString "-") = sign.getD true := by
  match sign with
  | none => decide
  | some true => decide
  | some false => decide

theorem Names.isString {ascending : Bool} (h : Names t ascending) :
    t.asciiLower.isString "asc" = ascending := by
  rw [h]
  cases ascending <;> decide

theorem parse_eq_badOrder_iff (expression : Text) (aliases : Aliases) :
    parse expression aliases = .error (.badOrder expression) ↔
      Order.fieldAndDirection? expression.strip = none := by
  rw [← split?_eq_none_iff, parse]
  cases split? expression.strip with
  | none => exact iff_of_true rfl rfl
  | some found =>
    obtain ⟨sign, field, direction⟩ := found
    simp only [reduceCtorEq, iff_false]
    split
    · nofun
    · split <;> nofun

theorem IsField.parse_field {front back : Text} (hf : IsField field) (sign : Option Bool)
    (hfront : front.IsBlank) (hback : back.IsBlank) (aliases : Aliases) :
    parse (front ++ (signText sign ++ field) ++ back) aliases
      = .ok { field := aliases.apply field, ascending := sign.getD true } := by
  have hlast : ∀ p ∈ (field ++ []).getLast?, p.isBlank = false := by
    rw [List.append_nil]
    exact fun p hp => hf.solid p (List.mem_of_mem_getLast? hp)
  have hfound : Order.fieldAndDirection? (field ++ []) = some (field, []) := by
    rw [List.append_nil]
    exact hf.fieldAndDirection?
  have hstrip := hf.strip_append sign hfront hback hlast
  have hsplit := hf.split?_append sign hfound
  rw [List.append_nil] at hstrip hsplit
  simp only [parse, hstrip, hsplit, if_true, isString_signText]

/-- A field with a direction behind it is read back, with a sign or without one, unless the two
contradict each other. -/
theorem IsField.parse_directed {front back separator : Text} {ascending : Bool} (hf : IsField field)
    (sign : Option Bool) (hfront : front.IsBlank) (hback : back.IsBlank)
    (hsep : IsSeparator separator) (hnames : Names direction ascending) (aliases : Aliases) :
    parse (front ++ (signText sign ++ (field ++ (separator ++ direction))) ++ back) aliases
      = if sign = some (!ascending) then
          .error (.contradictoryOrder
            (front ++ (signText sign ++ (field ++ (separator ++ direction))) ++ back)
            (signText sign) direction)
        else .ok { field := aliases.apply field, ascending } := by
  have hdirection := hnames.isDirection
  have hne := ne_nil_of_isDirection hdirection
  have hlast : ∀ p ∈ (field ++ (separator ++ direction)).getLast?, p.isBlank = false := by
    rw [← List.append_assoc, List.getLast?_append_of_ne_nil _ hne]
    exact fun p hp => isBlank_of_mem_direction hdirection (List.mem_of_mem_getLast? hp)
  have hsplit := hf.split?_append sign (hf.fieldAndDirection?_append hsep hdirection)
  simp only [parse, hf.strip_append sign hfront hback hlast, hsplit, if_neg hne, isString_signText,
    hnames.isString]
  match sign, ascending with
  | none, _ => rfl
  | some true, true | some true, false | some false, true | some false, false => rfl

/-- A text without blanks around it in which there are blanks, but not in front of a direction. -/
def HasStrayBlank (t : Text) : Prop :=
  ¬ t.IsSolid ∧ ∀ front blanks word, t = front ++ (blanks ++ word) → front.IsSolid → blanks ≠ [] →
    blanks.IsBlank → isDirection word = false

/-- What can be read as a field: texts without blanks, and one row of blanks in front of a direction. -/
theorem fieldAndDirection?_eq_none_iff (hhead : ∀ p ∈ t.head?, p.isBlank = false) :
    Order.fieldAndDirection? t = none ↔ t = [] ∨ HasStrayBlank t := by
  constructor
  · intro h
    by_cases hne : t = []
    · exact Or.inl hne
    refine Or.inr ⟨fun hsolid => ?_, ?_⟩
    · have hsome : (Order.fieldAndDirection? (t ++ [])).isSome = true :=
        isSome_fieldAndDirection? hne hsolid rfl
      rw [List.append_nil, h] at hsome
      cases hsome
    · rintro front blanks word rfl hfront hblanks hblank
      by_contra hword
      have hfrontne : front ≠ [] := by
        rintro rfl
        obtain ⟨p, rest, rfl⟩ := List.exists_cons_of_ne_nil hblanks
        have hp := hblank p List.mem_cons_self
        rw [hhead p rfl] at hp
        cases hp
      have hsome := isSome_fieldAndDirection? hfrontne hfront
        (directionBehind?_append (.blanks hblanks hblank) (Bool.not_eq_false _ ▸ hword))
      rw [h] at hsome
      cases hsome
  · rintro (rfl | ⟨hblank, hstray⟩)
    · rfl
    rw [← Option.not_isSome_iff_eq_none, Option.isSome_iff_exists]
    rintro ⟨⟨field, direction⟩, h⟩
    obtain ⟨tail, rfl, -, hsolid, hbehind⟩ := fieldAndDirection?_eq_some h
    refine hblank (List.forall_mem_append.mpr ⟨hsolid, ?_⟩)
    rcases directionBehind?_eq_some hbehind with ⟨rfl, -⟩ | ⟨separator, hsep, hdirection, rfl⟩
    · exact nofun
    · refine List.forall_mem_append.mpr ⟨?_, fun p => isBlank_of_mem_direction hdirection⟩
      cases hsep with
      | colon => exact List.forall_mem_singleton.mpr rfl
      | blanks hne hrow =>
        rw [hstray field _ direction rfl hsolid hne hrow] at hdirection
        cases hdirection

/-- **Printed orders are read back.** A field stands for ascending order, with a minus in front of it
for descending order, and with a direction behind a colon or blanks for the order that this names; a sign
must not contradict the direction. Exactly the texts of blanks, and those with a stray blank in them, are
no order. -/
theorem parse_printed (aliases : Aliases) :
    (∀ (front field back : Text) (sign : Option Bool), IsField field → front.IsBlank → back.IsBlank →
      parse (front ++ (signText sign ++ field) ++ back) aliases
        = .ok { field := aliases.apply field, ascending := sign.getD true } ∧
      ∀ (separator direction : Text) (ascending : Bool), IsSeparator separator →
        Names direction ascending →
        parse (front ++ (signText sign ++ (field ++ (separator ++ direction))) ++ back) aliases
          = if sign = some (!ascending) then
              .error (.contradictoryOrder
                (front ++ (signText sign ++ (field ++ (separator ++ direction))) ++ back)
                (signText sign) direction)
            else .ok { field := aliases.apply field, ascending }) ∧
    ∀ expression : Text, parse expression aliases = .error (.badOrder expression) ↔
      expression.IsBlank ∨ HasStrayBlank expression.strip := by
  refine ⟨fun front field back sign hf hfront hback => ⟨?_, ?_⟩, fun expression => ?_⟩
  · exact hf.parse_field sign hfront hback aliases
  · intro separator direction ascending hsep hnames
    exact hf.parse_directed sign hfront hback hsep hnames aliases
  · rw [parse_eq_badOrder_iff, ← Text.strip_eq_nil_iff]
    exact fieldAndDirection?_eq_none_iff fun p => Text.isBlank_of_mem_head?_strip

/-- A field with colons and the name of a direction in it, printed in descending order. -/
theorem parse_printed_colons : IsField "a:desc:x" ∧ Names "DeSC" false ∧
    parse " -a:desc:x  DeSC\t" [("a:desc:x", "t")] = .ok { field := "t", ascending := false } := by
  have hfield : IsField "a:desc:x" := by
    refine ⟨by decide, by decide, by decide, fun front word heq => ?_⟩
    have hnone : ∀ word ∈ (Text.ofString "a:desc:x").tails, isDirection word = false := by decide
    exact hnone word ((List.mem_tails _ _).mpr ⟨front ++ [.scalar ':'], by simp [heq]⟩)
  have hnames : Names "DeSC" false := by unfold Names; decide
  obtain ⟨-, hdirected⟩ :=
    (parse_printed [("a:desc:x", "t")]).1 " " "a:desc:x" "\t" (some false) hfield (by decide) (by decide)
  exact ⟨hfield, hnames, hdirected "  " "DeSC" false (.blanks (by decide) (by decide)) hnames⟩

end Order
end LogQuery
