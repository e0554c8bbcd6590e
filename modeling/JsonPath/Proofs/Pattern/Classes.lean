import JsonPath.Proofs.Grammar.IRegexp
import JsonPath.Proofs.Outcome
import JsonPath.Proofs.Pattern.Expansion
import JsonPath.Proofs.Text.Categories
import JsonPath.Proofs.Text.CodePoints

/-! Classes are read as what they stand for. The parts of a class become items that contain
just the code points of the part, whether the part is copied or expanded into ranges.
-/

namespace JsonPath

open Pattern

-----------------------------------------------------------------------------------------
-- Items
-----------------------------------------------------------------------------------------

/-- The items contain the code points of the set and no others. -/
def ClassItem.Contain (items : List ClassItem) (set : CodePoint → Prop) : Prop :=
  ∀ c, items.any (·.contains c) ↔ set c

namespace ClassItem.Contain

variable {items items' : List ClassItem} {set set' : CodePoint → Prop}

/-- Items one behind the other contain what either of them does. -/
theorem append (h : Contain items set) (h' : Contain items' set')
    : Contain (items ++ items') fun c => set c ∨ set' c := by
  intro c
  rw [List.any_append, Bool.or_eq_true, h c, h' c]

/-- A range contains the code points from its first to its last one. -/
theorem range (first last : Nat)
    : Contain [.range first last] fun c => first ≤ c.toNat ∧ c.toNat ≤ last := by
  intro c
  simp [ClassItem.contains]

theorem single (d : CodePoint) : Contain [.range d.toNat d.toNat] (· = d) := by
  intro c
  refine (range d.toNat d.toNat c).trans ⟨fun ⟨low, high⟩ => ?_, ?_⟩
  · exact CodePoint.toNat_injective (Nat.le_antisymm high low)
  · rintro rfl
    exact ⟨Nat.le_refl _, Nat.le_refl _⟩

/-- The ranges of a category contain its code points. -/
theorem category (name : List Char) (negated : Bool)
    : Contain ((Category.ranges name negated Category.runs.get).map fun r => .range r.1 r.2)
        fun c => c.category.isNamed name ≠ negated := by
  intro c
  have covers : Category.Covers (Category.ranges name negated Category.runs.get) c.toNat ↔ _ :=
    Category.covers_ranges_runs
  rw [and_iff_right c.toNat_lt_limit, ← CodePoint.category] at covers
  refine Iff.trans ?_ covers
  simp [Category.Covers, ClassItem.contains]

end ClassItem.Contain

namespace Pattern

-----------------------------------------------------------------------------------------
-- Atoms
-----------------------------------------------------------------------------------------

/-- The text is read as the code as a part of a class, wherever it stands and on every host, and
does not close the class.
-/
structure SpellsCode (w : Text) (code : Nat) : Prop where
  notClosing : w.head? ≠ some (.char ']')
  notEmpty : w ≠ []
  reads : ∀ host rest, classAtom host (w ++ rest) = .ok (.literal code, rest)

/-- The escape for the end of a range spells its code point. -/
theorem spellsCode_rangeEnd {n : Nat} (within : n < CodePoint.limit)
    : SpellsCode (rangeEnd n) n where
  notClosing := by
    simp [rangeEnd, Text.ofString]
  notEmpty := nofun
  reads host rest := by
    have digits : (Numeral.hex 8 n ++ rest).take 8 = Numeral.hex 8 n :=
      List.take_left' (Numeral.length_hex 8 n)
    have after : (Numeral.hex 8 n ++ rest).drop 8 = rest :=
      List.drop_left' (Numeral.length_hex 8 n)
    have value : Numeral.hexToNat? (Numeral.hex 8 n) = some n := by
      refine Numeral.hexToNat?_hex (Nat.lt_trans within ?_)
      decide
    have code : hexEscape 8 (Numeral.hex 8 n ++ rest) = .ok (n, rest) := by
      simp [hexEscape, digits, after, value, within, Numeral.length_hex]
    have escaped (t : Text) : classAtom host (("\\U" : Text) ++ t)
        = (hexEscape 8 t).map fun found => (.literal found.1, found.2) := rfl
    rw [rangeEnd, List.append_assoc, escaped, code]
    rfl

/-- Most characters spell themselves in a class. -/
theorem spellsCode_char {c : CodePoint} (notClosing : c ≠ .char ']') (notBackslash : c ≠ .char '\\')
    : SpellsCode [c] c.toNat where
  notClosing := by simpa using notClosing
  notEmpty := nofun
  reads host rest := by simp [classAtom]

/-- The escapes of the grammar spell their characters in a class. -/
theorem spellsCode_escape {c d : Char} (isEscape : (c, d) ∈ IRegexp.escapes)
    : SpellsCode [.char '\\', .char c] d.toNat where
  notClosing := nofun
  notEmpty := nofun
  reads host rest := by
    have all : ∀ entry ∈ IRegexp.escapes, classEscape host (.char entry.1 :: rest)
        = .ok (.literal (CodePoint.char entry.2).toNat, rest) := by
      simp only [IRegexp.escapes, List.forall_mem_cons, List.not_mem_nil, false_implies,
        implies_true, and_true]
      and_intros <;> rfl
    exact all (c, d) isEscape

-----------------------------------------------------------------------------------------
-- Lists of items
-----------------------------------------------------------------------------------------

/-- A class goes on with the items, and with the second text behind its closing bracket. -/
def Closes (t : Text) (items : List ClassItem) (after : Text) : Prop :=
  ∀ host limit, t.length ≤ limit → classItems host limit false t = .ok (items, after)

/-- A dash at the start of the text is the last character of a class, so that it does not make
a range with what is in front of it.
-/
def NoRange (t : Text) : Prop :=
  ∀ rest, t = .char '-' :: rest → ∃ after, rest = .char ']' :: after

/-- The first item only differs from the others where it is a closing bracket. -/
theorem classItems_of_notClosing {t : Text} (notClosing : t.head? ≠ some (.char ']')) (host : Host)
    (limit : Nat)
    : classItems host limit true t = classItems host limit false t := by
  cases limit with
  | zero => rfl
  | succ limit =>
      simp only [classItems]
      split
      next => exact absurd rfl notClosing
      next => rfl

/-- A text that a code is spelled by is no closing bracket, whatever stands behind it. -/
theorem SpellsCode.classItems_eq {w : Text} {code : Nat} (spells : SpellsCode w code)
    (host : Host) (limit : Nat) (rest : Text)
    : classItems host limit false (w ++ rest) = classItems host limit true (w ++ rest) := by
  refine (classItems_of_notClosing ?_ host limit).symm
  rw [List.head?_append_of_ne_nil _ spells.notEmpty]
  exact spells.notClosing

variable {w w' rest after : Text} {items : List ClassItem} {code code' : Nat}

/-- At the bracket, the class is closed without further items. -/
theorem closes_bracket (after : Text) : Closes (.char ']' :: after) [] after := by
  intro host limit enough
  obtain ⟨limit, rfl⟩ := Nat.exists_eq_add_one_of_ne_zero (Nat.ne_zero_of_lt enough)
  rfl

/-- What starts with no dash makes no range of what stands in front. -/
theorem noRange_append (notEmpty : w ≠ []) (noDash : w.head? ≠ some (.char '-')) (rest : Text)
    : NoRange (w ++ rest) := by
  intro after eq
  rw [← List.head?_append_of_ne_nil w notEmpty, eq] at noDash
  exact absurd rfl noDash

/-- A single character of a class. -/
theorem SpellsCode.closes (spells : SpellsCode w code) (noRange : NoRange rest)
    (others : Closes rest items after)
    : Closes (w ++ rest) (.range code code :: items) after := by
  intro host limit enough
  rw [List.length_append] at enough
  have := List.length_pos_iff.mpr spells.notEmpty
  obtain ⟨limit, rfl⟩ : ∃ limit', limit = limit' + 1 := ⟨limit - 1, by omega⟩
  rw [spells.classItems_eq]
  simp only [classItems, spells.reads host rest, Outcome.ok_bind]
  split
  next rest =>
    -- The dash is read together with the character in front of it.
    have alone : classItems host (rest.length + 2) false (.char '-' :: .char ']' :: rest)
        = .ok ([.range 0x2D 0x2D], rest) := rfl
    obtain ⟨rfl, rfl⟩ :=
      Prod.mk.inj (Except.ok.inj (alone.symm.trans (others host _ (Nat.le_refl _))))
    rfl
  next _ tail notLast =>
    obtain ⟨after, rfl⟩ := noRange tail rfl
    exact absurd rfl (notLast after)
  next =>
    rw [others host limit (by omega)]
    rfl

/-- Two characters of a class with a dash between them. -/
theorem SpellsCode.closes_range (spells : SpellsCode w code) (spells' : SpellsCode w' code')
    (ascending : code ≤ code') (others : Closes rest items after)
    : Closes (w ++ .char '-' :: (w' ++ rest)) (.range code code' :: items) after := by
  intro host limit enough
  simp only [List.length_append, List.length_cons] at enough
  have := List.length_pos_iff.mpr spells.notEmpty
  obtain ⟨limit, rfl⟩ : ∃ limit', limit = limit' + 1 := ⟨limit - 1, by omega⟩
  rw [spells.classItems_eq]
  simp only [classItems, spells.reads host (.char '-' :: (w' ++ rest)), Outcome.ok_bind]
  split
  next last eq =>
    have last := congrArg List.head? (List.cons.inj eq).2
    rw [List.head?_append_of_ne_nil _ spells'.notEmpty] at last
    exact absurd last spells'.notClosing
  next last _ eq =>
    obtain rfl := (List.cons.inj eq).2
    simp only [spells'.reads host rest, Outcome.ok_bind, if_pos ascending,
      others host limit (by omega)]
    rfl
  next noDash => exact absurd rfl (noDash _)

-----------------------------------------------------------------------------------------
-- Categories
-----------------------------------------------------------------------------------------

/-- A written range starts with a backslash. -/
theorem head?_rangeText (range : Nat × Nat) : (rangeText range).head? = some (.char '\\') := by
  unfold rangeText
  split <;> rfl

/-- Written ranges make no range of what stands in front. -/
theorem noRange_flatMap {ranges : List (Nat × Nat)} (noRange : NoRange rest)
    : NoRange (ranges.flatMap rangeText ++ rest) := by
  cases ranges with
  | nil => exact noRange
  | cons range ranges =>
      have first := head?_rangeText range
      rw [List.flatMap_cons, List.append_assoc]
      refine noRange_append (fun empty => ?_) (by rw [first]; decide) _
      rw [empty] at first
      cases first

/-- Ranges become one item each, by induction on the ranges. -/
theorem closes_ranges {ranges : List (Nat × Nat)} (proper : Category.AreProper ranges)
    (noRange : NoRange rest) (others : Closes rest items after)
    : Closes (ranges.flatMap rangeText ++ rest)
        (ranges.map (fun r => ClassItem.range r.1 r.2) ++ items) after := by
  induction ranges with
  | nil => exact others
  | cons range ranges ih =>
      obtain ⟨⟨order, within⟩, proper⟩ := List.forall_mem_cons.mp proper
      have spells := spellsCode_rangeEnd (Nat.lt_of_le_of_lt order within)
      have spells' := spellsCode_rangeEnd within
      rw [List.flatMap_cons, List.append_assoc, rangeText]
      split
      next same =>
        rw [List.map_cons, ← same]
        exact spells.closes (noRange_flatMap noRange) (ih proper)
      next =>
        rw [List.append_assoc]
        exact spells.closes_range spells' order (ih proper)

-----------------------------------------------------------------------------------------
-- Parts
-----------------------------------------------------------------------------------------

/-- The word is expanded to a text that is read as items for the set, in front of any other
part or end of a class.
-/
structure PartReading (w : Text) (set : CodePoint → Prop) (e : Text) (items : List ClassItem)
    : Prop where
  expands : Expands true w e true
  contain : ClassItem.Contain items set
  sameHead : e.head? = w.head?
  notEmpty : e ≠ []
  noDash : e.head? ≠ some (.char '-')
  notClosing : e.head? ≠ some (.char ']')
  closes : ∀ {rest others after}, NoRange rest → Closes rest others after
    → Closes (e ++ rest) (items ++ others) after

/-- The escapes of the grammar are copied, within a class and outside. -/
theorem expands_escape {c d : Char} {inClass : Bool} (isEscape : (c, d) ∈ IRegexp.escapes)
    : Expands inClass [.char '\\', .char c] [.char '\\', .char c] inClass := by
  have noCategory : ∀ entry ∈ IRegexp.escapes, entry.1 ≠ 'p' ∧ entry.1 ≠ 'P' := by decide
  obtain ⟨notLower, notUpper⟩ := noCategory _ isEscape
  exact .escape (by simpa using notLower) (by simpa using notUpper)

/-- A character of a class is spelled, copied and no dash. -/
theorem of_classCharacter {c : Char} (h : IRegexp.ClassCharacter w c)
    : SpellsCode w c.toNat ∧ Expands true w w true ∧ w.head? ≠ some (.char '-') := by
  cases h with
  | plain isPlain =>
      simp only [IRegexp.classOperators, List.mem_cons, List.not_mem_nil, or_false,
        not_or] at isPlain
      obtain ⟨noDash, noOpening, noBackslash, noClosing⟩ := isPlain
      refine ⟨spellsCode_char ?_ ?_, .inside ?_, ?_⟩
      all_goals simp_all
  | escape isEscape => exact ⟨spellsCode_escape isEscape, expands_escape isEscape, nofun⟩

/-- Every name of a category is accepted. -/
theorem known_of_isCategoryName {name : List Char} (h : IRegexp.IsCategoryName name)
    : String.ofList name ∈ categoryNames ∧ name ≠ [] ∧ ∀ c ∈ name, c.isAlpha := by
  have majors : ∀ entry ∈ IRegexp.categories,
      [entry.1] ∈ categoryNames.map String.toList ∧ entry.1.isAlpha := by
    decide
  have minors : ∀ entry ∈ IRegexp.categories, entry.2.all fun minor =>
      [entry.1, minor] ∈ categoryNames.map String.toList ∧ minor.isAlpha := by
    decide
  have known {name : List Char} (spelled : name ∈ categoryNames.map String.toList)
      : String.ofList name ∈ categoryNames := by
    obtain ⟨s, mem, rfl⟩ := List.mem_map.mp spelled
    rwa [String.ofList_toList]
  cases h with
  | major mem =>
      obtain ⟨spelled, isAlpha⟩ := majors _ mem
      exact ⟨known spelled, nofun, by simpa using isAlpha⟩
  | minor mem isMinor =>
      obtain ⟨_, isAlpha⟩ := majors _ mem
      obtain ⟨spelled, isAlpha'⟩ :=
        of_decide_eq_true (List.all_eq_true.mp (minors _ mem) _ isMinor)
      exact ⟨known spelled, nofun, by simpa using ⟨isAlpha, isAlpha'⟩⟩

/-- A category escape names a category, which it takes or leaves out. -/
theorem exists_of_categoryEscape {set : CodePoint → Prop} (h : IRegexp.CategoryEscape w set)
    : ∃ name negated,
        IRegexp.IsCategoryName name
        ∧ w = .char '\\' :: escapeText name negated
        ∧ set = fun c => c.category.isNamed name ≠ negated := by
  cases h with
  | @category name isName => exact ⟨name, false, isName, rfl, by simp⟩
  | @complement name isName => exact ⟨name, true, isName, rfl, by simp⟩

theorem head?_categoryText {name : List Char} (known : String.ofList name ∈ categoryNames)
    (negated : Bool)
    : (categoryText name negated).head? = some (.char '\\') := by
  obtain ⟨range, others, eq⟩ :=
    List.exists_cons_of_ne_nil (Category.ranges_ne_nil known negated)
  rw [categoryText, eq, List.flatMap_cons, List.head?_append, head?_rangeText, Option.some_or]

/-- A category in a class is read as its ranges. -/
theorem partReading_category {name : List Char} {negated : Bool}
    (isName : IRegexp.IsCategoryName name)
    : PartReading (.char '\\' :: escapeText name negated)
        (fun c => c.category.isNamed name ≠ negated) (categoryText name negated)
        ((Category.ranges name negated Category.runs.get).map fun r => .range r.1 r.2) := by
  obtain ⟨known, notEmpty, areLetters⟩ := known_of_isCategoryName isName
  have head := head?_categoryText known negated
  refine ⟨?_, .category name negated, head, ?_, ?_, ?_, ?_⟩
  · have expands : Expands true _ (escapeExpansion true name negated) true :=
      .category known notEmpty areLetters
    rwa [escapeExpansion, if_pos rfl] at expands
  · intro empty
    rw [empty] at head
    cases head
  · rw [head]
    decide
  · rw [head]
    decide
  · intro rest others after noRange closes
    rw [categoryText]
    exact closes_ranges Category.areProper_ranges_runs noRange closes

/-- Every part of a class is read as items that contain its characters, by cases on the part.
-/
theorem exists_partReading {set : CodePoint → Prop} (h : IRegexp.ClassPart w set)
    : ∃ e items, PartReading w set e items := by
  cases h with
  | character spelling =>
      obtain ⟨spells, expands, noDash⟩ := of_classCharacter spelling
      exact ⟨w, _, expands, .single _, rfl, spells.notEmpty, noDash, spells.notClosing,
        spells.closes⟩
  | @range w w' first last hasFirst hasLast ascending =>
      obtain ⟨spells, expands, noDash⟩ := of_classCharacter hasFirst
      obtain ⟨spells', expands', _⟩ := of_classCharacter hasLast
      have dash : Expands true [.char '-'] [.char '-'] true := .inside (by decide)
      have head : (w ++ .char '-' :: w').head? = w.head? :=
        List.head?_append_of_ne_nil w spells.notEmpty
      refine ⟨_, [.range first.toNat last.toNat], expands.append (dash.append expands'),
        .range _ _, rfl, by simp, ?_, ?_, ?_⟩
      · exact head ▸ noDash
      · exact head ▸ spells.notClosing
      · intro rest others after _ closes
        rw [List.append_assoc]
        exact spells.closes_range spells' (Char.le_def.mp ascending) closes
  | category spelling =>
      obtain ⟨name, negated, isName, rfl, rfl⟩ := exists_of_categoryEscape spelling
      exact ⟨_, _, partReading_category isName⟩

/-- The word is expanded to a text that is read as items for the set at the end of a class. -/
structure PartsReading (w : Text) (set : CodePoint → Prop) (e : Text) (items : List ClassItem)
    : Prop where
  expands : Expands true w e true
  contain : ClassItem.Contain items set
  noRange : ∀ after, NoRange (e ++ .char ']' :: after)
  closes : ∀ after, Closes (e ++ .char ']' :: after) items after

/-- The parts of a class are read one after the other, by induction on the parts. -/
theorem exists_partsReading {set : CodePoint → Prop} (h : IRegexp.ClassParts w set)
    : ∃ e items, PartsReading w set e items := by
  induction h with
  | none =>
      refine ⟨[], [], .nil, fun c => by simp, fun after => ?_, closes_bracket⟩
      rintro rest ⟨⟩
  | dash =>
      have spells : SpellsCode [.char '-'] _ := spellsCode_char (by decide) (by decide)
      refine ⟨[.char '-'], _, .inside (by decide), .single _, ?_, fun after => ?_⟩
      · rintro after rest ⟨⟩
        exact ⟨after, rfl⟩
      · exact spells.closes (by rintro rest ⟨⟩) (closes_bracket after)
  | more first _ ih =>
      obtain ⟨e, items, part⟩ := exists_partReading first
      obtain ⟨e', items', parts⟩ := ih
      refine ⟨e ++ e', items ++ items', part.expands.append parts.expands,
        part.contain.append parts.contain, fun after => ?_, fun after => ?_⟩
      · rw [List.append_assoc]
        exact noRange_append part.notEmpty part.noDash _
      · rw [List.append_assoc]
        exact part.closes (parts.noRange after) (parts.closes after)

/-- What stands between brackets is expanded to a text that is read as items for the set. -/
structure ContentReading (w : Text) (set : CodePoint → Prop) (e : Text) (items : List ClassItem)
    : Prop where
  expands : Expands true w e true
  contain : ClassItem.Contain items set
  sameHead : e.head? = w.head?
  closes : ∀ after host limit, (e ++ .char ']' :: after).length ≤ limit
    → classItems host limit true (e ++ .char ']' :: after) = .ok (items, after)

/-- The content of a class is read, with dashes at its ends. -/
theorem exists_contentReading {set : CodePoint → Prop} (h : IRegexp.ClassContent w set)
    : ∃ e items, ContentReading w set e items := by
  cases h with
  | dash rest =>
      obtain ⟨e, items, parts⟩ := exists_partsReading rest
      have spells : SpellsCode [.char '-'] _ := spellsCode_char (by decide) (by decide)
      have dash : Expands true [.char '-'] [.char '-'] true := .inside (by decide)
      refine ⟨.char '-' :: e, _, dash.append parts.expands,
        (ClassItem.Contain.single _).append parts.contain, rfl, fun after host limit enough => ?_⟩
      rw [classItems_of_notClosing (by simp)]
      exact spells.closes (parts.noRange after) (parts.closes after) host limit enough
  | part first rest =>
      obtain ⟨e, items, part⟩ := exists_partReading first
      obtain ⟨e', items', parts⟩ := exists_partsReading rest
      refine ⟨e ++ e', items ++ items', part.expands.append parts.expands,
        part.contain.append parts.contain, ?_, fun after host limit enough => ?_⟩
      · obtain ⟨c, others, rfl⟩ := List.exists_cons_of_ne_nil part.notEmpty
        rw [List.head?_append, List.head?_append, ← part.sameHead]
        rfl
      · have notClosing := part.notClosing
        rw [← List.head?_append_of_ne_nil e part.notEmpty] at notClosing
        rw [List.append_assoc] at enough ⊢
        rw [classItems_of_notClosing notClosing]
        exact part.closes (parts.noRange after) (parts.closes after) host limit enough

-----------------------------------------------------------------------------------------
-- Whole classes
-----------------------------------------------------------------------------------------

/-- The word is expanded to a class that contains just the code points of the set. -/
structure ClassReading (w : Text) (set : CodePoint → Prop) (e : Text) (found : CharClass)
    : Prop where
  expands : Expands false w (.char '[' :: e) false
  contain : ∀ c, found.contains c ↔ set c
  reads : ∀ host rest limit, (e ++ rest).length ≤ limit
    → charClass host limit (e ++ rest) = .ok (found, rest)

/-- Without a caret, the items are the class. -/
theorem charClass_of_noCaret {t : Text} (noCaret : t.head? ≠ some (.char '^')) {host : Host}
    {limit : Nat} (h : classItems host limit true t = .ok (items, rest))
    : charClass host limit t = .ok (⟨false, items⟩, rest) := by
  rw [charClass]
  · rw [h]
    rfl
  · rintro rest rfl
    exact noCaret rfl

/-- A class contains what its items do, or what they do not. -/
theorem contains_iff {set : CodePoint → Prop} (contain : ClassItem.Contain items set)
    (negated : Bool) (c : CodePoint)
    : CharClass.contains ⟨negated, items⟩ c ↔ if negated then ¬set c else set c := by
  rw [← contain c]
  cases negated <;> simp [CharClass.contains]

/-- Every class of the grammar is read as one with the same characters. -/
theorem exists_classReading {set : CodePoint → Prop}
    (h : IRegexp.ClassExpression false w set)
    : ∃ e found, ClassReading w set e found := by
  cases h with
  | positive content noCaret =>
      obtain ⟨e, items, content⟩ := exists_contentReading content
      refine ⟨e ++ [.char ']'], ⟨false, items⟩,
        Expands.opening.append (content.expands.append .closing),
        contains_iff content.contain false, fun host rest limit enough => ?_⟩
      rw [List.append_assoc] at enough ⊢
      refine charClass_of_noCaret ?_ (content.closes rest host limit enough)
      rw [List.head?_append, content.sameHead]
      cases head : List.head? _ with
      | none => simp
      | some c =>
          rw [Option.some_or, ← head]
          exact noCaret
  | @negative w set content =>
      obtain ⟨e, items, content⟩ := exists_contentReading content
      have caret : Expands true [.char '^'] [.char '^'] true := .inside (by decide)
      have expands : Expands false _ (.char '[' :: .char '^' :: (e ++ [.char ']'])) false :=
        Expands.opening.append (caret.append (content.expands.append .closing))
      refine ⟨_, ⟨true, items⟩, expands, contains_iff content.contain true,
        fun host rest limit enough => ?_⟩
      rw [List.cons_append, List.append_assoc] at enough ⊢
      rw [charClass]
      simp only [List.singleton_append, content.closes rest host limit (Nat.le_of_succ_le enough)]
      rfl
  | caret isMarked => cases isMarked

/-- A category outside classes is read as a class of its own. -/
theorem exists_classReading_category {set : CodePoint → Prop} (h : IRegexp.CategoryEscape w set)
    : ∃ e found, ClassReading w set e found := by
  obtain ⟨name, negated, isName, rfl, rfl⟩ := exists_of_categoryEscape h
  obtain ⟨known, notEmpty, areLetters⟩ := known_of_isCategoryName isName
  have part : PartReading _ _ (categoryText name negated) _ := partReading_category isName
  refine ⟨categoryText name negated ++ [.char ']'], ⟨false, _⟩, ?_,
    contains_iff part.contain false, fun host rest limit enough => ?_⟩
  · have expands : Expands false _ (escapeExpansion false name negated) false :=
      .category known notEmpty areLetters
    rw [escapeExpansion, if_neg Bool.false_ne_true, List.cons_append] at expands
    exact expands
  · have alone := part.closes (by rintro rest ⟨⟩) (closes_bracket rest)
    rw [List.append_assoc] at enough ⊢
    have noCaret : (categoryText name negated).head? ≠ some (.char '^') := by
      simp [part.sameHead]
    have notClosing := part.notClosing
    rw [← List.head?_append_of_ne_nil _ part.notEmpty] at noCaret notClosing
    refine charClass_of_noCaret noCaret ?_
    rw [classItems_of_notClosing notClosing, ← List.append_nil (List.map _ _)]
    exact alone host limit enough

end Pattern

end JsonPath
