import JsonPath.Pattern.Expansion

/-! Expansion as a relation, one constructor for each kind of thing that a pattern can go on
with. Expanding a pattern finds what is related to it.
-/

namespace JsonPath.Pattern

/-- A category escape without its backslash. -/
def escapeText (name : List Char) (negated : Bool) : Text :=
  .char (if negated then 'P' else 'p') :: .char '\x7b' :: name.map .char ++ [.char '\x7d']

/-- What a category escape becomes: ranges, in a class of their own outside classes. -/
def escapeExpansion (inClass : Bool) (name : List Char) (negated : Bool) : Text :=
  if inClass then categoryText name negated
  else .char '[' :: categoryText name negated ++ [.char ']']

/-- From inside or outside a class on, the second text is the expansion of the first one. -/
inductive Expanded : Bool → Text → Text → Prop
  | nil {inClass} : Expanded inClass [] []
  | category {inClass name negated rest e} (known : String.ofList name ∈ categoryNames)
    (notEmpty : name ≠ []) (areLetters : ∀ c ∈ name, c.isAlpha)
    (others : Expanded inClass rest e)
    : Expanded inClass (.char '\\' :: escapeText name negated ++ rest)
        (escapeExpansion inClass name negated ++ e)
  | escape {inClass c rest e} (noCategory : categoryEscape? (c :: rest) = none)
    (others : Expanded inClass rest e)
    : Expanded inClass (.char '\\' :: c :: rest) (.char '\\' :: c :: e)
  | backslash {inClass} : Expanded inClass [.char '\\'] [.char '\\']
  | opening {inClass rest e} (others : Expanded true rest e)
    : Expanded inClass (.char '[' :: rest) (.char '[' :: e)
  | closing {inClass rest e} (others : Expanded false rest e)
    : Expanded inClass (.char ']' :: rest) (.char ']' :: e)
  | dot {inClass rest e} (others : Expanded inClass rest e)
    : Expanded inClass (.char '.' :: rest) ((if inClass then "." else "[^\\n\\r]") ++ e)
  | plain {inClass c rest e} (isPlain : c ∉ ['\\', '[', ']', '.'].map CodePoint.char)
    (others : Expanded inClass rest e)
    : Expanded inClass (c :: rest) (c :: e)

-----------------------------------------------------------------------------------------
-- Category escapes
-----------------------------------------------------------------------------------------

section CategoryEscapes

variable {t rest : Text} {name : List Char} {negated : Bool}

/-- The letters that are split off stand in front of the rest. -/
theorem letters_spec (t : Text)
    : (letters t).1.map CodePoint.char ++ (letters t).2 = t ∧ ∀ c ∈ (letters t).1, c.isAlpha := by
  induction t with
  | nil => exact ⟨rfl, List.forall_mem_nil _⟩
  | cons c t ih =>
      obtain ⟨spelled, areLetters⟩ := ih
      cases c with
      | char c =>
          rw [letters]
          split
          next isAlpha =>
            exact ⟨congrArg _ spelled, List.forall_mem_cons.mpr ⟨isAlpha, areLetters⟩⟩
          next => exact ⟨rfl, List.forall_mem_nil _⟩
      | surrogate _ => exact ⟨rfl, List.forall_mem_nil _⟩

/-- Letters are split off up to what is no letter. -/
theorem letters_append {stop : Char} (all : ∀ c ∈ name, c.isAlpha) (stops : stop.isAlpha = false)
    : letters (name.map .char ++ .char stop :: rest) = (name, .char stop :: rest) := by
  induction name with
  | nil => simp [letters, stops]
  | cons c name ih =>
      obtain ⟨first, all⟩ := List.forall_mem_cons.mp all
      simp [letters, first, ih all]

/-- A category escape that is found is spelled in front of the rest. -/
theorem categoryEscape?_eq_some (h : categoryEscape? t = some (name, negated, rest))
    : t = escapeText name negated ++ rest ∧ name ≠ [] ∧ ∀ c ∈ name, c.isAlpha := by
  unfold categoryEscape? at h
  split at h
  next p after =>
    split at h
    next isMark =>
      obtain ⟨spelled, areLetters⟩ := letters_spec after
      split at h
      next => cases h
      next notEmpty eq =>
        obtain ⟨rfl, rfl, rfl⟩ := h
        rw [eq] at spelled areLetters
        refine ⟨?_, notEmpty, areLetters⟩
        obtain rfl | rfl := isMark <;> simp [escapeText, ← spelled]
      next => cases h
    next => cases h
  next => cases h

/-- A category escape is found as it is written. -/
theorem categoryEscape?_escapeText (notEmpty : name ≠ []) (areLetters : ∀ c ∈ name, c.isAlpha)
    : categoryEscape? (escapeText name negated ++ rest) = some (name, negated, rest) := by
  have spelled : letters (name.map .char ++ .char '\x7d' :: rest) = (name, .char '\x7d' :: rest) :=
    letters_append areLetters (by decide)
  obtain ⟨c, others, rfl⟩ := List.exists_cons_of_ne_nil notEmpty
  cases negated <;> simp_all [escapeText, categoryEscape?]

/-- An escape of another letter is no category escape. -/
theorem categoryEscape?_eq_none {c : CodePoint} (notLower : c ≠ .char 'p')
    (notUpper : c ≠ .char 'P')
    : categoryEscape? (c :: rest) = none := by
  unfold categoryEscape?
  split
  next p after eq =>
    obtain ⟨rfl, -⟩ := List.cons.inj eq
    rw [if_neg]
    rintro (rfl | rfl) <;> contradiction
  next => rfl

end CategoryEscapes

-----------------------------------------------------------------------------------------
-- Expansions
-----------------------------------------------------------------------------------------

variable {t rest w e w' e' : Text} {name : List Char} {negated inClass after last : Bool}

/-- The ranges are not looked at here, as they are costly to compute. -/
theorem expandFrom_category {limit : Nat} (escaped : categoryEscape? t = some (name, negated, rest))
    (known : String.ofList name ∈ categoryNames)
    : expandFrom inClass (limit + 1) (.char '\\' :: t)
      = (expandFrom inClass limit rest).map (escapeExpansion inClass name negated ++ ·) := by
  conv =>
    lhs
    unfold expandFrom
  rw [escapeExpansion]
  simp only [escaped, List.contains_iff_mem.mpr known, if_true]
  generalize categoryText name negated = ranges
  cases expandFrom inClass limit rest <;> rfl

/-- What is described as the expansion is computed, by induction on the description. -/
theorem Expanded.expandFrom_eq {limit : Nat} (h : Expanded inClass t e)
    (enough : t.length ≤ limit)
    : expandFrom inClass limit t = some e := by
  induction h generalizing limit with
  | nil => cases limit <;> rfl
  | category known notEmpty areLetters _ ih =>
      obtain ⟨limit, rfl⟩ := Nat.exists_eq_add_one_of_ne_zero (Nat.ne_zero_of_lt enough)
      simp only [List.cons_append, List.length_cons, List.length_append] at enough
      have shorter : expandFrom _ limit _ = some _ := ih (by omega)
      rw [List.cons_append,
        expandFrom_category (categoryEscape?_escapeText notEmpty areLetters) known, shorter,
        Option.map_some]
  | escape noCategory _ ih =>
      obtain ⟨limit, rfl⟩ := Nat.exists_eq_add_one_of_ne_zero (Nat.ne_zero_of_lt enough)
      simp only [List.length_cons] at enough
      have shorter : expandFrom _ limit _ = some _ := ih (by omega)
      simp [expandFrom, noCategory, shorter]
  | backslash =>
      obtain ⟨limit, rfl⟩ := Nat.exists_eq_add_one_of_ne_zero (Nat.ne_zero_of_lt enough)
      rfl
  | opening _ ih =>
      obtain ⟨limit, rfl⟩ := Nat.exists_eq_add_one_of_ne_zero (Nat.ne_zero_of_lt enough)
      simp [expandFrom, ih (Nat.le_of_succ_le_succ enough)]
  | closing _ ih =>
      obtain ⟨limit, rfl⟩ := Nat.exists_eq_add_one_of_ne_zero (Nat.ne_zero_of_lt enough)
      simp [expandFrom, ih (Nat.le_of_succ_le_succ enough)]
  | dot _ ih =>
      obtain ⟨limit, rfl⟩ := Nat.exists_eq_add_one_of_ne_zero (Nat.ne_zero_of_lt enough)
      simp [expandFrom, ih (Nat.le_of_succ_le_succ enough)]
  | plain isPlain _ ih =>
      obtain ⟨limit, rfl⟩ := Nat.exists_eq_add_one_of_ne_zero (Nat.ne_zero_of_lt enough)
      simp only [List.map_cons, List.map_nil, List.mem_cons, List.not_mem_nil, or_false,
        not_or] at isPlain
      simp [expandFrom, isPlain, ih (Nat.le_of_succ_le_succ enough)]

/-- What is computed is described as the expansion, by induction on the limit. -/
theorem expanded_of_expandFrom {limit : Nat} (enough : t.length ≤ limit)
    (h : expandFrom inClass limit t = some e)
    : Expanded inClass t e := by
  fun_induction expandFrom inClass limit t generalizing e with
  | case1 =>
      obtain rfl := List.length_eq_zero_iff.mp (Nat.le_zero.mp enough)
      obtain rfl := Option.some.inj h
      exact .nil
  | case2 =>
      obtain rfl := Option.some.inj h
      exact .nil
  | case3 inClass limit rest name negated others escaped known =>
      rename_i ih
      obtain ⟨rfl, notEmpty, areLetters⟩ := categoryEscape?_eq_some escaped
      obtain ⟨expansion, expanded, h⟩ := Option.bind_eq_some_iff.mp h
      obtain rfl := Option.some.inj h
      simp only [List.length_cons, List.length_append] at enough
      rw [← escapeExpansion]
      exact .category (List.contains_iff_mem.mp known) notEmpty areLetters (ih (by omega) expanded)
  | case4 => cases h
  | case5 =>
      obtain rfl := Option.some.inj h
      exact .backslash
  | case6 inClass limit c rest noCategory ih =>
      obtain ⟨expansion, expanded, h⟩ := Option.bind_eq_some_iff.mp h
      obtain rfl := Option.some.inj h
      simp only [List.length_cons] at enough
      exact .escape noCategory (ih (by omega) expanded)
  | case7 inClass limit rest ih =>
      obtain ⟨expansion, expanded, h⟩ := Option.bind_eq_some_iff.mp h
      obtain rfl := Option.some.inj h
      exact .opening (ih (Nat.le_of_succ_le_succ enough) expanded)
  | case8 inClass limit rest ih =>
      obtain ⟨expansion, expanded, h⟩ := Option.bind_eq_some_iff.mp h
      obtain rfl := Option.some.inj h
      exact .closing (ih (Nat.le_of_succ_le_succ enough) expanded)
  | case9 inClass limit rest ih =>
      obtain ⟨expansion, expanded, h⟩ := Option.bind_eq_some_iff.mp h
      obtain rfl := Option.some.inj h
      exact .dot (ih (Nat.le_of_succ_le_succ enough) expanded)
  | case10 inClass limit c rest noBackslash noOpening noClosing noDot ih =>
      obtain ⟨expansion, expanded, h⟩ := Option.bind_eq_some_iff.mp h
      obtain rfl := Option.some.inj h
      refine .plain ?_ (ih (Nat.le_of_succ_le_succ enough) expanded)
      simpa using ⟨noBackslash, noOpening, noClosing, noDot⟩

/-- The expansion that is computed is exactly the one that is described. -/
theorem expand_eq_some_iff : expand t = some e ↔ Expanded false t e :=
  ⟨expanded_of_expandFrom (Nat.le_succ _), fun h => h.expandFrom_eq (Nat.le_succ _)⟩

-----------------------------------------------------------------------------------------
-- Words
-----------------------------------------------------------------------------------------

/-- The word is expanded wherever it stands, and what follows it is inside or outside a class.
-/
def Expands (inClass : Bool) (w e : Text) (after : Bool) : Prop :=
  ∀ rest e', Expanded after rest e' → Expanded inClass (w ++ rest) (e ++ e')

namespace Expands

theorem nil : Expands inClass [] [] inClass :=
  fun _ _ h => h

/-- Expanding goes on where the first part ends, by induction on its expansion. -/
theorem append (first : Expands inClass w e after) (second : Expands after w' e' last)
    : Expands inClass (w ++ w') (e ++ e') last := by
  intro rest others h
  rw [List.append_assoc, List.append_assoc]
  exact first _ _ (second _ _ h)

/-- A text that is expanded outside of classes from its start to its end is expanded. -/
theorem expand_eq (h : Expands false w e false) : expand w = some e := by
  have whole := h [] [] .nil
  rw [List.append_nil, List.append_nil] at whole
  exact expand_eq_some_iff.mpr whole

/-- A category escape is replaced by its ranges, in brackets unless it stands in a class. -/
theorem category (known : String.ofList name ∈ categoryNames) (notEmpty : name ≠ [])
    (areLetters : ∀ c ∈ name, c.isAlpha)
    : Expands inClass (.char '\\' :: escapeText name negated)
        (escapeExpansion inClass name negated) inClass :=
  fun _ _ h => .category known notEmpty areLetters h

/-- Other escapes are copied. -/
theorem escape {c : CodePoint} (notLower : c ≠ .char 'p') (notUpper : c ≠ .char 'P')
    : Expands inClass [.char '\\', c] [.char '\\', c] inClass :=
  fun _ _ h => .escape (categoryEscape?_eq_none notLower notUpper) h

/-- A bracket that opens a class is copied. -/
theorem opening : Expands inClass [.char '['] [.char '['] true :=
  fun _ _ h => .opening h

theorem closing : Expands inClass [.char ']'] [.char ']'] false :=
  fun _ _ h => .closing h

/-- Outside of classes, a dot is replaced by what is no line break. -/
theorem dot : Expands false [.char '.'] "[^\\n\\r]" false :=
  fun _ _ h => .dot h

/-- Outside classes, all stays as it is but escapes, brackets and dots. -/
theorem outside {c : CodePoint} (isPlain : c ∉ ['\\', '[', ']', '.'].map CodePoint.char)
    : Expands false [c] [c] false :=
  fun _ _ h => .plain isPlain h

/-- Outside of classes, characters without a meaning of their own are copied, by induction on
these.
-/
theorem copy (arePlain : ∀ c ∈ w, c ∉ ['\\', '[', ']', '.'].map CodePoint.char)
    : Expands false w w false := by
  induction w with
  | nil => exact .nil
  | cons c w ih =>
      obtain ⟨isPlain, arePlain⟩ := List.forall_mem_cons.mp arePlain
      exact (outside isPlain).append (ih arePlain)

/-- Inside classes, dots stay as well. -/
theorem inside {c : CodePoint} (isPlain : c ∉ ['\\', '[', ']'].map CodePoint.char)
    : Expands true [c] [c] true := by
  intro rest e h
  by_cases isDot : c = .char '.'
  · subst isDot
    exact .dot h
  · refine .plain (fun mem => ?_) h
    simp_all

end Expands

end JsonPath.Pattern
