import JsonPath.Proofs.Reading.Basic

/-! Member names, words and operators are read exactly as they are spelled, as far as they
reach.
-/

namespace JsonPath.Syntax

open Grammar Outcome

-----------------------------------------------------------------------------------------
-- Member names in dot notation
-----------------------------------------------------------------------------------------

/-- A selector that is read behind a dot is spelled there. -/
theorem dotted_sound {start t rest : Text} {afterDescent : Bool} {selector : Segment}
    (h : dotted start afterDescent t = .ok (selector, rest))
    : Dotted t selector rest := by
  unfold dotted at h
  split at h
  next => simp [fail] at h
  next c after =>
    split at h
    next isWildcard =>
      obtain ⟨rfl, rfl⟩ := Prod.mk.inj (Except.ok.inj h)
      subst isWildcard
      exact .wildcard
    next =>
      split at h
      next isFirst =>
        split at h
        next name end_ spanned =>
          obtain ⟨rfl, rfl⟩ := Prod.mk.inj (Except.ok.inj h)
          obtain ⟨eq, all⟩ := of_span_eq spanned
          have isChar : isNameChar c := by simp [isNameChar, isFirst]
          -- The first character belongs to the name, which is therefore not empty.
          cases name with
          | nil => simp [List.span_eq_takeWhile_dropWhile, isChar] at spanned
          | cons d cs =>
              obtain ⟨rfl, rfl⟩ := List.cons.inj eq
              exact .name (.mk isFirst fun e member => all e (by simp [member]))
      next =>
        split at h
        next => simp [fail] at h
        next => simp [fail] at h

/-- A selector behind a dot is read as it is spelled, up to where its name ends. -/
theorem dotted_complete (start : Text) (afterDescent : Bool) {t rest : Text}
    {selector : Segment} (h : Dotted t selector rest) (ends : Avoids isNameChar rest)
    : dotted start afterDescent t = .ok (selector, rest) := by
  cases h with
  | wildcard => simp [dotted]
  | name spelling =>
      obtain ⟨first, others⟩ := spelling
      rename_i c cs
      have notWildcard : c ≠ .char '*' := by
        rintro rfl
        revert first
        decide
      have all : ∀ d ∈ c :: cs, isNameChar d := by
        intro d member
        rcases List.mem_cons.mp member with rfl | member
        · simp [isNameChar, first]
        · exact others d member
      have spanned := span_append all ends
      rw [List.cons_append] at spanned ⊢
      simp only [dotted, if_neg notWildcard, first, spanned]
      rfl

/-- A selector behind a dot takes at least one character. -/
theorem length_lt_of_dotted {t rest : Text} {selector : Segment} (h : Dotted t selector rest)
    : rest.length < t.length := by
  cases h with
  | wildcard => simp
  | name spelling =>
      cases spelling
      simp only [List.length_cons, List.length_append]
      omega

/-- A name or a wildcard starts neither with a dot nor with a bracket. -/
theorem head_of_dotted {t rest : Text} {selector : Segment} (h : Dotted t selector rest)
    (p : CodePoint → Bool) (notName : ∀ c, p c → isNameFirst c = false ∧ c ≠ .char '*')
    : Avoids p t := by
  intro c after eq
  by_contra holds
  obtain ⟨notFirst, notWildcard⟩ := notName c (by simpa using holds)
  cases h with
  | wildcard =>
      obtain ⟨rfl, -⟩ := List.cons.inj eq
      exact notWildcard rfl
  | name spelling =>
      obtain ⟨first, _⟩ := spelling
      obtain ⟨rfl, -⟩ := List.cons.inj eq
      simp [first] at notFirst

-----------------------------------------------------------------------------------------
-- Words
-----------------------------------------------------------------------------------------

/-- What can go on in a word. -/
def isWordPart (c : CodePoint) : Bool :=
  isLower c || c.isDigit || c = .char '_'

theorem isNumericDigit_of_isLower {c : CodePoint} (h : isLower c) : c.isNumericDigit = false := by
  cases c with
  | surrogate _ => cases h
  | char c =>
      have bounds : isLower (.char c) = (decide ('a'.val ≤ c.val) && decide (c.val ≤ 'z'.val)) :=
        rfl
      simp only [bounds, Bool.and_eq_true, decide_eq_true_eq, UInt32.le_iff_toNat_le] at h
      have lower : 97 ≤ c.toNat := h.1
      have upper : c.toNat ≤ 122 := h.2
      have notDigit : c.isDigit = false := by
        by_contra isDigit
        simp only [Char.isDigit, Bool.not_eq_false, Bool.and_eq_true, decide_eq_true_eq,
          UInt32.le_iff_toNat_le] at isDigit
        have most : c.toNat ≤ 57 := isDigit.2
        omega
      have below : c.toNat < 0x80 := by omega
      simp [CodePoint.isNumericDigit, CodePoint.toNat, CodePoint.isDigit, below, notDigit]

/-- The word that is read is in front of the rest, and a function name unless it is empty. -/
theorem word_sound {t name rest : Text} (h : word t = (name, rest))
    : t = name ++ rest ∧ (name ≠ [] → IsFunctionName name) := by
  unfold word at h
  split at h
  next =>
    obtain ⟨rfl, rfl⟩ := Prod.mk.inj h
    exact ⟨rfl, fun notEmpty => absurd rfl notEmpty⟩
  next c after =>
    split at h
    next isFirst =>
      obtain ⟨eq, all⟩ := of_span_eq h
      refine ⟨eq, fun notEmpty => ?_⟩
      cases name with
      | nil => exact absurd rfl notEmpty
      | cons d cs =>
          obtain ⟨rfl, -⟩ := List.cons.inj eq
          exact .mk isFirst fun e member => by simpa using all e (by simp [member])
    next =>
      obtain ⟨rfl, rfl⟩ := Prod.mk.inj h
      exact ⟨rfl, fun notEmpty => absurd rfl notEmpty⟩

/-- A function name is read as a word when nothing behind it belongs to the word. -/
theorem word_complete {name rest : Text} (isName : IsFunctionName name)
    (ends : Avoids isWordPart rest)
    : word (name ++ rest) = (name, rest) := by
  obtain ⟨first, others⟩ := isName
  rename_i c cs
  have all : ∀ d ∈ c :: cs, isWordPart d := by
    intro d member
    rcases List.mem_cons.mp member with rfl | member
    · simp [isWordPart, first]
    · exact others d member
  have spanned := span_append all ends
  rw [List.cons_append] at spanned ⊢
  simp only [word, first, if_true]
  exact spanned

theorem isFunctionName_true : IsFunctionName ("true" : Text) :=
  .mk (by decide) (by decide)

theorem isFunctionName_false : IsFunctionName ("false" : Text) :=
  .mk (by decide) (by decide)

theorem isFunctionName_null : IsFunctionName ("null" : Text) :=
  .mk (by decide) (by decide)

-----------------------------------------------------------------------------------------
-- Operators
-----------------------------------------------------------------------------------------

/-- A given word is passed exactly when it stands in front. -/
theorem after?_eq_some {word t rest : Text}
    : Text.after? word t = some rest ↔ t = word ++ rest := by
  induction word generalizing t with
  | nil => simp [Text.after?]
  | cons c word ih =>
      cases t with
      | nil => simp [Text.after?]
      | cons d t =>
          by_cases same : c = d
          · simp [Text.after?, same, ih]
          · simp [Text.after?, same, Ne.symm same]

/-- An operator that is read is spelled in front of the rest. -/
theorem comparator?_sound {t rest : Text} {comparator : Comparator}
    (h : comparator? t = some (comparator, rest))
    : t = comparator.text ++ rest := by
  obtain ⟨found, _, h⟩ := List.exists_of_findSome?_eq_some h
  obtain ⟨after, match_, eq⟩ := Option.map_eq_some_iff.mp h
  obtain ⟨rfl, rfl⟩ := Prod.mk.inj eq
  exact after?_eq_some.mp match_

/-- The operators of two characters are tried first, so one of a single character must not
be followed by an equals sign.
-/
theorem comparator?_complete {rest : Text} {comparator : Comparator}
    (ends : Avoids (· = .char '=') rest)
    : comparator? (comparator.text ++ rest) = some (comparator, rest) := by
  have noEquals : Text.after? [.char '='] rest = none := by
    cases rest with
    | nil => rfl
    | cons c rest =>
        have stop : c ≠ .char '=' := by simpa using ends c rest rfl
        simp [Text.after?, Ne.symm stop]
  cases comparator <;>
    simp [comparator?, comparators, Comparator.text, Text.ofString, Text.after?, noEquals]

/-- Where no operator can start, none is read. -/
theorem comparator?_eq_none {t : Text}
    (h : Avoids (fun c => ['=', '!', '<', '>'].any fun d => c = .char d) t)
    : comparator? t = none := by
  cases t with
  | nil => rfl
  | cons c t =>
      have stop := h c t rfl
      simp only [List.any_cons, List.any_nil, Bool.or_false, Bool.or_eq_false_iff,
        decide_eq_false_iff_not] at stop
      obtain ⟨notEqual, notBang, notLess, notGreater⟩ := stop
      simp [comparator?, comparators, Comparator.text, Text.ofString, Text.after?,
        Ne.symm notEqual, Ne.symm notBang, Ne.symm notLess, Ne.symm notGreater]

end JsonPath.Syntax
