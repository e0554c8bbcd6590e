import JsonPath.Proofs.Text.CodePoints
import JsonPath.Proofs.Value.Equivalence

/-! The comparisons of filters form one order. Numbers are ordered by the values they denote
and strings by code points; between all other values, and the absence of one, there is no
order but equality.
-/

namespace JsonPath

-----------------------------------------------------------------------------------------
-- Strings
-----------------------------------------------------------------------------------------

namespace CodePoint

instance : Std.Irrefl (fun c d : CodePoint => c < d) where
  irrefl c := Nat.lt_irrefl c.toNat

instance : Std.Asymm (fun c d : CodePoint => c < d) where
  asymm _ _ := Nat.lt_asymm

instance : Std.Trichotomous (fun c d : CodePoint => c < d) where
  trichotomous _ _ notLess notGreater :=
    toNat_injective (Nat.le_antisymm (Nat.le_of_not_lt notGreater) (Nat.le_of_not_lt notLess))

instance : Trans (fun c d : CodePoint => c < d) (fun c d : CodePoint => c < d)
    (fun c d : CodePoint => c < d) where
  trans := Nat.lt_trans

end CodePoint

-----------------------------------------------------------------------------------------
-- Values
-----------------------------------------------------------------------------------------

namespace Value

variable {a b c : Value}

/-- The smaller one of two values is a number below a number or a string before a string. -/
theorem isLess_iff
    : a.isLess b
      ↔ (∃ m n, a = .number m ∧ b = .number n ∧ m.value < n.value)
        ∨ ∃ s t, a = .string s ∧ b = .string t ∧ s < t := by
  cases a <;> cases b <;> simp [isLess, Number.isLess_iff]

theorem not_isLess_self (a : Value) : ¬a.isLess a := by
  intro less
  obtain ⟨m, n, rfl, same, less⟩ | ⟨s, t, rfl, same, less⟩ := isLess_iff.mp less
  · obtain rfl := Value.number.inj same
    exact lt_irrefl _ less
  · obtain rfl := Value.string.inj same
    exact List.lt_irrefl _ less

/-- Less than something less is less, for numbers and for strings. -/
theorem isLess_trans (first : a.isLess b) (second : b.isLess c) : a.isLess c := by
  rw [isLess_iff] at first second ⊢
  obtain ⟨m, n, rfl, rfl, first⟩ | ⟨s, t, rfl, rfl, first⟩ := first
  · obtain ⟨n', k, same, rfl, second⟩ | ⟨_, _, ⟨⟩, _⟩ := second
    obtain rfl := Value.number.inj same
    exact .inl ⟨m, k, rfl, rfl, first.trans second⟩
  · obtain ⟨_, _, ⟨⟩, _⟩ | ⟨t', u, same, rfl, second⟩ := second
    obtain rfl := Value.string.inj same
    exact .inr ⟨s, u, rfl, rfl, List.lt_trans first second⟩

/-- The types whose values have an order. -/
inductive HaveOrder : Value → Value → Prop
  | numbers {m n} : HaveOrder (.number m) (.number n)
  | strings {s t} : HaveOrder (.string s) (.string t)

theorem HaveOrder.symm (h : HaveOrder a b) : HaveOrder b a := by
  cases h with
  | numbers => exact .numbers
  | strings => exact .strings

theorem haveOrder_of_isLess (less : a.isLess b) : HaveOrder a b := by
  obtain ⟨m, n, rfl, rfl, _⟩ | ⟨s, t, rfl, rfl, _⟩ := isLess_iff.mp less
  · exact .numbers
  · exact .strings

/-- Of two numbers or two strings that are not equal, one is smaller. -/
theorem HaveOrder.total (h : HaveOrder a b) : a.isLess b ∨ a.isEqual b ∨ b.isLess a := by
  cases h with
  | @numbers m n =>
      simp only [isLess, isEqual, Number.isLess_iff, Number.isEqual_iff]
      exact lt_trichotomy m.value n.value
  | @strings s t =>
      simp only [isLess, isEqual, decide_eq_true_eq]
      by_contra none
      push Not at none
      obtain ⟨notLess, different, notGreater⟩ := none
      exact different (List.le_antisymm notGreater notLess)

end Value

-----------------------------------------------------------------------------------------
-- Comparisons
-----------------------------------------------------------------------------------------

namespace Comparator

open Value (EqualKeyed HaveOrder)

variable {a b c : Option Value}

/-- Both values are there and have an order. -/
def AreOrderable (a b : Option Value) : Prop :=
  ∃ x ∈ a, ∃ y ∈ b, HaveOrder x y

/-- What makes one order of the comparisons of three values, each of which can be absent. -/
structure IsCoherent (a b c : Option Value) : Prop where
  atMost_refl : atMost.holds a a
  atMost_trans : atMost.holds a b → atMost.holds b c → atMost.holds a c
  atMost_antisymm : atMost.holds a b ∧ atMost.holds b a ↔ equal.holds a b
  less_iff : less.holds a b ↔ atMost.holds a b ∧ ¬atMost.holds b a
  less_irrefl : ¬less.holds a a
  less_trans : less.holds a b → less.holds b c → less.holds a c
  less_congr
    : equal.holds a b
      → less.holds a c = less.holds b c ∧ less.holds c a = less.holds c b
  /-- Exactly one of the three holds. -/
  trichotomy
    : AreOrderable a b
      → [less, equal, greater].countP (fun comparator => comparator.holds a b) = 1
  unordered
    : ¬AreOrderable a b
      → ¬less.holds a b
        ∧ ¬greater.holds a b
        ∧ (atMost.holds a b ↔ equal.holds a b)
        ∧ (atLeast.holds a b ↔ equal.holds a b)
  equal_none : (equal.holds a none ↔ a = none) ∧ (equal.holds none a ↔ a = none)
  atMost_none : (atMost.holds a none ↔ a = none) ∧ (atMost.holds none a ↔ a = none)
  notEqual_iff : notEqual.holds a b ↔ ¬equal.holds a b
  greater_iff : greater.holds a b ↔ less.holds b a
  atLeast_iff : atLeast.holds a b ↔ atMost.holds b a

/-- Operands are ordered when both have values, one less than the other. -/
theorem areOrdered_iff : areOrdered a b ↔ ∃ x ∈ a, ∃ y ∈ b, x.isLess y := by
  cases a <;> cases b <;> simp [areOrdered]

theorem areOrderable_of_areOrdered (ordered : areOrdered a b) : AreOrderable a b := by
  obtain ⟨x, hasLeft, y, hasRight, less⟩ := areOrdered_iff.mp ordered
  exact ⟨x, hasLeft, y, hasRight, Value.haveOrder_of_isLess less⟩

theorem not_areOrdered_self (a : Option Value) : ¬areOrdered a a := by
  cases a with
  | none => exact Bool.false_ne_true
  | some x => exact x.not_isLess_self

theorem areOrdered_trans (first : areOrdered a b) (second : areOrdered b c)
    : areOrdered a c := by
  obtain ⟨x, hasLeft, y, hasMiddle, first⟩ := areOrdered_iff.mp first
  obtain ⟨y', hasMiddle', z, hasRight, second⟩ := areOrdered_iff.mp second
  obtain rfl := Option.mem_unique hasMiddle hasMiddle'
  exact areOrdered_iff.mpr ⟨x, hasLeft, z, hasRight, Value.isLess_trans first second⟩

/-- The order of operands has one direction. -/
theorem not_areOrdered_symm (ordered : areOrdered a b) : ¬areOrdered b a :=
  fun reversed => not_areOrdered_self a (areOrdered_trans ordered reversed)

section Keyed

variable (keyed : ∀ value ∈ a, value.IsKeyed) (keyed' : ∀ value ∈ b, value.IsKeyed)

include keyed

theorem areEqual_refl : areEqual a a := by
  cases a with
  | none => rfl
  | some x => exact Value.isEqual_refl (keyed x rfl)

include keyed'

/-- Operands are equal when both are nothing or both have equal values. -/
theorem areEqual_iff : areEqual a b ↔ Option.Rel EqualKeyed a b := by
  constructor
  · intro equal
    cases a <;> cases b
    · exact .none
    · cases equal
    · cases equal
    · exact .some ⟨keyed _ rfl, keyed' _ rfl, equal⟩
  · intro same
    cases same with
    | none => rfl
    | some same => exact same.equal

theorem areEqual_comm : areEqual a b = areEqual b a := by
  rw [Bool.eq_iff_iff, areEqual_iff keyed keyed', areEqual_iff keyed' keyed]
  constructor
  all_goals
    intro same
    cases same with
    | none => exact .none
    | some same => exact .some same.symm

/-- Equal operands can be exchanged. -/
theorem interchangeable_of_areEqual (equal : areEqual a b)
    : Option.Rel Value.Interchangeable a b := by
  cases (areEqual_iff keyed keyed').mp equal with
  | none => exact .none
  | some same => exact .some (.equal same)

/-- Equal values are equal to the same values and have the same place in the order. -/
theorem holds_congr_of_areEqual (equal : areEqual a b) (comparator : Comparator)
    (c : Option Value)
    : comparator.holds a c = comparator.holds b c
      ∧ comparator.holds c a = comparator.holds c b := by
  have same := interchangeable_of_areEqual keyed keyed' equal
  have unchanged := Value.Interchangeable.option_refl c
  exact ⟨comparator.holds_congr same unchanged, comparator.holds_congr unchanged same⟩

/-- Neither of two equal operands is less. -/
theorem not_areOrdered_of_areEqual (equal : areEqual a b) : ¬areOrdered a b := by
  have same := (holds_congr_of_areEqual keyed keyed' equal less b).1
  rw [holds, holds] at same
  rw [same]
  exact not_areOrdered_self b

/-- Operands that are at most each other are equal. -/
theorem atMost_antisymm : atMost.holds a b ∧ atMost.holds b a ↔ equal.holds a b := by
  simp only [holds, Bool.or_eq_true, areEqual_comm keyed' keyed]
  constructor
  · rintro ⟨ordered | equal, reversed | equal⟩
    · exact absurd reversed (not_areOrdered_symm ordered)
    · exact equal
    · exact equal
    · exact equal
  · exact fun equal => ⟨.inr equal, .inr equal⟩

/-- The order is what is left of `<=` without equality. -/
theorem less_iff : less.holds a b ↔ atMost.holds a b ∧ ¬atMost.holds b a := by
  simp only [holds, Bool.or_eq_true, areEqual_comm keyed' keyed, not_or]
  constructor
  · intro ordered
    refine ⟨.inl ordered, not_areOrdered_symm ordered, fun equal => ?_⟩
    exact not_areOrdered_of_areEqual keyed keyed' equal ordered
  · rintro ⟨ordered | equal, _, different⟩
    · exact ordered
    · exact absurd equal different

/-- Of operands that can be ordered, exactly one is less or both are equal. -/
theorem trichotomy (orderable : AreOrderable a b)
    : [less, equal, greater].countP (fun comparator => comparator.holds a b) = 1 := by
  obtain ⟨x, hasLeft, y, hasRight, haveOrder⟩ := orderable
  rcases haveOrder.total with ordered | same | ordered
  · have isLess : areOrdered a b := areOrdered_iff.mpr ⟨x, hasLeft, y, hasRight, ordered⟩
    have notEqual : ¬areEqual a b :=
      fun equal => not_areOrdered_of_areEqual keyed keyed' equal isLess
    simp [holds, isLess, notEqual, not_areOrdered_symm isLess]
  · have isEqual : areEqual a b := by
      obtain rfl := hasLeft
      obtain rfl := hasRight
      exact same
    have isEqual' : areEqual b a := (areEqual_comm keyed keyed').symm.trans isEqual
    simp [holds, isEqual, not_areOrdered_of_areEqual keyed keyed' isEqual,
      not_areOrdered_of_areEqual keyed' keyed isEqual']
  · have isGreater : areOrdered b a := areOrdered_iff.mpr ⟨y, hasRight, x, hasLeft, ordered⟩
    have notEqual : ¬areEqual a b := by
      rw [areEqual_comm keyed keyed']
      exact fun equal => not_areOrdered_of_areEqual keyed' keyed equal isGreater
    simp [holds, isGreater, notEqual, not_areOrdered_symm isGreater]

theorem atMost_trans (keyed'' : ∀ value ∈ c, value.IsKeyed) (first : atMost.holds a b)
    (second : atMost.holds b c)
    : atMost.holds a c := by
  rcases Bool.or_eq_true_iff.mp first with ordered | equal
  · rcases Bool.or_eq_true_iff.mp second with ordered' | equal
    · exact Bool.or_eq_true_iff.mpr (.inl (areOrdered_trans ordered ordered'))
    · rwa [← (holds_congr_of_areEqual keyed' keyed'' equal atMost a).2]
  · rwa [(holds_congr_of_areEqual keyed keyed' equal atMost c).1]

end Keyed

/-- Without an order there is neither a smaller nor a greater one. -/
theorem unordered (none : ¬AreOrderable a b)
    : ¬less.holds a b
      ∧ ¬greater.holds a b
      ∧ (atMost.holds a b ↔ equal.holds a b)
      ∧ (atLeast.holds a b ↔ equal.holds a b) := by
  have notLess : ¬areOrdered a b := mt areOrderable_of_areOrdered none
  have notGreater : ¬areOrdered b a := by
    intro ordered
    obtain ⟨y, hasRight, x, hasLeft, haveOrder⟩ := areOrderable_of_areOrdered ordered
    exact none ⟨x, hasLeft, y, hasRight, haveOrder.symm⟩
  simp [holds, notLess, notGreater]

/-- The six comparisons are coherent on values with distinct names in all objects and on the
absence of a value.
-/
theorem isCoherent (keyed : ∀ value ∈ a, value.IsKeyed) (keyed' : ∀ value ∈ b, value.IsKeyed)
    (keyed'' : ∀ value ∈ c, value.IsKeyed)
    : IsCoherent a b c where
  atMost_refl := Bool.or_eq_true_iff.mpr (.inr (areEqual_refl keyed))
  atMost_trans := atMost_trans keyed keyed' keyed''
  atMost_antisymm := atMost_antisymm keyed keyed'
  less_iff := less_iff keyed keyed'
  less_irrefl := not_areOrdered_self a
  less_trans := areOrdered_trans
  less_congr equal := holds_congr_of_areEqual keyed keyed' equal less c
  trichotomy := trichotomy keyed keyed'
  unordered := unordered
  equal_none := by cases a <;> simp [holds, areEqual]
  atMost_none := by cases a <;> simp [holds, areOrdered, areEqual]
  notEqual_iff := by simp [holds]
  greater_iff := .rfl
  atLeast_iff := by simp only [holds, areEqual_comm keyed keyed']

/-- An integer that no floating point number is equal to stands between its two neighbours,
which are in order then.
-/
theorem isCoherent_betweenFloats
    : ∃ low high : Binary64,
        low = .ofDecimal false 9007199254740992 0
        ∧ high = .ofDecimal false 9007199254740994 0
        ∧ less.holds (some (.number (.float low))) (some (.number (.int 9007199254740993)))
        ∧ less.holds (some (.number (.int 9007199254740993))) (some (.number (.float high)))
        ∧ less.holds (some (.number (.float low))) (some (.number (.float high))) := by
  have isKeyed (n : Number) : ∀ value ∈ some (Value.number n), value.IsKeyed := by
    rintro _ ⟨⟩
    exact .number
  have coherent := isCoherent (isKeyed (.float (.ofDecimal false 9007199254740992 0)))
    (isKeyed (.int 9007199254740993)) (isKeyed (.float (.ofDecimal false 9007199254740994 0)))
  have first : less.holds (some (.number (.float (.ofDecimal false 9007199254740992 0))))
      (some (.number (.int 9007199254740993))) := by
    decide +kernel
  have second : less.holds (some (.number (.int 9007199254740993)))
      (some (.number (.float (.ofDecimal false 9007199254740994 0)))) := by
    decide +kernel
  exact ⟨_, _, rfl, rfl, first, second, coherent.less_trans first second⟩

end Comparator

end JsonPath
