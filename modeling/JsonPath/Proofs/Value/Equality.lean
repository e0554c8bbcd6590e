import JsonPath.Evaluation.Comparison
import JsonPath.Proofs.Value.Documents
import Mathlib.Data.List.Forall2
import Mathlib.Data.List.Nodup
import Mathlib.Data.List.Perm.Subperm

/-! Equality of keyed values. Equal objects have the same names with equal values, in any
order. No comparison tells equal values apart: replacing one by the other on either side
changes neither an equality nor an order, whatever stands on the opposite side.
-/

namespace JsonPath

namespace Members

variable {members others : Members} {name : Text} {value : Value}

/-- A name under which a member is found is one of the names. -/
theorem mem_names_of_get? (h : get? name members = some value)
    : name ∈ members.map Prod.fst :=
  List.mem_map.mpr ⟨_, mem_of_get? h, rfl⟩

theorem get?_ne_none (present : name ∈ members.map Prod.fst) : get? name members ≠ none := by
  induction members with
  | nil => cases present
  | cons first members ih =>
      obtain ⟨name', value'⟩ := first
      rw [get?]
      split
      next => exact Option.some_ne_none _
      next different =>
        rcases List.mem_cons.mp present with rfl | present
        · exact absurd rfl different
        · exact ih present

/-- With distinct names, finding a member is being one. -/
theorem get?_iff_mem (distinct : (members.map Prod.fst).Nodup)
    : get? name members = some value ↔ (name, value) ∈ members :=
  ⟨mem_of_get?, get?_of_mem distinct⟩

/-- Members with the same names can be put into the same order, by induction on those that
set the order.
-/
theorem exists_perm_forall₂ {R : Value → Value → Prop}
    (names : (members.map Prod.fst).Perm (others.map Prod.fst))
    (related
      : ∀ name value other, (name, value) ∈ members → (name, other) ∈ others → R value other)
    : ∃ arranged,
        members.Perm arranged
        ∧ List.Forall₂ (fun member other => member.1 = other.1 ∧ R member.2 other.2) arranged
            others := by
  induction others generalizing members with
  | nil =>
      have none : members = [] := by simpa using names
      subst none
      exact ⟨[], .refl _, .nil⟩
  | cons first others ih =>
      obtain ⟨name, other⟩ := first
      have present : name ∈ members.map Prod.fst := names.mem_iff.mpr (by simp)
      obtain ⟨⟨name', value⟩, member, rfl⟩ := List.mem_map.mp present
      obtain ⟨front, back, rfl⟩ := List.append_of_mem member
      have moved : (front ++ (name', value) :: back).Perm ((name', value) :: (front ++ back)) :=
        List.perm_middle
      have remaining : ((front ++ back).map Prod.fst).Perm (others.map Prod.fst) :=
        ((moved.map Prod.fst).symm.trans names).cons_inv
      obtain ⟨arranged, perm, forall₂⟩ := ih remaining fun name value other inMembers inOthers =>
        related name value other (moved.mem_iff.mpr (by simp [inMembers])) (by simp [inOthers])
      refine ⟨(name', value) :: arranged, moved.trans (perm.cons _), .cons ⟨rfl, ?_⟩ forall₂⟩
      exact related name' value other (by simp) (by simp)

end Members

namespace Value

-----------------------------------------------------------------------------------------
-- Equality of containers
-----------------------------------------------------------------------------------------

/-- Arrays are equal when their elements are, one by one. -/
theorem elementsEqual_iff {elements others : List Value}
    : elementsEqual elements others ↔ List.Forall₂ (fun a b => a.isEqual b) elements others := by
  induction elements generalizing others with
  | nil => cases others <;> simp [elementsEqual]
  | cons element elements ih => cases others <;> simp [elementsEqual, ih]

/-- Members are equal when each one has an equal member of the same name. -/
theorem membersEqual_iff {members others : Members}
    : membersEqual members others
      ↔ ∀ member ∈ members,
          ∃ other, Members.get? member.1 others = some other ∧ member.2.isEqual other := by
  induction members with
  | nil => simp [membersEqual]
  | cons first members ih =>
      obtain ⟨name, value⟩ := first
      simp only [membersEqual, Bool.and_eq_true, ih, List.forall_mem_cons]
      refine and_congr_left fun _ => ?_
      cases Members.get? name others <;> simp

/-- Related lists have related items at each position, or none. -/
theorem getElem?_of_forall₂ {α β : Type} {R : α → β → Prop} {items : List α} {others : List β}
    (h : List.Forall₂ R items others) (position : Nat)
    : Option.Rel R items[position]? others[position]? := by
  induction h generalizing position with
  | nil => exact .none
  | cons first _ ih =>
      cases position with
      | zero => exact .some first
      | succ position => exact ih position

/-- Objects are equal when they have as many members, and equal ones under the same names. -/
theorem object_isEqual_iff {members others : Members}
    : (object members).isEqual (object others)
      ↔ members.length = others.length
        ∧ ∀ member ∈ members,
            ∃ other, Members.get? member.1 others = some other ∧ member.2.isEqual other := by
  simp [isEqual, membersEqual_iff]

/-- Equal objects have the same names: those of one are among those of the other, and there
are equally many.
-/
theorem names_perm_of_isEqual {members others : Members}
    (distinct : (members.map Prod.fst).Nodup)
    (equal : (object members).isEqual (object others))
    : (members.map Prod.fst).Perm (others.map Prod.fst) := by
  obtain ⟨sameLength, found⟩ := object_isEqual_iff.mp equal
  have included : members.map Prod.fst ⊆ others.map Prod.fst := by
    intro name present
    obtain ⟨member, inMembers, rfl⟩ := List.mem_map.mp present
    obtain ⟨other, lookup, _⟩ := found member inMembers
    exact Members.mem_names_of_get? lookup
  exact (distinct.subperm included).perm_of_length_le (by simp [sameLength])

-----------------------------------------------------------------------------------------
-- Parts of equal values
-----------------------------------------------------------------------------------------

/-- Values without parts. -/
def isScalar : Value → Bool
  | array _ => false
  | object _ => false
  | _ => true

/-- Equal values with distinct names in all objects. -/
structure EqualKeyed (a b : Value) : Prop where
  keyed : a.IsKeyed
  otherKeyed : b.IsKeyed
  equal : a.isEqual b

namespace EqualKeyed

/-- Equal values are both arrays, both objects, or both without parts. -/
theorem shape {a b : Value} (h : EqualKeyed a b)
    : (∃ elements others, a = .array elements ∧ b = .array others)
      ∨ (∃ members others, a = .object members ∧ b = .object others)
      ∨ a.isScalar ∧ b.isScalar := by
  have equal := h.equal
  cases a <;> cases b <;> simp [isEqual] at equal <;> simp [isScalar]

/-- The elements of equal arrays are equal, one by one. -/
theorem elements {elements others : List Value}
    (h : EqualKeyed (.array elements) (.array others))
    : List.Forall₂ EqualKeyed elements others := by
  obtain ⟨keyed, otherKeyed, equal⟩ := h
  cases keyed with
  | array parts =>
      cases otherKeyed with
      | array otherParts =>
          have same := elementsEqual_iff.mp equal
          refine List.forall₂_iff_zip.mpr ⟨same.length_eq, ?_⟩
          intro element other pair
          obtain ⟨member, otherMember⟩ := List.of_mem_zip pair
          exact ⟨parts _ member, otherParts _ otherMember, List.forall₂_zip same pair⟩

variable {members others : Members} (h : EqualKeyed (.object members) (.object others))

include h

/-- Equal objects have the same names, in some order. -/
theorem names_perm : (members.map Prod.fst).Perm (others.map Prod.fst) := by
  obtain ⟨keyed, _, equal⟩ := h
  cases keyed with
  | object distinct _ => exact names_perm_of_isEqual distinct equal

/-- Members of one name in equal objects are equal. -/
theorem member {name : Text} {value other : Value} (member : (name, value) ∈ members)
    (otherMember : (name, other) ∈ others)
    : EqualKeyed value other := by
  obtain ⟨keyed, otherKeyed, equal⟩ := h
  cases keyed with
  | object _ parts =>
      cases otherKeyed with
      | object distinct otherParts =>
          obtain ⟨other', lookup, same⟩ := (object_isEqual_iff.mp equal).2 _ member
          rw [Members.get?_of_mem distinct otherMember] at lookup
          obtain rfl := Option.some.inj lookup
          exact ⟨parts _ member, otherParts _ otherMember, same⟩

/-- Looking a name up in equal objects gives equal values, or none in both. -/
theorem lookup (name : Text)
    : Option.Rel EqualKeyed (Members.get? name members) (Members.get? name others) := by
  cases found : Members.get? name members with
  | none =>
      cases otherFound : Members.get? name others with
      | none => exact .none
      | some other =>
          have present := h.names_perm.mem_iff.mpr (Members.mem_names_of_get? otherFound)
          exact absurd found (Members.get?_ne_none present)
  | some value =>
      cases otherFound : Members.get? name others with
      | none =>
          have present := h.names_perm.mem_iff.mp (Members.mem_names_of_get? found)
          exact absurd otherFound (Members.get?_ne_none present)
      | some other =>
          exact .some (h.member (Members.mem_of_get? found) (Members.mem_of_get? otherFound))

end EqualKeyed

-----------------------------------------------------------------------------------------
-- Replacing equal values
-----------------------------------------------------------------------------------------

/-- No value is equal to one of two equal values only. -/
def Indistinct (a b : Value) : Prop :=
  ∀ c : Value, a.isEqual c = b.isEqual c ∧ c.isEqual a = c.isEqual b

/-- Elements that cannot be told apart equal the same lists, by induction on the elements. -/
theorem elementsEqual_congr {elements others : List Value}
    (same : List.Forall₂ Indistinct elements others) (rest : List Value)
    : elementsEqual elements rest = elementsEqual others rest
      ∧ elementsEqual rest elements = elementsEqual rest others := by
  induction same generalizing rest with
  | nil => exact ⟨rfl, rfl⟩
  | cons first _ ih =>
      cases rest with
      | nil => exact ⟨rfl, rfl⟩
      | cons c rest => simp only [elementsEqual, first c, ih rest, and_self]

/-- Arrays cannot be told apart when their elements cannot. -/
theorem indistinct_array {elements others : List Value}
    (same : List.Forall₂ Indistinct elements others)
    : Indistinct (.array elements) (.array others) := by
  intro c
  cases c with
  | array rest => simp only [isEqual, elementsEqual_congr same rest, and_self]
  | _ => simp [isEqual]

/-- Objects cannot be told apart when their members cannot. -/
theorem indistinct_object {members others : Members}
    (distinct : (members.map Prod.fst).Nodup) (otherDistinct : (others.map Prod.fst).Nodup)
    (sameLength : members.length = others.length)
    (same
      : ∀ name,
          Option.Rel Indistinct (Members.get? name members) (Members.get? name others))
    : Indistinct (.object members) (.object others) := by
  intro c
  cases c with
  | object rest =>
      constructor
      · rw [Bool.eq_iff_iff, object_isEqual_iff, object_isEqual_iff, sameLength]
        refine and_congr_right fun _ => ?_
        simp only [Prod.forall, ← Members.get?_iff_mem distinct,
          ← Members.get?_iff_mem otherDistinct]
        refine forall_congr' fun name => ?_
        have found := same name
        generalize Members.get? name members = value, Members.get? name others = other at found
        cases found with
        | none => simp
        | some indistinct => simp [fun c => (indistinct c).1]
      · rw [Bool.eq_iff_iff, object_isEqual_iff, object_isEqual_iff, sameLength]
        refine and_congr_right fun _ => forall₂_congr fun member _ => ?_
        have found := same member.1
        generalize Members.get? member.1 members = value, Members.get? member.1 others = other
          at found
        cases found with
        | none => simp
        | some indistinct => simp [fun c => (indistinct c).2]
  | _ => simp [isEqual]

/-- Equal scalars cannot be told apart. -/
theorem indistinct_of_isScalar {a b : Value} (scalar : a.isScalar) (equal : a.isEqual b)
    : Indistinct a b := by
  intro c
  cases a with
  | array _ | object _ => cases scalar
  | number m =>
      cases b <;> simp [isEqual, Number.isEqual] at equal
      cases c <;> simp [isEqual, Number.isEqual, equal]
  | null | bool _ | string _ =>
      cases b <;> simp [isEqual] at equal
      simp [equal]

/-- Equal values cannot be told apart by equality, by induction on one of them. -/
theorem EqualKeyed.indistinct {a b : Value} (h : EqualKeyed a b) : Indistinct a b := by
  have keyed := h.keyed
  induction keyed generalizing b with
  | null | bool | number | string => exact indistinct_of_isScalar rfl h.equal
  | @array elements _ ih =>
      obtain ⟨_, others, ⟨⟩, rfl⟩ | ⟨_, _, ⟨⟩, _⟩ | ⟨⟨⟩, _⟩ := h.shape
      have same := h.elements
      refine indistinct_array (List.forall₂_iff_zip.mpr ⟨same.length_eq, ?_⟩)
      intro element other pair
      exact ih element (List.of_mem_zip pair).1 (List.forall₂_zip same pair)
  | @object members distinct _ ih =>
      obtain ⟨_, _, ⟨⟩, _⟩ | ⟨_, others, ⟨⟩, rfl⟩ | ⟨⟨⟩, _⟩ := h.shape
      cases h.otherKeyed with
      | object otherDistinct _ =>
          have sameLength := (object_isEqual_iff.mp h.equal).1
          refine indistinct_object distinct otherDistinct sameLength fun name => ?_
          have lookup := h.lookup name
          generalize found : Members.get? name members = value,
            Members.get? name others = other at lookup ⊢
          cases lookup with
          | none => exact .none
          | some same => exact .some (ih _ (Members.mem_of_get? found) same)

/-- Equal values have the same place in the order. -/
theorem isLess_congr {a b : Value} (equal : a.isEqual b) (c : Value)
    : a.isLess c = b.isLess c ∧ c.isLess a = c.isLess b := by
  cases a with
  | number m =>
      cases b <;> simp [isEqual, Number.isEqual] at equal
      cases c <;> simp [isLess, Number.isLess, equal]
  | string t =>
      cases b <;> simp [isEqual] at equal
      subst equal
      exact ⟨rfl, rfl⟩
  | _ => cases b <;> cases c <;> simp [isEqual] at equal <;> simp [isLess]

/-- The same value, or equal keyed values: what no filter can tell apart. -/
inductive Interchangeable : Value → Value → Prop
  | same {a} : Interchangeable a a
  | equal {a b} (equal : EqualKeyed a b) : Interchangeable a b

namespace Interchangeable

variable {a b : Value}

theorem option_refl (value : Option Value) : Option.Rel Interchangeable value value := by
  cases value with
  | none => exact .none
  | some _ => exact .some .same

/-- Values that can be exchanged cannot be told apart. -/
theorem indistinct (h : Interchangeable a b) : Indistinct a b := by
  cases h with
  | same => exact fun _ => ⟨rfl, rfl⟩
  | equal h => exact h.indistinct

theorem isLess (h : Interchangeable a b) (c : Value)
    : a.isLess c = b.isLess c ∧ c.isLess a = c.isLess b := by
  cases h with
  | same => exact ⟨rfl, rfl⟩
  | equal h => exact isLess_congr h.equal c

end Interchangeable

end Value

namespace Comparator

variable {left left' right right' : Option Value}

/-- Operands that can be exchanged equal the same ones. -/
theorem areEqual_congr (first : Option.Rel Value.Interchangeable left left')
    (second : Option.Rel Value.Interchangeable right right')
    : areEqual left right = areEqual left' right' := by
  cases first with
  | none =>
      cases second with
      | none => rfl
      | some _ => rfl
  | some first =>
      cases second with
      | none => rfl
      | some second => exact (first.indistinct _).1.trans (second.indistinct _).2

theorem areOrdered_congr (first : Option.Rel Value.Interchangeable left left')
    (second : Option.Rel Value.Interchangeable right right')
    : areOrdered left right = areOrdered left' right' := by
  cases first with
  | none =>
      cases second with
      | none => rfl
      | some _ => rfl
  | some first =>
      cases second with
      | none => rfl
      | some second => exact (first.isLess _).1.trans (second.isLess _).2

/-- Interchangeable operands give the same result in every comparison. -/
theorem holds_congr (comparator : Comparator)
    (first : Option.Rel Value.Interchangeable left left')
    (second : Option.Rel Value.Interchangeable right right')
    : comparator.holds left right = comparator.holds left' right' := by
  have equal := areEqual_congr first second
  have ordered := areOrdered_congr first second
  have reversed := areOrdered_congr second first
  cases comparator <;> simp only [holds, equal, ordered, reversed]

end Comparator

end JsonPath
