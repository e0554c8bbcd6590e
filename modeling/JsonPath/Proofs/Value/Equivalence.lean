import JsonPath.Proofs.Location.Placement
import JsonPath.Proofs.Number.Values
import JsonPath.Proofs.Value.Equality

/-! Equality of documents is an equivalence that ignores the order of members. Equal values
have the same locations, with values of the same type at each of them and numbers that denote
the same.
-/

namespace JsonPath

/-- The types of values in documents. -/
inductive ValueType where
  | null
  | boolean
  | number
  | string
  | array
  | object
  deriving DecidableEq

namespace Value

def type : Value → ValueType
  | null => .null
  | bool _ => .boolean
  | number _ => .number
  | string _ => .string
  | array _ => .array
  | object _ => .object

variable {a b c : Value}

-----------------------------------------------------------------------------------------
-- Equivalence
-----------------------------------------------------------------------------------------

/-- Values with distinct names in all objects are equal to themselves, by induction on them.
-/
theorem isEqual_refl (keyed : a.IsKeyed) : a.isEqual a := by
  induction keyed with
  | null => rfl
  | bool | number | string => simp [isEqual, Number.isEqual]
  | array _ ih =>
      rw [isEqual, elementsEqual_iff, List.forall₂_same]
      exact ih
  | object distinct _ ih =>
      refine object_isEqual_iff.mpr ⟨rfl, fun member inside => ?_⟩
      exact ⟨member.2, Members.get?_of_mem distinct inside, ih member inside⟩

theorem EqualKeyed.refl (keyed : a.IsKeyed) : EqualKeyed a a :=
  ⟨keyed, keyed, isEqual_refl keyed⟩

/-- Values that cannot be told apart by equality are equal both ways round. -/
theorem EqualKeyed.symm (h : EqualKeyed a b) : EqualKeyed b a := by
  refine ⟨h.otherKeyed, h.keyed, ?_⟩
  rw [← (h.indistinct a).1]
  exact isEqual_refl h.keyed

/-- Equality of values without repeated names is transitive. -/
theorem EqualKeyed.trans (first : EqualKeyed a b) (second : EqualKeyed b c)
    : EqualKeyed a c := by
  refine ⟨first.keyed, second.otherKeyed, ?_⟩
  rw [← (second.indistinct a).2]
  exact first.equal

-----------------------------------------------------------------------------------------
-- The order of members
-----------------------------------------------------------------------------------------

/-- The second value is the first one with the members of objects in another order, in any
number of objects and at any depth.
-/
inductive Reordered : Value → Value → Prop
  | refl {a : Value} : Reordered a a
  | trans {a b c : Value} (first : Reordered a b) (second : Reordered b c) : Reordered a c
  | members {members others : Members} (perm : members.Perm others)
    : Reordered (.object members) (.object others)
  | element {front back value other} (inside : Reordered value other)
    : Reordered (.array (front ++ value :: back)) (.array (front ++ other :: back))
  | member {front back name value other} (inside : Reordered value other)
    : Reordered (.object (front ++ (name, value) :: back))
        (.object (front ++ (name, other) :: back))

/-- Objects are equal when they have the same distinct names with equal values. -/
theorem equalKeyed_object {members others : Members}
    (distinct : (members.map Prod.fst).Nodup)
    (names : (members.map Prod.fst).Perm (others.map Prod.fst))
    (related
      : ∀ member ∈ members, ∃ other, (member.1, other) ∈ others ∧ EqualKeyed member.2 other)
    : EqualKeyed (.object members) (.object others) := by
  have otherDistinct := names.nodup distinct
  refine ⟨.object distinct fun member inside => ?_, .object otherDistinct ?_, ?_⟩
  · obtain ⟨other, _, equal⟩ := related member inside
    exact equal.keyed
  · rintro ⟨name, value⟩ inside
    obtain ⟨member, inMembers, rfl⟩ :=
      List.mem_map.mp (names.mem_iff.mpr (List.mem_map_of_mem inside))
    obtain ⟨other, inOthers, equal⟩ := related member inMembers
    obtain rfl := Option.some.inj ((Members.get?_of_mem otherDistinct inside).symm.trans
      (Members.get?_of_mem otherDistinct inOthers))
    exact equal.otherKeyed
  · refine object_isEqual_iff.mpr ⟨by simpa using names.length_eq, fun member inside => ?_⟩
    obtain ⟨other, inOthers, equal⟩ := related member inside
    exact ⟨other, Members.get?_of_mem otherDistinct inOthers, equal.equal⟩

/-- Replacing an element by an equal one gives an equal array. -/
theorem equalKeyed_element {front back : List Value} {value other : Value}
    (keyed : (Value.array (front ++ value :: back)).IsKeyed) (equal : EqualKeyed value other)
    : EqualKeyed (.array (front ++ value :: back)) (.array (front ++ other :: back)) := by
  cases keyed with
  | array parts =>
      have same (values : List Value) (inside : ∀ v ∈ values, v ∈ front ++ value :: back)
          : List.Forall₂ EqualKeyed values values :=
        List.forall₂_same.mpr fun v member => .refl (parts v (inside v member))
      have pairs : List.Forall₂ EqualKeyed (front ++ value :: back) (front ++ other :: back) :=
        List.rel_append (same front (by simp +contextual))
          (.cons equal (same back (by simp +contextual)))
      refine ⟨.array parts, .array fun v member => ?_, ?_⟩
      · rcases List.mem_append.mp member with inFront | member
        · exact parts v (by simp [inFront])
        · rcases List.mem_cons.mp member with rfl | inBack
          · exact equal.otherKeyed
          · exact parts v (by simp [inBack])
      · exact elementsEqual_iff.mpr (pairs.imp fun _ _ same => same.equal)

/-- Replacing the value of a member by an equal one gives an equal object. -/
theorem equalKeyed_member {front back : Members} {name : Text} {value other : Value}
    (keyed : (Value.object (front ++ (name, value) :: back)).IsKeyed)
    (equal : EqualKeyed value other)
    : EqualKeyed (.object (front ++ (name, value) :: back))
        (.object (front ++ (name, other) :: back)) := by
  cases keyed with
  | object distinct parts =>
      refine equalKeyed_object distinct (by simp) fun member inside => ?_
      have kept (stays : member ∈ front ++ (name, other) :: back)
          : ∃ other', (member.1, other') ∈ front ++ (name, other) :: back
              ∧ EqualKeyed member.2 other' :=
        ⟨member.2, stays, .refl (parts member inside)⟩
      rcases List.mem_append.mp inside with inFront | inside
      · exact kept (by simp [inFront])
      · rcases List.mem_cons.mp inside with rfl | inBack
        · exact ⟨other, by simp, equal⟩
        · exact kept (by simp [inBack])

/-- Reordering members gives an equal value, by induction on where they are reordered. -/
theorem Reordered.equalKeyed (h : Reordered a b) (keyed : a.IsKeyed) : EqualKeyed a b := by
  induction h with
  | refl => exact .refl keyed
  | trans _ _ ih ih' =>
      have first := ih keyed
      exact first.trans (ih' first.otherKeyed)
  | members perm =>
      cases keyed with
      | object distinct parts =>
          refine equalKeyed_object distinct (perm.map Prod.fst) fun member inside => ?_
          exact ⟨member.2, perm.mem_iff.mp inside, .refl (parts member inside)⟩
  | element _ ih =>
      refine equalKeyed_element keyed (ih ?_)
      cases keyed with
      | array parts => exact parts _ (by simp)
  | @member _ _ name value _ _ ih =>
      refine equalKeyed_member keyed (ih ?_)
      cases keyed with
      | object _ parts => exact parts (name, value) (by simp)

-----------------------------------------------------------------------------------------
-- Locations
-----------------------------------------------------------------------------------------

/-- Equal values have equal children under each step, or none. -/
theorem EqualKeyed.child? (h : EqualKeyed a b) (step : Step)
    : Option.Rel EqualKeyed (a.child? step) (b.child? step) := by
  obtain ⟨elements, others, rfl, rfl⟩ | ⟨members, others, rfl, rfl⟩ | ⟨scalar, scalar'⟩ := h.shape
  · match step with
    | .position (.ofNat position) => exact getElem?_of_forall₂ h.elements position
    | .position (.negSucc _) => exact .none
    | .name _ => exact .none
  · cases step with
    | name name => exact h.lookup name
    | position _ => exact .none
  · have none {value : Value} (scalar : value.isScalar) : value.child? step = .none := by
      unfold Value.child?
      split
      · cases scalar
      · cases scalar
      · rfl
    rw [none scalar, none scalar']
    exact .none

/-- Equal values have the same locations, with equal values at them, by induction on the
location.
-/
theorem EqualKeyed.follow? (h : EqualKeyed a b) (location : Location)
    : Option.Rel EqualKeyed (follow? location a) (follow? location b) := by
  induction location generalizing a b with
  | nil => exact .some h
  | cons step location ih =>
      have child := h.child? step
      rw [Value.follow?, Value.follow?]
      generalize a.child? step = value, b.child? step = other at child
      cases child with
      | none => exact .none
      | some same => exact ih same

/-- Two values have the same type, and numbers denote the same. -/
structure IsCounterpart (a b : Value) : Prop where
  type : a.type = b.type
  number : ∀ m n, a = .number m → b = .number n → m.value = n.value

/-- Equal values have the same shape and equal parts. -/
theorem isCounterpart_of_isEqual (equal : a.isEqual b) : a.IsCounterpart b := by
  constructor
  · cases a <;> cases b <;> simp [isEqual] at equal <;> rfl
  · rintro m n rfl rfl
    exact (Number.isEqual_iff m n).mp equal

-----------------------------------------------------------------------------------------
-- Main statement
-----------------------------------------------------------------------------------------

/-- On values with distinct names in all objects, equality is reflexive, symmetric and
transitive, and it ignores the order of members. Equal values have the same locations, with
values of the same type at each of them, where numbers are exactly the same, whether they are
integers or floating point numbers.
-/
theorem isEqual_equivalence (keyed : a.IsKeyed) (keyed' : b.IsKeyed) (keyed'' : c.IsKeyed)
    : a.isEqual a
      ∧ (a.isEqual b ↔ b.isEqual a)
      ∧ (a.isEqual b → b.isEqual c → a.isEqual c)
      ∧ (∀ reordered, Reordered a reordered → a.isEqual reordered)
      ∧ (a.isEqual b
        → ∀ location,
          Option.Rel IsCounterpart (follow? location a) (follow? location b)) := by
  refine ⟨isEqual_refl keyed, ⟨fun equal => ?_, fun equal => ?_⟩, fun first second => ?_,
    fun reordered h => (h.equalKeyed keyed).equal, fun equal location => ?_⟩
  · exact (EqualKeyed.symm ⟨keyed, keyed', equal⟩).equal
  · exact (EqualKeyed.symm ⟨keyed', keyed, equal⟩).equal
  · exact (EqualKeyed.trans ⟨keyed, keyed', first⟩ ⟨keyed', keyed'', second⟩).equal
  · have found := EqualKeyed.follow? ⟨keyed, keyed', equal⟩ location
    generalize follow? location a = value, follow? location b = other at found
    cases found with
    | none => exact .none
    | some same => exact .some (isCounterpart_of_isEqual same.equal)

/-- An object with a number and an array of a number. -/
def numbered (n m : Number) : Value :=
  .object [([.char 'a'], .number n), ([.char 'b'], .array [.number m])]

theorem isKeyed_numbered (n m : Number) : (numbered n m).IsKeyed := by
  refine .object (by simp) fun member inside => ?_
  rcases List.mem_cons.mp inside with rfl | inside
  · exact .number
  · obtain rfl := List.mem_singleton.mp inside
    refine .array fun element inside => ?_
    obtain rfl := List.mem_singleton.mp inside
    exact .number

/-- One and two as integers, as floating point numbers and as one of each give three equal
objects, whose members can also change places.
-/
theorem isEqual_numbered
    : ∃ one two : Number,
        one = .float (.ofDecimal false 1 0)
        ∧ two = .float (.ofDecimal false 2 0)
        ∧ (numbered (.int 1) (.int 2)).isEqual (numbered one two)
        ∧ (numbered one two).isEqual (numbered (.int 1) (.int 2))
        ∧ (numbered one two).isEqual (numbered (.int 1) two)
        ∧ (numbered (.int 1) (.int 2)).isEqual (numbered (.int 1) two)
        ∧ (numbered (.int 1) (.int 2)).isEqual
            (.object [([.char 'b'], .array [.number (.int 2)]), ([.char 'a'], .number (.int 1))])
        ∧ IsCounterpart (.number (.int 2)) (.number two) := by
  have first : (numbered (.int 1) (.int 2)).isEqual
      (numbered (.float (.ofDecimal false 1 0)) (.float (.ofDecimal false 2 0))) := by
    decide +kernel
  have second : (numbered (.float (.ofDecimal false 1 0)) (.float (.ofDecimal false 2 0))).isEqual
      (numbered (.int 1) (.float (.ofDecimal false 2 0))) := by
    decide +kernel
  obtain ⟨-, symm, trans, reorder, located⟩ :=
    isEqual_equivalence (isKeyed_numbered _ _) (isKeyed_numbered _ _) (isKeyed_numbered _ _)
  refine ⟨_, _, rfl, rfl, first, symm.mp first, second, trans first second,
    reorder _ (.members (.swap _ _ _)), ?_⟩
  cases located first [.name [.char 'b'], .position 0] with
  | some same => exact same

end Value

end JsonPath
