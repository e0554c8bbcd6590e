import JsonPath.Proofs.Evaluation.Interchange
import JsonPath.Proofs.Location.Descent

/-! Queries do not tell equal documents apart. The members of equal objects can stand in
different orders, and equal numbers can be spelled differently; a query finds equal values at
the same locations all the same, though not always in the same order.
-/

namespace JsonPath

open Value (EqualKeyed)

namespace Node

-----------------------------------------------------------------------------------------
-- Values without parts
-----------------------------------------------------------------------------------------

section Scalars

variable {node : Node} (scalar : node.value.isScalar)

include scalar

theorem size_of_isScalar : node.size = 0 := by
  unfold size
  split
  next isArray =>
    rw [isArray] at scalar
    cases scalar
  next => rfl

theorem member_of_isScalar (name : Text) : node.member name = [] := by
  unfold member
  split
  next isObject =>
    rw [isObject] at scalar
    cases scalar
  next => rfl

theorem elementsAt_of_isScalar (positions : List Nat) : node.elementsAt positions = [] := by
  unfold elementsAt
  split
  next isArray =>
    rw [isArray] at scalar
    cases scalar
  next => rfl

theorem children_of_isScalar : node.children = [] := by
  unfold children
  split
  next isArray =>
    rw [isArray] at scalar
    cases scalar
  next isObject =>
    rw [isObject] at scalar
    cases scalar
  next => rfl

end Scalars

/-- Below a scalar there is only the scalar. -/
theorem below_of_isScalar {value : Value} (scalar : value.isScalar) (location : Location)
    : below location value = [⟨value, location⟩] := by
  cases value with
  | array _ | object _ => cases scalar
  | _ => simp [below]

-----------------------------------------------------------------------------------------
-- Nodes with equal values
-----------------------------------------------------------------------------------------

/-- The nodes of two lists are at the same locations and have equal values, in any order. -/
abbrev Matched : List Node → List Node → Prop :=
  Arrangement.any.Pairs (Similar EqualKeyed)

variable {a b : Value} {location : Location}

theorem size_eq_of_equalKeyed (h : EqualKeyed a b)
    : size ⟨a, location⟩ = size ⟨b, location⟩ := by
  obtain ⟨elements, others, rfl, rfl⟩ | ⟨members, others, rfl, rfl⟩ | ⟨scalar, scalar'⟩ := h.shape
  · exact h.elements.length_eq
  · rfl
  · rw [size_of_isScalar scalar, size_of_isScalar scalar']

/-- Members of one name are matched in equal objects, whatever their order. -/
theorem matched_member (h : EqualKeyed a b) (name : Text)
    : Matched (member name ⟨a, location⟩) (member name ⟨b, location⟩) := by
  obtain ⟨elements, others, rfl, rfl⟩ | ⟨members, others, rfl, rfl⟩ | ⟨scalar, scalar'⟩ := h.shape
  · exact .nil
  · have lookup := h.lookup name
    dsimp only [member]
    generalize Members.get? name members = value, Members.get? name others = other at lookup ⊢
    cases lookup with
    | none => exact .nil
    | some same => exact .singleton ⟨rfl, same⟩
  · rw [member_of_isScalar scalar, member_of_isScalar scalar']
    exact .nil

/-- Elements at the same positions are matched in equal arrays. -/
theorem matched_elementsAt (h : EqualKeyed a b) (positions : List Nat)
    : Matched (elementsAt positions ⟨a, location⟩) (elementsAt positions ⟨b, location⟩) := by
  obtain ⟨elements, others, rfl, rfl⟩ | ⟨members, others, rfl, rfl⟩ | ⟨scalar, scalar'⟩ := h.shape
  · have found {position position' : Nat} (same : position = position')
        : Option.Rel (Similar EqualKeyed)
            (elements[position]?.map (⟨·, location ++ [.position position]⟩))
            (others[position']?.map (⟨·, location ++ [.position position']⟩)) := by
      subst same
      have element := Value.getElem?_of_forall₂ h.elements position
      generalize elements[position]? = value, others[position]? = other at element
      cases element with
      | none => exact .none
      | some same => exact .some ⟨rfl, same⟩
    exact .of_forall₂
      (List.rel_filterMap (R := Eq) (fun _ _ => found) (List.forall₂_same.mpr fun _ _ => rfl))
  · exact .nil
  · rw [elementsAt_of_isScalar scalar, elementsAt_of_isScalar scalar']
    exact .nil

/-- Elements that are equal one by one are matched at their positions. -/
theorem matched_ofElements {elements others : List Value}
    (same : List.Forall₂ EqualKeyed elements others) (position : Nat)
    : Matched (ofElements location position elements) (ofElements location position others) := by
  induction same generalizing position with
  | nil => exact .nil
  | cons first _ ih => exact .cons ⟨rfl, first⟩ (ih (position + 1))

/-- The members of equal objects, each with the equal one of the same name. -/
theorem pairs_members {members others : Members} {R : Value → Value → Prop}
    (h : EqualKeyed (.object members) (.object others))
    (related
      : ∀ name value other, (name, value) ∈ members → EqualKeyed value other → R value other)
    : Arrangement.any.Pairs (fun member other => member.1 = other.1 ∧ R member.2 other.2)
        members others :=
  Members.exists_perm_forall₂ h.names_perm fun name value other member otherMember =>
    related name value other member (h.member member otherMember)

/-- The children of equal values are matched, up to the order of members. -/
theorem matched_children (h : EqualKeyed a b)
    : Matched (children ⟨a, location⟩) (children ⟨b, location⟩) := by
  obtain ⟨elements, others, rfl, rfl⟩ | ⟨members, others, rfl, rfl⟩ | ⟨scalar, scalar'⟩ := h.shape
  · exact matched_ofElements h.elements 0
  · have paired := pairs_members h fun _ _ _ _ same => same
    refine paired.map ?_
    rintro ⟨name, value⟩ ⟨_, other⟩ ⟨rfl, same⟩
    exact ⟨rfl, same⟩
  · rw [children_of_isScalar scalar, children_of_isScalar scalar']
    exact .nil

/-- What is below equal elements is matched, by induction on the elements. -/
theorem matched_belowElements {elements others : List Value}
    (same
      : List.Forall₂ (fun a b => ∀ location, Matched (below location a) (below location b))
          elements others)
    (position : Nat)
    : Matched (belowElements location position elements)
        (belowElements location position others) := by
  induction same generalizing position with
  | nil =>
      rw [belowElements]
      exact .nil
  | cons first _ ih =>
      rw [belowElements, belowElements]
      exact (first _).append (ih (position + 1))

/-- What is below equal values is matched, by induction on one of them. -/
theorem matched_below (h : EqualKeyed a b) (location : Location)
    : Matched (below location a) (below location b) := by
  have keyed := h.keyed
  induction keyed generalizing b location with
  | null | bool | number | string =>
      obtain ⟨_, _, ⟨⟩, _⟩ | ⟨_, _, ⟨⟩, _⟩ | ⟨scalar, scalar'⟩ := h.shape
      rw [below_of_isScalar scalar, below_of_isScalar scalar']
      exact .singleton ⟨rfl, h⟩
  | @array elements _ ih =>
      obtain ⟨_, others, ⟨⟩, rfl⟩ | ⟨_, _, ⟨⟩, _⟩ | ⟨⟨⟩, _⟩ := h.shape
      have same := h.elements
      rw [below, below]
      refine .cons ⟨rfl, h⟩ (matched_belowElements ?_ 0)
      refine List.forall₂_iff_zip.mpr ⟨same.length_eq, ?_⟩
      intro element other pair
      exact ih element (List.of_mem_zip pair).1 (List.forall₂_zip same pair)
  | @object members _ _ ih =>
      obtain ⟨_, _, ⟨⟩, _⟩ | ⟨_, others, ⟨⟩, rfl⟩ | ⟨⟨⟩, _⟩ := h.shape
      rw [below, below, belowMembers_eq_flatMap, belowMembers_eq_flatMap]
      refine .cons ⟨rfl, h⟩ ?_
      have paired := pairs_members
        (R := fun a b => ∀ location, Matched (below location a) (below location b)) h
        fun name value other member same => ih (name, value) member same
      refine paired.flatMap ?_
      rintro ⟨name, value⟩ ⟨_, other⟩ ⟨rfl, matched⟩
      exact matched _

end Node

-----------------------------------------------------------------------------------------
-- Equal documents
-----------------------------------------------------------------------------------------

/-- Two evaluations on equal documents, in which no order is kept. -/
def equalDocuments : Likeness :=
  .interchange .any EqualKeyed Eq

/-- Equal values have matched parts, by all the lemmas above. -/
theorem keepsParts_equalDocuments : equalDocuments.KeepsParts := by
  constructor
  all_goals
    rintro ⟨a, location⟩ ⟨b, _⟩ ⟨rfl, same⟩
  · exact Node.size_eq_of_equalKeyed same
  · exact Node.matched_member same
  · exact Node.matched_elementsAt same
  · exact Node.matched_children same
  · rw [Node.descendants_eq_below, Node.descendants_eq_below]
    exact Node.matched_below same _

/-- With no functions registered, a query succeeds on one of two equal documents exactly if it
succeeds on the other, and then finds equal values at the same locations, equally often, in
some order.
-/
theorem Query.find_perm_of_isEqual {document other : Value} (keyed : document.IsKeyed)
    (otherKeyed : other.IsKeyed) (equal : document.isEqual other) (query : Query)
    : ((∃ found, query.find document [] = .ok found) ↔ ∃ found, query.find other [] = .ok found)
      ∧ ∀ found found',
          query.find document [] = .ok found
          → query.find other [] = .ok found'
          → ∃ arranged,
              found.Perm arranged
              ∧ List.Forall₂
                  (fun node node' =>
                    node.location = node'.location ∧ node.value.isEqual node'.value)
                  arranged found' := by
  have same : EqualKeyed document other := ⟨keyed, otherKeyed, equal⟩
  have sim : equalDocuments.Simulates (.of document []) (.of other []) := by
    rw [Context.of_nil, Context.of_nil]
    exact Likeness.simulates_builtins .equal _ keepsParts_equalDocuments
      (fun literals => literals ▸ .same) same
  have similar : Query.Similar Eq True query query :=
    Query.similar_self (fun _ => rfl) query (.inl trivial)
  have related := Likeness.related_apply sim query similar (Likeness.found_start same)
  refine ⟨related.exists_ok_iff, fun found found' first second => ?_⟩
  obtain ⟨arranged, perm, matched⟩ := related.results first second
  exact ⟨arranged, perm, matched.imp fun _ _ same => ⟨same.location, same.value.equal⟩⟩

/-- A document with an integer in front of a truth value. -/
def inOrder : Value :=
  .object [([.char 'a'], .number (.int 1)), ([.char 'b'], .bool true)]

/-- The same document with its members in the other order and a floating point number. -/
def reordered : Value :=
  .object [([.char 'b'], .bool true), ([.char 'a'], .number (.float (.ofDecimal false 1 0)))]

theorem isKeyed_inOrder : inOrder.IsKeyed := by
  refine .object (by simp) fun member isMember => ?_
  rcases List.mem_cons.mp isMember with rfl | isMember
  · exact .number
  · obtain rfl := List.mem_singleton.mp isMember
    exact .bool

theorem isKeyed_reordered : reordered.IsKeyed := by
  refine .object (by simp) fun member isMember => ?_
  rcases List.mem_cons.mp isMember with rfl | isMember
  · exact .bool
  · obtain rfl := List.mem_singleton.mp isMember
    exact .number

/-- The order of members makes no difference to equality. -/
theorem isEqual_reordered : inOrder.isEqual reordered := by
  decide +kernel

/-- The members are found in different orders, and one order can be arranged into the other.
-/
theorem Query.find_perm_reordered
    : ∃ found found' arranged : List Node,
        Query.find [.wildcard] inOrder [] = .ok found
        ∧ Query.find [.wildcard] reordered [] = .ok found'
        ∧ found.map (·.location) = [[.name [.char 'a']], [.name [.char 'b']]]
        ∧ found'.map (·.location) = [[.name [.char 'b']], [.name [.char 'a']]]
        ∧ found.Perm arranged
        ∧ List.Forall₂
            (fun node node' => node.location = node'.location ∧ node.value.isEqual node'.value)
            arranged found' := by
  obtain ⟨_, matched⟩ :=
    Query.find_perm_of_isEqual isKeyed_inOrder isKeyed_reordered isEqual_reordered [.wildcard]
  obtain ⟨arranged, perm, same⟩ := matched _ _ rfl rfl
  exact ⟨_, _, arranged, rfl, rfl, rfl, rfl, perm, same⟩

end JsonPath
