import JsonPath.Proofs.Evaluation.Segments
import JsonPath.Proofs.Location.Descent

/-! Nodes under another location. Evaluation extends locations and never looks at them: from
nodes under a location, segments lead to the nodes that they lead to from the same nodes
elsewhere, under that location.
-/

namespace JsonPath

/-- The node with another location in front of its own. -/
def Node.under (location : Location) (node : Node) : Node :=
  ⟨node.value, location ++ node.location⟩

-----------------------------------------------------------------------------------------
-- Moved items
-----------------------------------------------------------------------------------------

section Lists

variable {α β ε : Type}

/-- From moved items, moved results are collected. -/
theorem collect_map {results : α → Except ε (List β)} {move : α → α} {moveResult : β → β}
    (moved : ∀ item, results (move item) = List.map moveResult <$> results item)
    (items : List α)
    : collect results (items.map move) = List.map moveResult <$> collect results items := by
  induction items with
  | nil => rfl
  | cons item items ih =>
      rw [List.map_cons, collect, collect, moved, ih]
      cases results item with
      | error _ => rfl
      | ok first =>
          cases collect results items with
          | error _ => rfl
          | ok others => exact congrArg Except.ok List.map_append.symm

/-- Of moved items, those are kept that are kept elsewhere. -/
theorem keep_map {test : α → Except ε Bool} (move : α → α)
    (moved : ∀ item, test (move item) = test item) (items : List α)
    : keep test (items.map move) = List.map move <$> keep test items := by
  induction items with
  | nil => rfl
  | cons item items ih =>
      rw [List.map_cons, keep, keep, moved, ih]
      cases test item with
      | error _ => rfl
      | ok isKept =>
          cases keep test items with
          | error _ => rfl
          | ok others => cases isKept <;> rfl

end Lists

-----------------------------------------------------------------------------------------
-- Parts of nodes
-----------------------------------------------------------------------------------------

namespace Node

variable (location : Location)

@[simp] theorem size_under (node : Node) : (node.under location).size = node.size :=
  rfl

/-- A member of a shifted node is the shifted member. -/
theorem member_under (name : Text) (node : Node)
    : (node.under location).member name = (node.member name).map (under location) := by
  obtain ⟨value, inner⟩ := node
  cases value with
  | object members =>
      dsimp only [member, under]
      cases Members.get? name members with
      | none => rfl
      | some _ => simp [under]
  | _ => rfl

theorem elementsAt_under (positions : List Nat) (node : Node)
    : (node.under location).elementsAt positions
        = (node.elementsAt positions).map (under location) := by
  obtain ⟨value, inner⟩ := node
  cases value with
  | array elements =>
      simp only [elementsAt, under, List.map_filterMap, Option.map_map, Function.comp_def,
        List.append_assoc]
  | _ => rfl

/-- The element at a position is shifted with its node. -/
theorem element_under (position : Int) (node : Node)
    : (node.under location).element position = (node.element position).map (under location) := by
  dsimp only [element]
  rw [size_under]
  generalize (if position < 0 then position + node.size else position) = fromStart
  cases fromStart with
  | ofNat n => exact elementsAt_under location [n] node
  | negSucc _ => rfl

/-- The nodes of elements are shifted with their location, by induction on the elements. -/
theorem ofElements_append (inner : Location) (position : Nat) (elements : List Value)
    : ofElements (location ++ inner) position elements
        = (ofElements inner position elements).map (under location) := by
  induction elements generalizing position with
  | nil => rfl
  | cons element elements ih =>
      simp only [ofElements, List.map_cons, ih, under, List.append_assoc]

/-- The children of a shifted node are shifted. -/
theorem children_under (node : Node)
    : (node.under location).children = node.children.map (under location) := by
  obtain ⟨value, inner⟩ := node
  cases value with
  | array elements => exact ofElements_append location inner 0 elements
  | object members =>
      simp only [children, under, ofMembers, List.map_map, Function.comp_def, List.append_assoc]
  | _ => rfl

mutual

/-- What is below a location is shifted with it, by recursion on the value. -/
theorem below_append (inner : Location) (value : Value)
    : below (location ++ inner) value = (below inner value).map (under location) := by
  cases value with
  | array elements =>
      rw [below, below, List.map_cons, belowElements_append inner 0 elements]
      rfl
  | object members =>
      rw [below, below, List.map_cons, belowMembers_append inner members]
      rfl
  | null | bool _ | number _ | string _ => simp only [below, List.map_cons, List.map_nil, under]
termination_by structural value

/-- What is below elements is shifted with their location. -/
theorem belowElements_append (inner : Location) (position : Nat) (elements : List Value)
    : belowElements (location ++ inner) position elements
        = (belowElements inner position elements).map (under location) := by
  cases elements with
  | nil => simp only [belowElements, List.map_nil]
  | cons element elements =>
      rw [belowElements, belowElements, List.map_append, List.append_assoc,
        below_append (inner ++ [Step.position position]) element,
        belowElements_append inner (position + 1) elements]
termination_by structural elements

theorem belowMembers_append (inner : Location) (members : Members)
    : belowMembers (location ++ inner) members
        = (belowMembers inner members).map (under location) := by
  cases members with
  | nil => simp only [belowMembers, List.map_nil]
  | cons member members =>
      obtain ⟨name, value⟩ := member
      rw [belowMembers, belowMembers, List.map_append, List.append_assoc,
        below_append (inner ++ [Step.name name]) value, belowMembers_append inner members]
termination_by structural members

end

/-- The descendants of a shifted node are shifted. -/
theorem descendants_under (node : Node)
    : (node.under location).descendants = node.descendants.map (under location) := by
  rw [descendants_eq_below, descendants_eq_below]
  exact below_append location node.location node.value

end Node

-----------------------------------------------------------------------------------------
-- Evaluation
-----------------------------------------------------------------------------------------

section Evaluation

variable {context : Context} (location : Location)

mutual

/-- A selector selects from a shifted node what it selects without the shift, shifted. -/
theorem Segment.select_under (segment : Segment) (node : Node)
    : segment.select context (node.under location)
        = List.map (Node.under location) <$> segment.select context node := by
  cases segment with
  | key name =>
      rw [Segment.select, Segment.select, Node.member_under]
      rfl
  | index position =>
      rw [Segment.select, Segment.select, Node.element_under]
      rfl
  | slice start stop step =>
      rw [Segment.select, Segment.select, Node.elementsAt_under, Node.size_under]
      rfl
  | wildcard =>
      rw [Segment.select, Segment.select, Node.children_under]
      rfl
  | filter test =>
      rw [Segment.select, Segment.select, Node.children_under]
      exact keep_map (Node.under location) (fun _ => rfl) node.children
  | union selectors =>
      rw [Segment.select, Segment.select]
      exact selectAll_under selectors node
  | descendants =>
      rw [Segment.select, Segment.select]
      rfl
termination_by structural segment

theorem selectAll_under (selectors : List Segment) (node : Node)
    : selectAll context selectors (node.under location)
        = List.map (Node.under location) <$> selectAll context selectors node := by
  cases selectors with
  | nil =>
      rw [selectAll, selectAll]
      rfl
  | cons selector selectors =>
      rw [selectAll, selectAll, selector.select_under node, selectAll_under selectors node]
      cases selector.select context node with
      | error _ => rfl
      | ok first =>
          cases selectAll context selectors node with
          | error _ => rfl
          | ok others => exact congrArg Except.ok List.map_append.symm
termination_by structural selectors

end

/-- Segments find the same below shifted nodes, shifted, by induction on the segments. -/
theorem apply_or_descend_under (segments : List Segment) (nodes : List Node)
    : apply context segments (nodes.map (Node.under location))
          = List.map (Node.under location) <$> apply context segments nodes
      ∧ descend context segments (nodes.map (Node.under location))
          = List.map (Node.under location) <$> descend context segments nodes := by
  induction segments generalizing nodes with
  | nil =>
      rw [apply, apply, descend, descend]
      exact ⟨rfl, rfl⟩
  | cons segment segments ih =>
      cases isDescent : segment.isDescendants with
      | true =>
          obtain rfl := Segment.eq_descendants isDescent
          rw [apply, apply, descend, descend]
          exact ⟨(ih nodes).2, rfl⟩
      | false =>
          have selected (nodes : List Node)
              : collect (segment.select context) (nodes.map (Node.under location))
                  >>= apply context segments
                = List.map (Node.under location)
                    <$> (collect (segment.select context) nodes >>= apply context segments) := by
            rw [collect_map (segment.select_under location)]
            cases collect (segment.select context) nodes with
            | error _ => rfl
            | ok found => exact (ih found).1
          have descendants
              : (nodes.map (Node.under location)).flatMap Node.descendants
                = (nodes.flatMap Node.descendants).map (Node.under location) := by
            simp only [List.flatMap_map, List.map_flatMap, Node.descendants_under]
          rw [apply_cons isDescent, apply_cons isDescent, descend_cons isDescent,
            descend_cons isDescent, descendants]
          exact ⟨selected nodes, selected _⟩

/-- From nodes under a location, segments lead to nodes under that location. -/
theorem apply_under (segments : List Segment) (nodes : List Node)
    : apply context segments (nodes.map (Node.under location))
        = List.map (Node.under location) <$> apply context segments nodes :=
  (apply_or_descend_under location segments nodes).1

end Evaluation

end JsonPath
