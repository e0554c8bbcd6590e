import JsonPath.Evaluation.Node

/-! Descents as a recursion over values. A descent walks a stack of nodes that are left to
take, each with everything below it. What it finds is what the recursion finds from these
nodes one after another, since the children of a node are walked completely before the
nodes that were on the stack below it.
-/

namespace JsonPath.Node

mutual

/-- The value at a location and all values inside it, each in front of its children. -/
def below (location : Location) : Value → List Node
  | .array elements => ⟨.array elements, location⟩ :: belowElements location 0 elements
  | .object members => ⟨.object members, location⟩ :: belowMembers location members
  | value => [⟨value, location⟩]

def belowElements (location : Location) (position : Nat) : List Value → List Node
  | [] => []
  | value :: values =>
    below (location ++ [.position position]) value
      ++ belowElements location (position + 1) values

def belowMembers (location : Location) : Members → List Node
  | [] => []
  | (name, value) :: members =>
    below (location ++ [.name name]) value ++ belowMembers location members

end

-----------------------------------------------------------------------------------------
-- One node
-----------------------------------------------------------------------------------------

/-- What is below elements is what is below each of their nodes, by induction on the elements.
-/
theorem belowElements_eq_flatMap (location : Location) (position : Nat) (elements : List Value)
    : belowElements location position elements
        = (ofElements location position elements).flatMap fun child =>
            below child.location child.value := by
  induction elements generalizing position with
  | nil =>
      rw [belowElements]
      rfl
  | cons element elements ih =>
      rw [belowElements, ofElements, List.flatMap_cons, ih]

/-- What is below members is what is below each of them, by induction on the members. -/
theorem belowMembers_eq_flatMap (location : Location) (members : Members)
    : belowMembers location members
        = members.flatMap fun member => below (location ++ [.name member.1]) member.2 := by
  induction members with
  | nil => simp [belowMembers]
  | cons first members ih => simp [belowMembers, ih]

/-- Below a node are the node and then what is below its children, one after another. -/
theorem below_eq_cons (node : Node)
    : below node.location node.value
        = node :: node.children.flatMap fun child => below child.location child.value := by
  obtain ⟨value, location⟩ := node
  cases value with
  | array elements => rw [below, belowElements_eq_flatMap, children]
  | object members =>
      simp only [below, belowMembers_eq_flatMap, children, ofMembers, List.flatMap_map]
  | null | bool _ | number _ | string _ => simp only [below, children, List.flatMap_nil]

-----------------------------------------------------------------------------------------
-- The stack
-----------------------------------------------------------------------------------------

/-- By induction along the walk: what is on the stack is found one after another. -/
theorem walk_eq_flatMap (stack : List Node)
    : walk stack = stack.flatMap fun node => below node.location node.value := by
  induction stack using walk.induct with
  | case1 =>
      rw [walk]
      rfl
  | case2 node stack ih =>
      rw [walk, ih, List.flatMap_append, List.flatMap_cons, below_eq_cons node,
        List.cons_append]

/-- The descendants are the nodes below the location, as the stack is worked off in their
order.
-/
theorem descendants_eq_below (node : Node)
    : node.descendants = below node.location node.value := by
  rw [descendants, walk_eq_flatMap, List.flatMap_singleton]

end JsonPath.Node
