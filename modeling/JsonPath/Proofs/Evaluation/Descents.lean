import JsonPath.Proofs.Evaluation.Composition
import JsonPath.Proofs.Location.Distinctness

/-! What a descent finds, node by node. A descent from a node takes the node itself and then
goes on from each of its children, so that it takes every node below exactly once. What a
selector finds in a descent is what it finds from the node, followed by what it finds in the
descents from the children.
-/

namespace JsonPath

-----------------------------------------------------------------------------------------
-- The nodes of a descent
-----------------------------------------------------------------------------------------

namespace Node

variable {node other : Node}

/-- The node comes first, then the descendants of each child in turn. -/
theorem descendants_eq_cons (node : Node)
    : node.descendants = node :: node.children.flatMap descendants := by
  simp only [funext descendants_eq_below]
  exact below_eq_cons node

/-- Each element is a node at its position. -/
theorem mem_ofElements_of_getElem? {elements : List Value} {i : Nat} {value : Value}
    (found : elements[i]? = some value) (location : Location) (position : Nat)
    : ⟨value, location ++ [.position (position + i : Nat)]⟩
        ∈ ofElements location position elements := by
  induction elements generalizing i position with
  | nil => cases found
  | cons element elements ih =>
      rw [ofElements]
      cases i with
      | zero =>
          obtain rfl := Option.some.inj found
          exact List.mem_cons_self
      | succ i =>
          have inside := ih found (position + 1)
          rw [Nat.add_right_comm, Nat.add_assoc] at inside
          exact List.mem_cons_of_mem _ inside

/-- What a step leads to is a child. -/
theorem mem_children_of_child? {child : Value} {step : Step}
    (leads : node.value.child? step = some child)
    : ⟨child, node.location ++ [step]⟩ ∈ node.children := by
  obtain ⟨value, location⟩ := node
  cases value with
  | object members =>
      cases step with
      | name name => exact List.mem_map.mpr ⟨(name, child), Members.mem_of_get? leads, rfl⟩
      | position _ => cases leads
  | array elements =>
      cases step with
      | name _ => cases leads
      | position position =>
          cases position with
          | ofNat i =>
              have inside := mem_ofElements_of_getElem? leads location 0
              rwa [Nat.zero_add] at inside
          | negSucc _ => cases leads
  | null | bool _ | number _ | string _ => cases leads

/-- A descent takes every node that some steps lead to, by induction on the steps. -/
theorem mem_descendants_of_follow? {steps : Location} {target : Value}
    (leads : Value.follow? steps node.value = some target)
    : ⟨target, node.location ++ steps⟩ ∈ node.descendants := by
  rw [descendants_eq_cons]
  induction steps generalizing node with
  | nil =>
      obtain rfl := Option.some.inj leads
      rw [List.append_nil]
      exact List.mem_cons_self
  | cons step steps ih =>
      rw [Value.follow?] at leads
      obtain ⟨child, stepLeads, leads⟩ := Option.bind_eq_some_iff.mp leads
      have inside := mem_children_of_child? stepLeads
      let next : Node := ⟨child, node.location ++ [step]⟩
      have below : ⟨target, next.location ++ steps⟩ ∈ next.descendants := by
        rw [descendants_eq_cons]
        exact ih leads
      rw [List.append_assoc, List.singleton_append] at below
      exact List.mem_cons_of_mem _ (List.mem_flatMap.mpr ⟨next, inside, below⟩)

/-- The descendants are exactly the nodes that a location leads to from here. -/
theorem mem_descendants_iff (isKeyed : node.value.IsKeyed)
    : other ∈ node.descendants ↔ node.IsBelow other := by
  constructor
  · exact isBelow_of_descendants isKeyed
  · rintro ⟨steps, leads, located⟩
    have inside := mem_descendants_of_follow? leads
    rwa [← located] at inside

end Node

-----------------------------------------------------------------------------------------
-- Selectors in a descent
-----------------------------------------------------------------------------------------

section Selectors

variable {context : Context} {node : Node} {found : List Node}

/-- A single selector is applied to each of the nodes in turn. -/
theorem apply_selector {selector : Segment} (notDescent : selector.isDescendants = false)
    (nodes : List Node)
    : apply context [selector] nodes = collect (selector.select context) nodes := by
  have done : apply context [] = pure := funext fun nodes => by
    rw [apply]
    rfl
  rw [apply_cons notDescent, done, bind_pure]

/-- Behind a descent, the selector is applied to all descendants in turn. -/
theorem apply_descent {selector : Segment} (notDescent : selector.isDescendants = false)
    (nodes : List Node)
    : apply context [.descendants, selector] nodes
        = collect (selector.select context) (nodes.flatMap Node.descendants) := by
  rw [apply, descend_cons notDescent, ← apply_cons notDescent, apply_selector notDescent]

/-- What a selector finds in a descent is found from the node first, and then in the descents
from its children.
-/
theorem apply_descent_eq_ok (selector : Segment)
    : apply context [.descendants, selector] [node] = .ok found
      ↔ ∃ first, apply context [selector] [node] = .ok first
          ∧ ∃ parts,
              List.Forall₂
                (fun child part => apply context [.descendants, selector] [child] = .ok part)
                node.children parts
              ∧ found = first ++ parts.flatten := by
  cases isDescent : selector.isDescendants with
  | true =>
      obtain rfl := Segment.eq_descendants isDescent
      constructor
      · intro h
        rw [apply, descend] at h
        cases h
      · rintro ⟨_, h, _⟩
        rw [apply, descend] at h
        cases h
  | false =>
      have linear := IsLinear.collect (selector.select context)
      rw [apply_descent isDescent, List.flatMap_singleton, Node.descendants_eq_cons,
        ← List.singleton_append, linear.append, apply_selector isDescent]
      simp only [apply_descent isDescent]
      have byChild := linear.flatMap Node.descendants
      constructor
      · rintro ⟨first, _, first_eq, others_eq, rfl⟩
        obtain ⟨parts, forall₂, rfl⟩ := byChild.eq_ok_iff.mp others_eq
        exact ⟨first, first_eq, parts, forall₂, rfl⟩
      · rintro ⟨first, first_eq, parts, forall₂, rfl⟩
        exact ⟨first, _, first_eq, byChild.eq_ok_iff.mpr ⟨parts, forall₂, rfl⟩, rfl⟩

end Selectors

-----------------------------------------------------------------------------------------
-- All nodes of a document
-----------------------------------------------------------------------------------------

/-- Collecting what never fails is joining the results. -/
theorem collect_of_ok {α β ε : Type} {results : α → Except ε (List β)} {found : α → List β}
    (eq_ok : ∀ item, results item = .ok (found item)) (items : List α)
    : collect results items = .ok (items.flatMap found) := by
  induction items with
  | nil => rfl
  | cons item items ih =>
      rw [collect, eq_ok, ih]
      rfl

/-- The children of all nodes of a document. -/
theorem Query.find_descent_wildcard (document : Value) (registry : Registry)
    : Query.find [.descendants, .wildcard] document registry
        = .ok ((Node.descendants ⟨document, []⟩).flatMap Node.children) := by
  rw [find, apply_descent rfl, List.flatMap_singleton]
  exact collect_of_ok (fun node => by rw [Segment.select]) _

/-- The locations of all children are those that lead somewhere but the empty one: the last
step of a location leads to a child of what is in front of it.
-/
theorem mem_locations_iff {document : Value} (isKeyed : document.IsKeyed) (location : Location)
    : location ∈ ((Node.descendants ⟨document, []⟩).flatMap Node.children).map (·.location)
      ↔ location ≠ [] ∧ (document.follow? location).isSome := by
  simp only [List.mem_map, List.mem_flatMap]
  constructor
  · rintro ⟨child, ⟨node, inside, isPart⟩, rfl⟩
    have root : Node.IsPlaced document ⟨document, []⟩ := rfl
    have placed := root.below (Node.isBelow_of_descendants isKeyed inside)
    have isChild := Node.isChild_of_children (isKeyed.follow placed) isPart
    have childPlaced := placed.below isChild.isBelow
    obtain ⟨step, _, located⟩ := isChild
    rw [Node.IsPlaced] at childPlaced
    rw [childPlaced, located]
    simp
  · rintro ⟨notRoot, leads⟩
    obtain ⟨target, leads⟩ := Option.isSome_iff_exists.mp leads
    obtain ⟨front, step, rfl⟩ := (List.eq_nil_or_concat location).resolve_left notRoot
    rw [List.concat_eq_append] at leads ⊢
    rw [Value.follow?_append, Option.bind_eq_some_iff] at leads
    obtain ⟨parent, frontLeads, leads⟩ := leads
    rw [Value.follow?, Option.bind_eq_some_iff] at leads
    obtain ⟨child, stepLeads, _⟩ := leads
    let node : Node := ⟨parent, front⟩
    have inside : node ∈ Node.descendants ⟨document, []⟩ :=
      Node.mem_descendants_of_follow? frontLeads
    have isPart : ⟨child, front ++ [step]⟩ ∈ node.children := Node.mem_children_of_child? stepLeads
    exact ⟨_, ⟨node, inside, isPart⟩, rfl⟩

/-- No location is that of two descendants, as member names are not repeated. -/
theorem nodup_locations {document : Value} (isKeyed : document.IsKeyed)
    : (((Node.descendants ⟨document, []⟩).flatMap Node.children).map (·.location)).Nodup := by
  have root : Node.Scattered [⟨document, []⟩] := by
    refine ⟨Node.distinct_singleton _, fun node member => ?_⟩
    obtain rfl := List.mem_singleton.mp member
    exact isKeyed
  have level : Node.IsLevel 0 [⟨document, []⟩] := by
    intro node member
    obtain rfl := List.mem_singleton.mp member
    rfl
  have scattered := root.apply_of_level (by simp [Segment.isUnion]) (by decide) level
    (Query.find_descent_wildcard document [])
  exact scattered.distinct

/-- A descent from a node is a recursion in front of its children: it takes the node and goes
on from each child in order. It takes the nodes below the node, and each of them once. What a
selector finds in it is what it finds from the node, and then what it finds in the descents
from the children, if nothing fails; what it finds from the root of a document alone comes
first. The children in a descent from the root are at all locations but that of the root, and
each of them is found once.
-/
theorem Query.find_descent {node : Node} (keyed : node.value.IsKeyed) {document : Value}
    (isKeyed : document.IsKeyed) (registry : Registry) (selector : Segment)
    : (node.descendants = Node.below node.location node.value
        ∧ node.descendants = node :: node.children.flatMap Node.descendants)
      ∧ ((node.descendants.map (·.location)).Nodup
        ∧ ∀ other, other ∈ node.descendants ↔ node.IsBelow other)
      ∧ (∀ found,
          apply (.of document registry) [.descendants, selector] [node] = .ok found
          ↔ ∃ first, apply (.of document registry) [selector] [node] = .ok first
              ∧ ∃ parts,
                  List.Forall₂
                    (fun child part =>
                      apply (.of document registry) [.descendants, selector] [child] = .ok part)
                    node.children parts
                  ∧ found = first ++ parts.flatten)
      ∧ (∀ found,
          Query.find [.descendants, selector] document registry = .ok found
          → ∃ first, Query.find [selector] document registry = .ok first ∧ first <+: found)
      ∧ ∃ found, Query.find [.descendants, .wildcard] document registry = .ok found
          ∧ (found.map (·.location)).Nodup
          ∧ ∀ location,
              location ∈ found.map (·.location)
              ↔ location ≠ [] ∧ (document.follow? location).isSome := by
  refine ⟨⟨node.descendants_eq_below, node.descendants_eq_cons⟩, ?_, ?_, ?_, ?_⟩
  · exact ⟨Node.distinct_of_isKeyed keyed, fun other => Node.mem_descendants_iff keyed⟩
  · exact fun found => apply_descent_eq_ok selector
  · intro found h
    obtain ⟨first, first_eq, parts, _, rfl⟩ := (apply_descent_eq_ok selector).mp h
    exact ⟨first, first_eq, List.prefix_append first _⟩
  · exact ⟨_, find_descent_wildcard document registry, nodup_locations isKeyed,
      mem_locations_iff isKeyed⟩

/-- All elements at both levels of an array, those of the outer one first, and the walk over
the array as a member of something else.
-/
theorem Query.find_descent_layered
    : layered.IsKeyed
      ∧ Query.find [.descendants, .wildcard] layered []
          = .ok [⟨.array [.null], [.position 0]⟩, ⟨.bool true, [.position 1]⟩,
            ⟨.null, [.position 0, .position 0]⟩]
      ∧ (∃ first, Query.find [.wildcard] layered [] = .ok first
          ∧ first <+: [⟨.array [.null], [.position 0]⟩, ⟨.bool true, [.position 1]⟩,
            ⟨.null, [.position 0, .position 0]⟩])
      ∧ Node.descendants ⟨layered, [.name [.char 'a']]⟩
          = [⟨layered, [.name [.char 'a']]⟩,
            ⟨.array [.null], [.name [.char 'a'], .position 0]⟩,
            ⟨.null, [.name [.char 'a'], .position 0, .position 0]⟩,
            ⟨.bool true, [.name [.char 'a'], .position 1]⟩] := by
  have all : Query.find [.descendants, .wildcard] layered []
      = .ok [⟨.array [.null], [.position 0]⟩, ⟨.bool true, [.position 1]⟩,
        ⟨.null, [.position 0, .position 0]⟩] :=
    rfl
  let node : Node := ⟨layered, [.name [.char 'a']]⟩
  have keyed : node.value.IsKeyed := isKeyed_layered
  have ⟨⟨walk, _⟩, _, _, start, _⟩ := find_descent keyed isKeyed_layered [] .wildcard
  exact ⟨isKeyed_layered, all, start _ all, walk⟩

end JsonPath
