import JsonPath.Function.Registry
import JsonPath.Proofs.Evaluation.Segments
import JsonPath.Proofs.Location.Descent
import JsonPath.Proofs.Value.Documents

/-! Nodes that a query finds are placed: their locations lead from the root of the document
to their values. Selectors only lead to children and descents only to descendants, and the
names in an object are distinct, so that each step leads to one child.
-/

namespace JsonPath

namespace Value

/-- The child that a step leads to. Positions count from the first element on. -/
def child? : Value → Step → Option Value
  | .object members, .name name => Members.get? name members
  | .array elements, .position (.ofNat position) => elements[position]?
  | _, _ => none

/-- The value that a location leads to. -/
def follow? : Location → Value → Option Value
  | [], value => some value
  | step :: location, value => (value.child? step).bind (follow? location)

/-- A location in two parts leads on from where the first part leads. -/
theorem follow?_append (front back : Location) (value : Value)
    : follow? (front ++ back) value = (follow? front value).bind (follow? back) := by
  induction front generalizing value with
  | nil => rfl
  | cons step front ih =>
      rw [List.cons_append, follow?, follow?]
      cases value.child? step with
      | none => rfl
      | some child => exact ih child

/-- A step leads to a member of an object or to an element of an array. -/
theorem part_of_child? {value child : Value} {step : Step}
    (leads : value.child? step = some child)
    : (∃ members name, value = .object members ∧ (name, child) ∈ members)
      ∨ ∃ elements, value = .array elements ∧ child ∈ elements := by
  unfold child? at leads
  split at leads
  next members name => exact .inl ⟨members, name, rfl, Members.mem_of_get? leads⟩
  next elements position => exact .inr ⟨elements, rfl, List.mem_of_getElem? leads⟩
  next => cases leads

/-- The children of a value without repeated names have none. -/
theorem IsKeyed.child {value child : Value} {step : Step} (h : value.IsKeyed)
    (leads : value.child? step = some child)
    : child.IsKeyed := by
  rcases part_of_child? leads with ⟨members, name, rfl, member⟩ | ⟨elements, rfl, member⟩
  · cases h with
    | object _ parts => exact parts _ member
  · cases h with
    | array parts => exact parts _ member

theorem IsDocument.child {value child : Value} {step : Step} (h : value.IsDocument)
    (leads : value.child? step = some child)
    : child.IsDocument := by
  rcases part_of_child? leads with ⟨members, name, rfl, member⟩ | ⟨elements, rfl, member⟩
  · cases h with
    | object _ parts => exact parts _ member
  · cases h with
    | array _ parts => exact parts _ member

/-- No location leads to repeated names that were not there before, by induction on the
location.
-/
theorem IsKeyed.follow {location : Location} {value target : Value} (h : value.IsKeyed)
    (leads : follow? location value = some target)
    : target.IsKeyed := by
  induction location generalizing value with
  | nil =>
      obtain rfl := Option.some.inj leads
      exact h
  | cons step location ih =>
      rw [follow?] at leads
      obtain ⟨child, stepLeads, leads⟩ := Option.bind_eq_some_iff.mp leads
      exact ih (h.child stepLeads) leads

end Value

namespace Node

/-- One step leads from the node to the other one. -/
def IsChild (node other : Node) : Prop :=
  ∃ step, node.value.child? step = some other.value ∧ other.location = node.location ++ [step]

/-- Some steps lead from the node to the other one. -/
def IsBelow (node other : Node) : Prop :=
  ∃ steps, Value.follow? steps node.value = some other.value ∧ other.location = node.location ++ steps

/-- The location of the node leads from the root of the document to its value. -/
def IsPlaced (document : Value) (node : Node) : Prop :=
  document.follow? node.location = some node.value

-----------------------------------------------------------------------------------------
-- Children and descendants
-----------------------------------------------------------------------------------------

variable {document : Value} {node other : Node}

/-- What is below a node of the document is one. -/
theorem IsPlaced.below (placed : node.IsPlaced document) (h : node.IsBelow other)
    : other.IsPlaced document := by
  obtain ⟨steps, leads, located⟩ := h
  rw [IsPlaced, located, Value.follow?_append, placed]
  exact leads

/-- A child is below its parent, one step further. -/
theorem IsChild.isBelow (h : node.IsChild other) : node.IsBelow other := by
  obtain ⟨step, leads, located⟩ := h
  refine ⟨[step], ?_, located⟩
  rw [Value.follow?, leads]
  rfl

/-- A member that is found is a child. -/
theorem isChild_of_member {name : Text} (h : other ∈ node.member name)
    : node.IsChild other := by
  unfold member at h
  split at h
  next members isObject =>
    split at h
    next value found =>
      obtain rfl := List.mem_singleton.mp h
      refine ⟨.name name, ?_, rfl⟩
      rw [isObject]
      exact found
    next => cases h
  next => cases h

theorem isChild_of_elementsAt {positions : List Nat} (h : other ∈ node.elementsAt positions)
    : node.IsChild other := by
  unfold elementsAt at h
  split at h
  next elements isArray =>
    obtain ⟨position, _, found⟩ := List.mem_filterMap.mp h
    obtain ⟨value, isElement, rfl⟩ := Option.map_eq_some_iff.mp found
    refine ⟨.position position, ?_, rfl⟩
    rw [isArray]
    exact isElement
  next => cases h

/-- The element at a position is a child, also when it is counted from the end. -/
theorem isChild_of_element {position : Int} (h : other ∈ node.element position)
    : node.IsChild other := by
  dsimp only [element] at h
  generalize (if position < 0 then position + node.size else position) = fromStart at h
  cases fromStart with
  | ofNat _ => exact isChild_of_elementsAt h
  | negSucc _ => cases h

/-- The nodes of elements have their values and positions, by induction on the elements. -/
theorem mem_ofElements {location : Location} {position : Nat} {values : List Value}
    (h : other ∈ ofElements location position values)
    : ∃ i : Nat,
      values[i]? = some other.value
      ∧ other.location = location ++ [.position (position + i : Nat)] := by
  induction values generalizing position with
  | nil => cases h
  | cons value values ih =>
      rw [ofElements] at h
      rcases List.mem_cons.mp h with rfl | member
      · exact ⟨0, rfl, rfl⟩
      · obtain ⟨i, found, located⟩ := ih member
        refine ⟨i + 1, found, ?_⟩
        rw [located, Nat.add_right_comm, Nat.add_assoc]

/-- Without repeated names, a location leads to each of the children. -/
theorem isChild_of_children (isKeyed : node.value.IsKeyed) (h : other ∈ node.children)
    : node.IsChild other := by
  unfold children at h
  split at h
  next elements isArray =>
    obtain ⟨i, found, located⟩ := mem_ofElements h
    refine ⟨.position i, ?_, ?_⟩
    · rw [isArray]
      exact found
    · simpa using located
  next members isObject =>
    rw [isObject] at isKeyed
    cases isKeyed with
    | object distinct _ =>
        obtain ⟨⟨name, value⟩, member, rfl⟩ := List.mem_map.mp h
        refine ⟨.name name, ?_, rfl⟩
        rw [isObject]
        exact Members.get?_of_mem distinct member
  next => cases h

/-- What is below elements is below one of them. -/
theorem mem_belowElements {location : Location} {position : Nat} {values : List Value}
    (h : other ∈ belowElements location position values)
    : ∃ i value,
      values[i]? = some value
      ∧ other ∈ below (location ++ [.position (position + i : Nat)]) value := by
  induction values generalizing position with
  | nil =>
      rw [belowElements] at h
      cases h
  | cons value values ih =>
      rw [belowElements] at h
      rcases List.mem_append.mp h with first | others
      · exact ⟨0, value, rfl, first⟩
      · obtain ⟨i, found, isElement, member⟩ := ih others
        refine ⟨i + 1, found, isElement, ?_⟩
        rwa [Nat.add_right_comm, Nat.add_assoc] at member

theorem mem_belowMembers {location : Location} {members : Members}
    (h : other ∈ belowMembers location members)
    : ∃ name value,
      (name, value) ∈ members ∧ other ∈ below (location ++ [.name name]) value := by
  induction members with
  | nil =>
      rw [belowMembers] at h
      cases h
  | cons first others ih =>
      obtain ⟨name, value⟩ := first
      rw [belowMembers] at h
      rcases List.mem_append.mp h with inFirst | inOthers
      · exact ⟨name, value, by simp, inFirst⟩
      · obtain ⟨name', value', member, found⟩ := ih inOthers
        exact ⟨name', value', List.mem_cons_of_mem _ member, found⟩

/-- A node is below itself by the empty location. -/
theorem isBelow_self : node.IsBelow node :=
  ⟨[], rfl, by simp⟩

/-- The nodes below a value are reached by steps from it, by induction on the value. -/
theorem isBelow_of_mem_below {value : Value} {location : Location} (isKeyed : value.IsKeyed)
    (h : other ∈ below location value)
    : IsBelow ⟨value, location⟩ other := by
  induction isKeyed generalizing location with
  | array _ ih =>
      rw [below] at h
      rcases List.mem_cons.mp h with rfl | member
      · exact isBelow_self
      · obtain ⟨i, element, found, member⟩ := mem_belowElements member
        obtain ⟨steps, leads, located⟩ := ih element (List.mem_of_getElem? found) member
        refine ⟨.position i :: steps, ?_, ?_⟩
        · have first : Value.child? (.array _) (.position i) = some element := found
          rw [Value.follow?, first]
          exact leads
        · simpa using located
  | object distinct _ ih =>
      rw [below] at h
      rcases List.mem_cons.mp h with rfl | member
      · exact isBelow_self
      · obtain ⟨name, child, found, member⟩ := mem_belowMembers member
        obtain ⟨steps, leads, located⟩ := ih _ found member
        refine ⟨.name name :: steps, ?_, ?_⟩
        · have first : Value.child? (.object _) (.name name) = some child :=
            Members.get?_of_mem distinct found
          rw [Value.follow?, first]
          exact leads
        · simpa using located
  | null | bool | number | string =>
      rw [below] at h
      · obtain rfl := List.mem_singleton.mp h
        exact isBelow_self
      all_goals
        intro _ same
        cases same

/-- Descendants are below the node. -/
theorem isBelow_of_descendants (isKeyed : node.value.IsKeyed)
    (h : other ∈ node.descendants)
    : node.IsBelow other := by
  rw [descendants_eq_below] at h
  exact isBelow_of_mem_below isKeyed h

-----------------------------------------------------------------------------------------
-- Selectors
-----------------------------------------------------------------------------------------

variable {context : Context}

mutual

/-- Selectors only lead to children, by induction on the selector. -/
theorem isChild_of_select (segment : Segment) {node : Node} {found : List Node}
    (isKeyed : node.value.IsKeyed) (h : segment.select context node = .ok found)
    : ∀ other ∈ found, node.IsChild other := by
  cases segment with
  | key name =>
      rw [Segment.select] at h
      obtain rfl := Except.ok.inj h
      exact fun _ => isChild_of_member
  | index position =>
      rw [Segment.select] at h
      obtain rfl := Except.ok.inj h
      exact fun _ => isChild_of_element
  | slice start stop step =>
      rw [Segment.select] at h
      obtain rfl := Except.ok.inj h
      exact fun _ => isChild_of_elementsAt
  | wildcard =>
      rw [Segment.select] at h
      obtain rfl := Except.ok.inj h
      exact fun _ => isChild_of_children isKeyed
  | filter test =>
      rw [Segment.select] at h
      exact fun _ member =>
        isChild_of_children isKeyed ((sublist_of_keep h).subset member)
  | union selectors =>
      rw [Segment.select] at h
      exact isChild_of_selectAll selectors isKeyed h
  | descendants =>
      rw [Segment.select] at h
      cases h

/-- What several selectors select are children, by recursion on the selectors. -/
theorem isChild_of_selectAll (selectors : List Segment) {node : Node} {found : List Node}
    (isKeyed : node.value.IsKeyed) (h : selectAll context selectors node = .ok found)
    : ∀ other ∈ found, node.IsChild other := by
  cases selectors with
  | nil =>
      rw [selectAll] at h
      obtain rfl := Except.ok.inj h
      exact nofun
  | cons selector selectors =>
      simp only [selectAll, Outcome.bind_eq_ok, Outcome.pure_eq_ok] at h
      obtain ⟨first, first_eq, others, others_eq, rfl⟩ := h
      intro other member
      rcases List.mem_append.mp member with inFirst | inOthers
      · exact isChild_of_select selector isKeyed first_eq other inFirst
      · exact isChild_of_selectAll selectors isKeyed others_eq other inOthers

end

/-- Whatever the functions are, segments lead from placed nodes to placed ones. -/
theorem isPlaced_of_apply (isKeyed : document.IsKeyed) {segments : List Segment}
    {nodes found : List Node} (placed : ∀ node ∈ nodes, node.IsPlaced document)
    (h : apply context segments nodes = .ok found)
    : ∀ node ∈ found, node.IsPlaced document := by
  refine forall_of_apply ?_ ?_ placed h
  · intro segment node found placed selected other member
    have isChild := isChild_of_select segment (isKeyed.follow placed) selected other member
    exact placed.below isChild.isBelow
  · intro node placed other member
    exact placed.below (isBelow_of_descendants (isKeyed.follow placed) member)

end Node

/-- The nodes that a query finds are placed. -/
theorem Query.isPlaced_of_find {document : Value} (isDocument : document.IsDocument)
    {query : Query} {registry : Registry} {found : List Node}
    (h : query.find document registry = .ok found)
    : ∀ node ∈ found, node.IsPlaced document := by
  refine Node.isPlaced_of_apply isDocument.isKeyed (fun node member => ?_) h
  obtain rfl := List.mem_singleton.mp member
  rfl

end JsonPath
