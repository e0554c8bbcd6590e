import JsonPath.Proofs.Evaluation.SliceTraversal
import JsonPath.Proofs.Location.Distinctness
import Mathlib.Data.List.Lex

/-! Document order: of two locations that part, the one comes first that leads to the earlier
child where they part. The members of an object are in the order in which they stand there,
whatever their names are. Selectors that take the children of a node in order keep nodes of
one level in document order, since none of these nodes is above another.
-/

namespace JsonPath

/-- A selector that selects children of a node in their order. -/
def Segment.isForward : Segment → Bool
  | key _ | index _ | wildcard | filter _ => true
  | slice _ _ step => 0 ≤ step
  | union _ | descendants => false

namespace Value

/-- The number of children in front of the one that a step leads to. -/
def place : Value → Step → Nat
  | .object members, .name name => (members.map Prod.fst).idxOf name
  | .array _, .position position => position.toNat
  | _, _ => 0

/-- The places of the steps of a location, when it leads to a value. -/
def places? : Location → Value → Option (List Nat)
  | [], _ => some []
  | step :: location, value => do
    let child ← value.child? step
    let places ← places? location child
    return value.place step :: places

/-- Both locations lead to values, and the first one comes first in document order. -/
def Precedes (document : Value) (location location' : Location) : Prop :=
  ∃ places places',
    document.places? location = some places
    ∧ document.places? location' = some places'
    ∧ places < places'

-----------------------------------------------------------------------------------------
-- One more step
-----------------------------------------------------------------------------------------

/-- There is a place for each step of a location. -/
theorem length_of_places? {location : Location} {value : Value} {places : List Nat}
    (h : value.places? location = some places)
    : places.length = location.length := by
  induction location generalizing value places with
  | nil =>
      obtain rfl := Option.some.inj h
      rfl
  | cons step location ih =>
      rw [places?] at h
      obtain ⟨child, _, h⟩ := Option.bind_eq_some_iff.mp h
      obtain ⟨others, others_eq, h⟩ := Option.bind_eq_some_iff.mp h
      obtain rfl := Option.some.inj h
      rw [List.length_cons, List.length_cons, ih others_eq]

/-- A location that leads somewhere has its places, by induction on the location. -/
theorem exists_places {location : Location} {value target : Value}
    (leads : value.follow? location = some target)
    : ∃ places, value.places? location = some places := by
  induction location generalizing value with
  | nil => exact ⟨[], rfl⟩
  | cons step location ih =>
      rw [follow?] at leads
      obtain ⟨child, stepLeads, leads⟩ := Option.bind_eq_some_iff.mp leads
      obtain ⟨places, found⟩ := ih leads
      exact ⟨value.place step :: places, by simp [places?, stepLeads, found]⟩

/-- A step behind a location adds its place to the others. -/
theorem places?_step {location : Location} {value target child : Value} {step : Step}
    {places : List Nat} (leads : value.follow? location = some target)
    (found : value.places? location = some places) (stepLeads : target.child? step = some child)
    : value.places? (location ++ [step]) = some (places ++ [target.place step]) := by
  induction location generalizing value places with
  | nil =>
      obtain rfl := Option.some.inj leads
      obtain rfl := Option.some.inj found
      simp [places?, stepLeads]
  | cons first location ih =>
      rw [follow?] at leads
      obtain ⟨next, firstLeads, leads⟩ := Option.bind_eq_some_iff.mp leads
      obtain ⟨others, others_eq⟩ := exists_places leads
      obtain rfl : value.place first :: others = places := by
        simpa [places?, firstLeads, others_eq] using found
      simp [places?, firstLeads, ih leads others_eq]

/-- What follows lists of the same length does not change their order. -/
theorem lex_append {places places' : List Nat} (h : List.Lex (· < ·) places places')
    (sameLength : places.length = places'.length) (others others' : List Nat)
    : List.Lex (· < ·) (places ++ others) (places' ++ others') := by
  induction h with
  | nil => cases sameLength
  | rel earlier => exact .rel earlier
  | cons _ ih => exact .cons (ih (Nat.succ.inj sameLength))

end Value

namespace Node

variable {document : Value} {node node' other other' : Node} {found : List Node}

/-- The two nodes are children of the first one, in this order. -/
def AreOrdered (node other other' : Node) : Prop :=
  ∃ step step',
    other.location = node.location ++ [step]
    ∧ other'.location = node.location ++ [step']
    ∧ node.value.place step < node.value.place step'

/-- Children of one node in their order are in document order. -/
theorem AreOrdered.precedes (placed : node.IsPlaced document) (h : node.AreOrdered other other')
    (isChild : node.IsChild other) (isChild' : node.IsChild other')
    : document.Precedes other.location other'.location := by
  obtain ⟨step, step', located, located', earlier⟩ := h
  obtain ⟨_, leads, located₁⟩ := isChild
  obtain ⟨_, leads', located₂⟩ := isChild'
  obtain ⟨rfl⟩ := List.append_cancel_left (located.symm.trans located₁)
  obtain ⟨rfl⟩ := List.append_cancel_left (located'.symm.trans located₂)
  obtain ⟨places, places_eq⟩ := Value.exists_places placed
  rw [located, located']
  refine ⟨_, _, Value.places?_step placed places_eq leads,
    Value.places?_step placed places_eq leads', ?_⟩
  exact List.Lex.append_left _ (.rel earlier) places

/-- Children of different nodes at one level are in the order of their parents. -/
theorem precedes_of_parents (placed : node.IsPlaced document) (placed' : node'.IsPlaced document)
    (sameLevel : node.location.length = node'.location.length)
    (h : document.Precedes node.location node'.location) (isChild : node.IsChild other)
    (isChild' : node'.IsChild other')
    : document.Precedes other.location other'.location := by
  obtain ⟨places, places', places_eq, places'_eq, earlier⟩ := h
  obtain ⟨step, leads, located⟩ := isChild
  obtain ⟨step', leads', located'⟩ := isChild'
  rw [located, located']
  refine ⟨_, _, Value.places?_step placed places_eq leads,
    Value.places?_step placed' places'_eq leads', ?_⟩
  refine Value.lex_append earlier ?_ _ _
  rw [Value.length_of_places? places_eq, Value.length_of_places? places'_eq, sameLevel]

-----------------------------------------------------------------------------------------
-- Children
-----------------------------------------------------------------------------------------

theorem pairwise_member (name : Text) (node : Node)
    : (node.member name).Pairwise node.AreOrdered := by
  unfold member
  split
  next =>
    split
    next => exact List.pairwise_singleton _ _
    next => exact .nil
  next => exact .nil

/-- Elements at ascending positions are ordered. -/
theorem pairwise_elementsAt {positions : List Nat} (ascending : positions.Pairwise (· < ·))
    (node : Node)
    : (node.elementsAt positions).Pairwise node.AreOrdered := by
  unfold elementsAt
  split
  next elements isArray =>
    refine List.Pairwise.filterMap _ ?_ ascending
    intro position position' earlier other found other' found'
    obtain ⟨_, _, rfl⟩ := Option.map_eq_some_iff.mp found
    obtain ⟨_, _, rfl⟩ := Option.map_eq_some_iff.mp found'
    refine ⟨_, _, rfl, rfl, ?_⟩
    simpa [isArray, Value.place] using earlier
  next => exact .nil

theorem pairwise_element (position : Int) (node : Node)
    : (node.element position).Pairwise node.AreOrdered := by
  dsimp only [element]
  generalize (if position < 0 then position + node.size else position) = fromStart
  cases fromStart with
  | ofNat n => exact pairwise_elementsAt (List.pairwise_singleton _ n) node
  | negSucc _ => exact .nil

/-- Elements are ordered by their positions, by induction on the elements. -/
theorem pairwise_ofElements {elements : List Value} (isArray : node.value = .array elements)
    (position : Nat) (values : List Value)
    : (ofElements node.location position values).Pairwise node.AreOrdered := by
  induction values generalizing position with
  | nil => exact .nil
  | cons value values ih =>
      refine .cons (fun other member => ?_) (ih (position + 1))
      obtain ⟨i, _, located⟩ := mem_ofElements member
      refine ⟨_, _, rfl, located, ?_⟩
      simp only [isArray, Value.place]
      omega

/-- The places of distinct names in their order. -/
theorem pairwise_idxOf {names : List Text} (distinct : names.Nodup)
    : names.Pairwise fun name name' => names.idxOf name < names.idxOf name' := by
  rw [List.pairwise_iff_getElem]
  intro i j inside inside' earlier
  rwa [distinct.idxOf_getElem, distinct.idxOf_getElem]

/-- Members are ordered by their places in the object. -/
theorem pairwise_ofMembers {members : Members} (isObject : node.value = .object members)
    (distinct : (members.map Prod.fst).Nodup)
    : (ofMembers node.location members).Pairwise node.AreOrdered := by
  have places := pairwise_idxOf distinct
  rw [List.pairwise_map] at places
  rw [ofMembers, List.pairwise_map]
  refine places.imp fun {member member'} earlier => ⟨_, _, rfl, rfl, ?_⟩
  rw [isObject]
  exact earlier

/-- Children are ordered as the document has them. -/
theorem pairwise_children (isKeyed : node.value.IsKeyed)
    : node.children.Pairwise node.AreOrdered := by
  unfold children
  split
  next isArray => exact pairwise_ofElements isArray 0 _
  next members isObject =>
    rw [isObject] at isKeyed
    cases isKeyed with
    | object distinct _ => exact pairwise_ofMembers isObject distinct
  next => exact .nil

/-- A forward selector selects children of a node in their order. -/
theorem pairwise_of_select {context : Context} {segment : Segment}
    (forward : segment.isForward) (isKeyed : node.value.IsKeyed)
    (h : segment.select context node = .ok found)
    : found.Pairwise node.AreOrdered := by
  cases segment with
  | key name =>
      rw [Segment.select] at h
      obtain rfl := Except.ok.inj h
      exact pairwise_member name node
  | index position =>
      rw [Segment.select] at h
      obtain rfl := Except.ok.inj h
      exact pairwise_element position node
  | slice start stop step =>
      rw [Segment.select] at h
      obtain rfl := Except.ok.inj h
      refine pairwise_elementsAt ?_ node
      rcases (of_decide_eq_true forward : 0 ≤ step).eq_or_lt with rfl | positive
      · rw [Slice.indices_zero]
        exact .nil
      · simpa [positive] using Slice.pairwise_indices node.size start stop step
  | wildcard =>
      rw [Segment.select] at h
      obtain rfl := Except.ok.inj h
      exact pairwise_children isKeyed
  | filter test =>
      rw [Segment.select] at h
      exact (pairwise_children isKeyed).sublist (sublist_of_keep h)
  | union _ | descendants => cases forward

-----------------------------------------------------------------------------------------
-- Evaluation
-----------------------------------------------------------------------------------------

/-- Nodes of a document at one level, in document order. -/
structure Ascending (document : Value) (depth : Nat) (nodes : List Node) : Prop where
  placed : ∀ node ∈ nodes, node.IsPlaced document
  level : IsLevel depth nodes
  ordered : nodes.Pairwise fun node other => document.Precedes node.location other.location

namespace Ascending

variable {depth : Nat} {nodes : List Node} {context : Context} {segment : Segment}
  {segments : List Segment}

/-- The run starts at the root, in order. -/
theorem start (document : Value) : Ascending document 0 [⟨document, []⟩] := by
  refine ⟨fun node member => ?_, fun node member => ?_, List.pairwise_singleton _ _⟩
  · obtain rfl := List.mem_singleton.mp member
    rfl
  · obtain rfl := List.mem_singleton.mp member
    rfl

theorem tail (h : Ascending document depth (node :: nodes)) : Ascending document depth nodes where
  placed other member := h.placed other (List.mem_cons_of_mem node member)
  level other member := h.level other (List.mem_cons_of_mem node member)
  ordered := h.ordered.of_cons

variable (isKeyed : document.IsKeyed)

include isKeyed

/-- What is selected are children of the nodes. -/
theorem isChild_of_collect (h : Ascending document depth nodes)
    (selected : JsonPath.collect (segment.select context) nodes = .ok found)
    : ∀ other ∈ found, ∃ node ∈ nodes, node.IsChild other := by
  intro other member
  obtain ⟨node, inNodes, _, select_eq, inside⟩ := mem_of_collect selected member
  have keyed := isKeyed.follow (h.placed node inNodes)
  exact ⟨node, inNodes, isChild_of_select segment keyed select_eq other inside⟩

/-- What a forward selector selects from ascending nodes is in the order of the document. -/
theorem ordered_of_collect (forward : segment.isForward) (h : Ascending document depth nodes)
    (selected : JsonPath.collect (segment.select context) nodes = .ok found)
    : found.Pairwise fun node other => document.Precedes node.location other.location := by
  induction nodes generalizing found with
  | nil =>
      obtain rfl := Except.ok.inj selected
      exact .nil
  | cons node nodes ih =>
      simp only [collect, Outcome.bind_eq_ok, Outcome.pure_eq_ok] at selected
      obtain ⟨first, first_eq, others, others_eq, rfl⟩ := selected
      have placed := h.placed node (by simp)
      have keyed := isKeyed.follow placed
      have isChild := isChild_of_select segment keyed first_eq
      refine List.pairwise_append.mpr ⟨?_, ih h.tail others_eq, ?_⟩
      · refine (pairwise_of_select forward keyed first_eq).imp_of_mem ?_
        intro other other' inFirst inFirst' ordered
        exact ordered.precedes placed (isChild other inFirst) (isChild other' inFirst')
      · intro other inFirst other' inOthers
        obtain ⟨node', member, isChild'⟩ :=
          isChild_of_collect isKeyed h.tail others_eq other' inOthers
        refine precedes_of_parents placed (h.tail.placed node' member) ?_
          (List.rel_of_pairwise_cons h.ordered member) (isChild other inFirst) isChild'
        rw [h.level node (by simp), h.tail.level node' member]

/-- A forward selector leads from one level in document order to the next. -/
theorem collect (forward : segment.isForward) (h : Ascending document depth nodes)
    (selected : JsonPath.collect (segment.select context) nodes = .ok found)
    : Ascending document (depth + 1) found where
  placed other member := by
    obtain ⟨node, inNodes, isChild⟩ := isChild_of_collect isKeyed h selected other member
    exact (h.placed node inNodes).below isChild.isBelow
  level other member := by
    obtain ⟨node, inNodes, _, _, located⟩ := isChild_of_collect isKeyed h selected other member
    rw [located, List.length_append, h.level node inNodes]
    rfl
  ordered := ordered_of_collect isKeyed forward h selected

/-- Each forward selector leads one level down. -/
theorem apply (forward : ∀ segment ∈ segments, segment.isForward)
    (h : Ascending document depth nodes)
    (applied : JsonPath.apply context segments nodes = .ok found)
    : Ascending document (depth + segments.length) found := by
  induction segments generalizing nodes depth with
  | nil =>
      rw [JsonPath.apply] at applied
      obtain rfl := Except.ok.inj applied
      exact h
  | cons segment segments ih =>
      rw [List.forall_mem_cons] at forward
      have notDescent : segment.isDescendants = false := by
        cases segment with
        | descendants => cases forward.1
        | _ => rfl
      rw [apply_cons notDescent, Outcome.bind_eq_ok] at applied
      obtain ⟨selected, selected_eq, applied⟩ := applied
      have next := ih forward.2 (h.collect isKeyed forward.1 selected_eq) applied
      rwa [List.length_cons, ← Nat.add_assoc, Nat.add_right_comm]

end Ascending

end Node

/-- A query of forward selectors finds nodes as many steps below the root as it has
segments, strictly ascending in document order.
-/
theorem Query.ascending_of_find {document : Value} (isKeyed : document.IsKeyed) {query : Query}
    (forward : ∀ segment ∈ query, segment.isForward) {registry : Registry} {found : List Node}
    (h : query.find document registry = .ok found)
    : (∀ node ∈ found, node.location.length = query.length)
      ∧ (found.map (·.location)).Pairwise document.Precedes := by
  have ascending := (Node.Ascending.start document).apply isKeyed forward h
  rw [Nat.zero_add] at ascending
  exact ⟨ascending.level, List.pairwise_map.mpr ascending.ordered⟩

/-- An object whose members are not in the order of their names. -/
def unsorted : Value :=
  .object [([.char 'b'], .array [.bool true, .null]), ([.char 'a'], .array [.bool false])]

theorem isKeyed_unsorted : unsorted.IsKeyed := by
  refine .object (by decide) fun member isMember => ?_
  rcases List.mem_cons.mp isMember with rfl | isMember
  · refine .array fun element isElement => ?_
    rcases List.mem_cons.mp isElement with rfl | isElement
    · exact .bool
    · obtain rfl := List.mem_singleton.mp isElement
      exact .null
  · obtain rfl := List.mem_singleton.mp isMember
    refine .array fun element isElement => ?_
    obtain rfl := List.mem_singleton.mp isElement
    exact .bool

/-- The last two elements of every member, of which one has a single element. -/
theorem Query.ascending_unsorted
    : Query.find [.wildcard, .slice (some (-2)) none 1] unsorted []
          = .ok [⟨.bool true, [.name [.char 'b'], .position 0]⟩,
            ⟨.null, [.name [.char 'b'], .position 1]⟩,
            ⟨.bool false, [.name [.char 'a'], .position 0]⟩]
      ∧ List.Pairwise unsorted.Precedes
          [[.name [.char 'b'], .position 0], [.name [.char 'b'], .position 1],
            [.name [.char 'a'], .position 0]] := by
  have h : Query.find [.wildcard, .slice (some (-2)) none 1] unsorted []
      = .ok [⟨.bool true, [.name [.char 'b'], .position 0]⟩,
        ⟨.null, [.name [.char 'b'], .position 1]⟩,
        ⟨.bool false, [.name [.char 'a'], .position 0]⟩] :=
    rfl
  exact ⟨h, (Query.ascending_of_find isKeyed_unsorted (by decide) h).2⟩

end JsonPath
