import JsonPath.Proofs.Evaluation.Slices
import JsonPath.Proofs.Location.Placement

/-! Nodes at distinct locations. Every selector but a union selects distinct children of a
node, and different nodes have different children. Descents can find a node twice, once from
each of two nodes above it. From distinct nodes at the same level they do not, since none of
these is above another.
-/

namespace JsonPath

def Segment.isUnion : Segment → Bool
  | union _ => true
  | _ => false

namespace Node

/-- No two of the nodes are at the same location. -/
def Distinct (nodes : List Node) : Prop :=
  (nodes.map (·.location)).Nodup

variable {node other : Node} {nodes others found : List Node} {location : Location}

theorem distinct_nil : Distinct [] :=
  List.nodup_nil

theorem distinct_singleton (node : Node) : Distinct [node] :=
  List.nodup_singleton _

/-- Some of distinct nodes are distinct. -/
theorem Distinct.sublist (h : Distinct nodes) (kept : others.Sublist nodes) : Distinct others :=
  List.Nodup.sublist (kept.map _) h

/-- Distinct nodes behind distinct ones stay distinct when no location is in both. -/
theorem distinct_append (first : Distinct nodes) (second : Distinct others)
    (apart : ∀ node ∈ nodes, ∀ other ∈ others, node.location ≠ other.location)
    : Distinct (nodes ++ others) := by
  rw [Distinct, List.map_append, List.nodup_append]
  refine ⟨first, second, ?_⟩
  intro place member place' member'
  obtain ⟨node, inNodes, rfl⟩ := List.mem_map.mp member
  obtain ⟨other, inOthers, rfl⟩ := List.mem_map.mp member'
  exact apart node inNodes other inOthers

theorem distinct_cons (distinct : Distinct nodes)
    (apart : ∀ other ∈ nodes, node.location ≠ other.location)
    : Distinct (node :: nodes) := by
  refine distinct_append (distinct_singleton node) distinct fun first member => ?_
  obtain rfl := List.mem_singleton.mp member
  exact apart

-----------------------------------------------------------------------------------------
-- Children
-----------------------------------------------------------------------------------------

theorem distinct_member (name : Text) (node : Node) : Distinct (node.member name) := by
  unfold member
  split
  next =>
    split
    next => exact distinct_singleton _
    next => exact distinct_nil
  next => exact distinct_nil

/-- Elements at distinct positions are distinct nodes. -/
theorem distinct_elementsAt {positions : List Nat} (distinct : positions.Nodup) (node : Node)
    : Distinct (node.elementsAt positions) := by
  unfold elementsAt
  split
  next elements _ =>
    rw [Distinct, List.map_filterMap]
    refine distinct.filterMap fun position position' place found found' => ?_
    simp only [Option.map_map, Function.comp_def] at found found'
    obtain ⟨_, _, rfl⟩ := Option.map_eq_some_iff.mp found
    obtain ⟨_, _, same⟩ := Option.map_eq_some_iff.mp found'
    have sameStep := List.append_cancel_left same
    simp only [List.cons.injEq, Step.position.injEq] at sameStep
    omega
  next => exact distinct_nil

theorem distinct_element (position : Int) (node : Node) : Distinct (node.element position) := by
  dsimp only [element]
  generalize (if position < 0 then position + node.size else position) = fromStart
  cases fromStart with
  | ofNat n => exact distinct_elementsAt (List.nodup_singleton n) node
  | negSucc _ => exact distinct_nil

/-- Elements are distinct by their positions, by induction on the elements. -/
theorem distinct_ofElements (location : Location) (position : Nat) (elements : List Value)
    : Distinct (ofElements location position elements) := by
  induction elements generalizing position with
  | nil => exact distinct_nil
  | cons element elements ih =>
      refine distinct_cons (ih (position + 1)) fun other member same => ?_
      obtain ⟨i, _, located⟩ := mem_ofElements member
      have sameStep := List.append_cancel_left (same.trans located)
      simp only [List.cons.injEq, Step.position.injEq] at sameStep
      omega

/-- Members are distinct by their names, by induction on the members. -/
theorem distinct_ofMembers (location : Location) {members : Members}
    (distinct : (members.map Prod.fst).Nodup)
    : Distinct (ofMembers location members) := by
  have locations : (ofMembers location members).map (·.location)
      = (members.map Prod.fst).map fun name => location ++ [.name name] := by
    simp only [ofMembers, List.map_map, Function.comp_def]
  rw [Distinct, locations]
  refine distinct.map fun name name' same => ?_
  have sameStep := List.append_cancel_left same
  simpa using sameStep

/-- Children are distinct when member names are not repeated. -/
theorem distinct_children (isKeyed : node.value.IsKeyed) : Distinct node.children := by
  unfold children
  split
  next => exact distinct_ofElements _ 0 _
  next members isObject =>
    rw [isObject] at isKeyed
    cases isKeyed with
    | object distinct _ => exact distinct_ofMembers _ distinct
  next => exact distinct_nil

/-- What a selector selects from a node is distinct, unless it is a union. -/
theorem distinct_of_select {context : Context} {segment : Segment}
    (noUnion : segment.isUnion = false) (isKeyed : node.value.IsKeyed)
    (h : segment.select context node = .ok found)
    : Distinct found := by
  cases segment with
  | key name =>
      rw [Segment.select] at h
      obtain rfl := Except.ok.inj h
      exact distinct_member name node
  | index position =>
      rw [Segment.select] at h
      obtain rfl := Except.ok.inj h
      exact distinct_element position node
  | slice start stop step =>
      rw [Segment.select] at h
      obtain rfl := Except.ok.inj h
      exact distinct_elementsAt (Slice.nodup_indices node.size start stop step) node
  | wildcard =>
      rw [Segment.select] at h
      obtain rfl := Except.ok.inj h
      exact distinct_children isKeyed
  | filter test =>
      rw [Segment.select] at h
      exact (distinct_children isKeyed).sublist (sublist_of_keep h)
  | union _ => cases noUnion
  | descendants =>
      rw [Segment.select] at h
      cases h

-----------------------------------------------------------------------------------------
-- Descendants
-----------------------------------------------------------------------------------------

/-- What is below a location continues it. -/
theorem location_of_mem_below {value : Value} (isKeyed : value.IsKeyed)
    (h : other ∈ below location value)
    : ∃ steps, other.location = location ++ steps := by
  obtain ⟨steps, _, located⟩ := isBelow_of_mem_below isKeyed h
  exact ⟨steps, located⟩

/-- What is below different children is at different locations. -/
theorem apart_of_step_ne {step step' : Step} {value value' : Value} (different : step ≠ step')
    (isKeyed : value.IsKeyed) (isKeyed' : value'.IsKeyed)
    (first : node ∈ below (location ++ [step]) value)
    (second : other ∈ below (location ++ [step']) value')
    : node.location ≠ other.location := by
  obtain ⟨steps, located⟩ := location_of_mem_below isKeyed first
  obtain ⟨steps', located'⟩ := location_of_mem_below isKeyed' second
  intro same
  rw [located, located', List.append_assoc, List.append_assoc] at same
  exact different (List.cons.inj (List.append_cancel_left same)).1

/-- What is below a child is not at the location of its parent. -/
theorem apart_of_parent {step : Step} {value : Value} (isKeyed : value.IsKeyed)
    (member : other ∈ below (location ++ [step]) value)
    : location ≠ other.location := by
  obtain ⟨steps, located⟩ := location_of_mem_below isKeyed member
  intro same
  have lengths := congrArg List.length (same.trans located)
  simp at lengths

/-- What is below one element is apart from what is below the next ones, by induction on the
elements.
-/
theorem distinct_belowElements {elements : List Value}
    (parts : ∀ element ∈ elements, element.IsKeyed)
    (distinct : ∀ element ∈ elements, ∀ location, Distinct (below location element))
    (location : Location) (position : Nat)
    : Distinct (belowElements location position elements) := by
  induction elements generalizing position with
  | nil =>
      rw [belowElements]
      exact distinct_nil
  | cons element elements ih =>
      rw [List.forall_mem_cons] at parts distinct
      rw [belowElements]
      refine distinct_append (distinct.1 _) (ih parts.2 distinct.2 (position + 1)) ?_
      intro node inFirst other inOthers
      obtain ⟨i, value, found, member⟩ := mem_belowElements inOthers
      have isKeyed := parts.2 value (List.mem_of_getElem? found)
      refine apart_of_step_ne ?_ parts.1 isKeyed inFirst member
      simp only [ne_eq, Step.position.injEq]
      omega

/-- What is below one member is apart from what is below the next ones, by induction on the
members.
-/
theorem distinct_belowMembers {members : Members} (names : (members.map Prod.fst).Nodup)
    (parts : ∀ member ∈ members, (Prod.snd member).IsKeyed)
    (distinct : ∀ member ∈ members, ∀ location, Distinct (below location (Prod.snd member)))
    (location : Location)
    : Distinct (belowMembers location members) := by
  induction members with
  | nil =>
      rw [belowMembers]
      exact distinct_nil
  | cons first members ih =>
      obtain ⟨name, value⟩ := first
      rw [List.map_cons, List.nodup_cons] at names
      rw [List.forall_mem_cons] at parts distinct
      rw [belowMembers]
      refine distinct_append (distinct.1 _) (ih names.2 parts.2 distinct.2) ?_
      intro node inFirst other inOthers
      obtain ⟨name', value', found, member⟩ := mem_belowMembers inOthers
      refine apart_of_step_ne ?_ parts.1 (parts.2 _ found) inFirst member
      simp only [ne_eq, Step.name.injEq]
      rintro rfl
      exact names.1 (List.mem_map.mpr ⟨_, found, rfl⟩)

/-- A value and all values inside it are at distinct locations, by induction on the value. -/
theorem distinct_below {value : Value} (isKeyed : value.IsKeyed) (location : Location)
    : Distinct (below location value) := by
  induction isKeyed generalizing location with
  | array parts ih =>
      rw [below]
      refine distinct_cons (distinct_belowElements parts ih location 0) fun other member => ?_
      obtain ⟨i, element, found, member⟩ := mem_belowElements member
      exact apart_of_parent (parts element (List.mem_of_getElem? found)) member
  | object names parts ih =>
      rw [below]
      refine distinct_cons (distinct_belowMembers names parts ih location) fun other member => ?_
      obtain ⟨name, child, found, member⟩ := mem_belowMembers member
      exact apart_of_parent (parts _ found) member
  | null | bool | number | string =>
      rw [below]
      · exact distinct_singleton _
      all_goals nofun

/-- A descent finds no node twice. -/
theorem distinct_of_isKeyed (isKeyed : node.value.IsKeyed) : Distinct node.descendants := by
  rw [descendants_eq_below]
  exact distinct_below isKeyed node.location

-----------------------------------------------------------------------------------------
-- Evaluation
-----------------------------------------------------------------------------------------

/-- Nodes at distinct locations with distinct names in every object of their values. -/
structure Scattered (nodes : List Node) : Prop where
  distinct : Distinct nodes
  keyed : ∀ node ∈ nodes, node.value.IsKeyed

/-- All nodes are equally many steps away from the root. -/
def IsLevel (depth : Nat) (nodes : List Node) : Prop :=
  ∀ node ∈ nodes, node.location.length = depth

namespace Scattered

theorem tail (h : Scattered (node :: nodes)) : Scattered nodes where
  distinct := h.distinct.sublist (List.sublist_cons_self node nodes)
  keyed other member := h.keyed other (List.mem_cons_of_mem node member)

/-- The first of scattered nodes is apart from the others. -/
theorem apart (h : Scattered (node :: nodes)) (member : other ∈ nodes)
    : node.location ≠ other.location := by
  intro same
  have distinct := h.distinct
  rw [Distinct, List.map_cons, List.nodup_cons] at distinct
  exact distinct.1 (List.mem_map.mpr ⟨other, member, same.symm⟩)

section Selection

variable {context : Context} {segment : Segment}

/-- What is selected on one level is on the next one. -/
theorem level_of_collect (h : Scattered nodes) {depth : Nat} (level : IsLevel depth nodes)
    (selected : JsonPath.collect (segment.select context) nodes = .ok found)
    : IsLevel (depth + 1) found := by
  intro other member
  obtain ⟨node, inNodes, _, select_eq, inside⟩ := mem_of_collect selected member
  obtain ⟨_, _, located⟩ :=
    isChild_of_select segment (h.keyed node inNodes) select_eq other inside
  rw [located, List.length_append, level node inNodes]
  rfl

variable (noUnion : segment.isUnion = false)

include noUnion

/-- What is selected from scattered nodes is distinct. -/
theorem distinct_of_collect (h : Scattered nodes)
    (selected : collect (segment.select context) nodes = .ok found)
    : Distinct found := by
  induction nodes generalizing found with
  | nil =>
      obtain rfl := Except.ok.inj selected
      exact distinct_nil
  | cons node nodes ih =>
      simp only [collect, Outcome.bind_eq_ok, Outcome.pure_eq_ok] at selected
      obtain ⟨first, first_eq, others, others_eq, rfl⟩ := selected
      have isKeyed := h.keyed node (by simp)
      have distinct := distinct_of_select noUnion isKeyed first_eq
      refine distinct_append distinct (ih h.tail others_eq) ?_
      -- The location of a child without its last step is that of its only parent.
      intro child inFirst child' inOthers same
      obtain ⟨node', member, _, select_eq, inside⟩ := mem_of_collect others_eq inOthers
      obtain ⟨step, _, located⟩ := isChild_of_select segment isKeyed first_eq child inFirst
      obtain ⟨step', _, located'⟩ :=
        isChild_of_select segment (h.tail.keyed node' member) select_eq child' inside
      rw [located, located'] at same
      exact h.apart member (List.append_inj_left' same rfl)

/-- What is selected from scattered nodes is scattered. -/
theorem collect (h : Scattered nodes)
    (selected : JsonPath.collect (segment.select context) nodes = .ok found)
    : Scattered found where
  distinct := distinct_of_collect noUnion h selected
  keyed other member := by
    obtain ⟨node, inNodes, _, select_eq, inside⟩ := mem_of_collect selected member
    have isKeyed := h.keyed node inNodes
    obtain ⟨_, leads, _⟩ := isChild_of_select segment isKeyed select_eq other inside
    exact isKeyed.child leads

end Selection

/-- The descendants of scattered nodes on one level are distinct. -/
theorem distinct_descendants (h : Scattered nodes) {depth : Nat} (level : IsLevel depth nodes)
    : Distinct (nodes.flatMap descendants) := by
  induction nodes with
  | nil => exact distinct_nil
  | cons node nodes ih =>
      rw [IsLevel, List.forall_mem_cons] at level
      have isKeyed := h.keyed node (by simp)
      rw [List.flatMap_cons]
      refine distinct_append (distinct_of_isKeyed isKeyed) (ih h.tail level.2) ?_
      -- Of two locations of the same length, neither is on the way to the other.
      intro first inFirst other inOthers same
      obtain ⟨node', member, inside⟩ := List.mem_flatMap.mp inOthers
      obtain ⟨steps, _, located⟩ := isBelow_of_descendants isKeyed inFirst
      obtain ⟨steps', _, located'⟩ := isBelow_of_descendants (h.tail.keyed node' member) inside
      rw [located, located'] at same
      have sameLength : node.location.length = node'.location.length := by
        rw [level.1, level.2 node' member]
      exact h.apart member (List.append_inj_left same sameLength)

/-- Descendants of distinct nodes are distinct when none of the nodes is above another. -/
theorem descendants (h : Scattered nodes) {depth : Nat} (level : IsLevel depth nodes)
    : Scattered (nodes.flatMap descendants) where
  distinct := h.distinct_descendants level
  keyed other member := by
    obtain ⟨node, inNodes, inside⟩ := List.mem_flatMap.mp member
    have isKeyed := h.keyed node inNodes
    obtain ⟨_, leads, _⟩ := isBelow_of_descendants isKeyed inside
    exact isKeyed.follow leads

section Runs

variable {context : Context} {segments : List Segment}

/-- Without descents and unions, distinct nodes lead to distinct nodes. -/
theorem apply (noUnion : ∀ segment ∈ segments, segment.isUnion = false)
    (noDescent : ∀ segment ∈ segments, segment.isDescendants = false) (h : Scattered nodes)
    (applied : JsonPath.apply context segments nodes = .ok found)
    : Scattered found := by
  induction segments generalizing nodes with
  | nil =>
      rw [JsonPath.apply] at applied
      obtain rfl := Except.ok.inj applied
      exact h
  | cons segment segments ih =>
      rw [List.forall_mem_cons] at noUnion noDescent
      rw [apply_cons noDescent.1, Outcome.bind_eq_ok] at applied
      obtain ⟨selected, selected_eq, applied⟩ := applied
      exact ih noUnion.2 noDescent.2 (h.collect noUnion.1 selected_eq) applied

/-- Nodes at one level lead to distinct nodes over a single descent: all segments in front of
it lead from one level to the next.
-/
theorem apply_of_level (noUnion : ∀ segment ∈ segments, segment.isUnion = false)
    (descents : segments.countP Segment.isDescendants ≤ 1) (h : Scattered nodes) {depth : Nat}
    (level : IsLevel depth nodes) (applied : JsonPath.apply context segments nodes = .ok found)
    : Scattered found := by
  induction segments generalizing nodes depth with
  | nil =>
      rw [JsonPath.apply] at applied
      obtain rfl := Except.ok.inj applied
      exact h
  | cons segment segments ih =>
      rw [List.forall_mem_cons] at noUnion
      cases isDescent : segment.isDescendants with
      | false =>
          rw [List.countP_cons_of_neg (by simp [isDescent])] at descents
          rw [apply_cons isDescent, Outcome.bind_eq_ok] at applied
          obtain ⟨selected, selected_eq, applied⟩ := applied
          exact ih noUnion.2 descents (h.collect noUnion.1 selected_eq)
            (h.level_of_collect level selected_eq) applied
      | true =>
          rw [List.countP_cons_of_pos isDescent] at descents
          have noDescent : ∀ segment ∈ segments, segment.isDescendants = false := by
            simpa [List.countP_eq_zero] using descents
          obtain rfl := Segment.eq_descendants isDescent
          rw [JsonPath.apply] at applied
          cases segments with
          | nil =>
              rw [descend] at applied
              cases applied
          | cons selector segments =>
              rw [List.forall_mem_cons] at noDescent
              rw [descend_cons noDescent.1, Outcome.bind_eq_ok] at applied
              obtain ⟨selected, selected_eq, applied⟩ := applied
              have noUnion' := List.forall_mem_cons.mp noUnion.2
              have scattered := (h.descendants level).collect noUnion'.1 selected_eq
              exact scattered.apply noUnion'.2 noDescent.2 applied

end Runs

end Scattered

end Node

/-- A query with at most one descent and without unions finds no node twice, whatever its
filters and functions are.
-/
theorem Query.nodup_of_find {document : Value} (isKeyed : document.IsKeyed) {query : Query}
    (noUnion : ∀ segment ∈ query, segment.isUnion = false)
    (descents : query.countP Segment.isDescendants ≤ 1) {registry : Registry}
    {found : List Node} (h : query.find document registry = .ok found)
    : (found.map (·.location)).Nodup := by
  have start : Node.Scattered [⟨document, []⟩] := by
    refine ⟨Node.distinct_singleton _, fun node member => ?_⟩
    obtain rfl := List.mem_singleton.mp member
    exact isKeyed
  have level : Node.IsLevel 0 [⟨document, []⟩] := by
    intro node member
    obtain rfl := List.mem_singleton.mp member
    rfl
  exact (start.apply_of_level noUnion descents level h).distinct

/-- An array in front of a truth value. -/
def layered : Value :=
  .array [.array [.null], .bool true]

theorem isKeyed_layered : layered.IsKeyed := by
  refine .array fun element isElement => ?_
  rcases List.mem_cons.mp isElement with rfl | isElement
  · refine .array fun inner isInner => ?_
    obtain rfl := List.mem_singleton.mp isInner
    exact .null
  · obtain rfl := List.mem_singleton.mp isElement
    exact .bool

/-- All elements at all levels, backwards in each array, are found once. -/
theorem Query.nodup_layered
    : Query.find [.descendants, .slice none none (-1)] layered []
          = .ok [⟨.bool true, [.position 1]⟩, ⟨.array [.null], [.position 0]⟩,
            ⟨.null, [.position 0, .position 0]⟩]
      ∧ [[Step.position 1], [.position 0], [.position 0, .position 0]].Nodup := by
  have h : Query.find [.descendants, .slice none none (-1)] layered []
      = .ok [⟨.bool true, [.position 1]⟩, ⟨.array [.null], [.position 0]⟩,
        ⟨.null, [.position 0, .position 0]⟩] :=
    rfl
  exact ⟨h, Query.nodup_of_find isKeyed_layered (by simp [Segment.isUnion]) (by decide) h⟩

end JsonPath
