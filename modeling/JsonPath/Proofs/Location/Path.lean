import JsonPath.Proofs.Location.Placement
import JsonPath.Proofs.Parsing
import JsonPath.Proofs.Rendering.Queries

/-! Paths of locations. The path of a placed node parses as the query of the steps to it, and
that finds the node and nothing else.
-/

namespace JsonPath

namespace Step

/-- The selector of the child that a step leads to. -/
def segment : Step → Segment
  | .name t => .key t
  | .position n => .index n

/-- Different steps have different segments. -/
theorem segment_injective : Function.Injective segment := by
  intro step other same
  cases step with
  | name _ =>
      cases other with
      | name _ => exact congrArg _ (Segment.key.inj same)
      | position _ => simp [segment] at same
  | position _ =>
      cases other with
      | name _ => simp [segment] at same
      | position _ => exact congrArg _ (Segment.index.inj same)

end Step

namespace Location

/-- The query of the steps of a location. -/
def query (location : Location) : Query :=
  location.map Step.segment

/-- Different locations have different queries. -/
theorem query_injective : Function.Injective query :=
  List.map_injective_iff.mpr Step.segment_injective

/-- All positions are indexes that can be written in a query. -/
def IsInRange (location : Location) : Prop :=
  ∀ n, Step.position n ∈ location → n.natAbs ≤ maxInteger

/-- A location that leads to a value in a document is in range, by induction on it. -/
theorem isInRange_of_follow {location : Location} {value target : Value}
    (isDocument : value.IsDocument) (leads : value.follow? location = some target)
    : location.IsInRange := by
  induction location generalizing value with
  | nil => exact fun _ => nofun
  | cons step location ih =>
      rw [Value.follow?] at leads
      obtain ⟨child, first, others⟩ := Option.bind_eq_some_iff.mp leads
      intro n member
      rcases List.mem_cons.mp member with rfl | member
      · unfold Value.child? at first
        split at first
        next => contradiction
        next elements position isPosition =>
          obtain rfl := Step.position.inj isPosition
          cases isDocument with
          | array short _ =>
              obtain ⟨inside, _⟩ := List.getElem?_eq_some_iff.mp first
              exact Nat.le_sub_one_of_lt (Nat.lt_of_lt_of_le inside short)
        next => cases first
      · exact ih (isDocument.child first) others n member

-----------------------------------------------------------------------------------------
-- Parsing
-----------------------------------------------------------------------------------------

/-- A step is spelled as a selection in brackets. -/
theorem brackets_text (step : Step)
    (inRange : ∀ n, step = .position n → n.natAbs ≤ maxInteger)
    (Nested : Grammar.Production Expression) (rest : Text)
    : Grammar.Brackets Nested (step.text ++ rest) step.segment rest := by
  have spelled : ∀ e rest, False → Nested (e.text ++ rest) e rest := fun _ _ => False.elim
  have formed : Formation.Selection (fun _ => False) step.segment := by
    cases step with
    | name name => exact .selector .key
    | position n => exact .selector (.index (inRange n rfl))
  cases step with
  | name name =>
      rw [Step.text, List.append_assoc]
      exact Formation.brackets_selectorText spelled formed rest
  | position n =>
      rw [Step.text, List.append_assoc]
      exact Formation.brackets_selectorText spelled formed rest

/-- The steps of a location are spelled one after the other, by induction on the location. -/
theorem repeated_text {location : Location} (inRange : location.IsInRange)
    (Nested : Grammar.Production Expression)
    : Grammar.Repeated (Grammar.SpacedGroup Nested) (location.flatMap Step.text)
        (location.map fun step => [step.segment]) [] := by
  induction location with
  | nil => exact .none
  | cons step location ih =>
      have first :=
        brackets_text step (fun n same => inRange n (by simp [same])) Nested
      exact .more (.mk .none (.brackets (first _)))
        (ih fun n member => inRange n (List.mem_cons_of_mem _ member))

/-- A path is the spelling of the query for its location. -/
theorem isQuery_path {location : Location} (inRange : location.IsInRange) (depth : Nat)
    : Grammar.IsQuery Grammar.ShortLiteral depth location.path location.query := by
  have spelling := Grammar.Segments.mk
    (repeated_text inRange (Grammar.Logical Grammar.ShortLiteral depth))
  have flat : (location.map fun step => [step.segment]).flatten = location.query := by
    rw [query, ← List.flatMap_def, List.map_eq_flatMap]
  rw [flat] at spelling
  exact .mk spelling

/-- Paths of locations in range are different for different locations. -/
theorem path_eq_iff {location other : Location} (inRange : location.IsInRange)
    (otherInRange : other.IsInRange)
    : location.path = other.path ↔ location = other := by
  constructor
  · intro same
    have parsed := Query.parseWithin_of_isQuery (isQuery_path inRange 0)
    rw [same, Query.parseWithin_of_isQuery (isQuery_path otherInRange 0)] at parsed
    exact query_injective (Except.ok.inj parsed).symm
  · rintro rfl
    rfl

-----------------------------------------------------------------------------------------
-- Evaluation
-----------------------------------------------------------------------------------------

variable {context : Context}

/-- The segment of a step that leads to a child selects this child only. -/
theorem select_segment {node : Node} {step : Step} {child : Value}
    (leads : node.value.child? step = some child)
    : step.segment.select context node = .ok [⟨child, node.location ++ [step]⟩] := by
  unfold Value.child? at leads
  split at leads
  next members name isObject =>
    rw [Step.segment, Segment.select, Node.member, isObject]
    simp only [leads]
  next elements position isArray =>
    have fromStart : ¬(Int.ofNat position < 0) := by simp
    rw [Step.segment, Segment.select, Node.element, if_neg fromStart]
    simp only [Node.elementsAt, isArray]
    simp [leads]
  next => cases leads

/-- The query of a location finds the node that the location leads to, by induction on it. -/
theorem apply_query {location : Location} {node : Node} {target : Value}
    (leads : node.value.follow? location = some target)
    : apply context location.query [node] = .ok [⟨target, node.location ++ location⟩] := by
  induction location generalizing node with
  | nil =>
      obtain rfl := Option.some.inj leads
      rw [query, List.map_nil, apply, List.append_nil]
  | cons step location ih =>
      rw [Value.follow?] at leads
      obtain ⟨child, first, others⟩ := Option.bind_eq_some_iff.mp leads
      have notDescent : step.segment.isDescendants = false := by cases step <;> rfl
      have found := @ih ⟨child, node.location ++ [step]⟩ others
      have selected : collect (step.segment.select context) [node]
          = .ok [⟨child, node.location ++ [step]⟩] := by
        rw [collect, select_segment first]
        rfl
      rw [query, List.map_cons, apply_cons notDescent, selected]
      rw [List.append_assoc] at found
      exact found

end Location

/-- A found node is where its location says, and the path of its location parses as a query
that finds only this node. The nodes that queries find in a document have the same path
exactly if they have the same location.
-/
theorem Query.path_of_find {document : Value} (isDocument : document.IsDocument)
    {query : Query} {registry : Registry} {found : List Node}
    (h : query.find document registry = .ok found) {node : Node} (member : node ∈ found)
    (depth : Nat)
    : document.follow? node.location = some node.value
      ∧ parseWithin depth node.location.path = .ok node.location.query
      ∧ (∀ registry', node.location.query.find document registry' = .ok [node])
      ∧ ∀ (query' : Query) registry' found' other,
          query'.find document registry' = .ok found'
          → other ∈ found'
          → (other.location.path = node.location.path ↔ other.location = node.location) := by
  have placed := isPlaced_of_find isDocument h node member
  have inRange := Location.isInRange_of_follow isDocument placed
  refine ⟨placed, parseWithin_of_isQuery (Location.isQuery_path inRange depth), ?_, ?_⟩
  · intro registry'
    exact Location.apply_query placed
  · intro query' registry' found' other h' member'
    have placed' := isPlaced_of_find isDocument h' other member'
    exact Location.path_eq_iff (Location.isInRange_of_follow isDocument placed') inRange

/-- A document of one member, an array of two elements. -/
def nested : Value :=
  .object [([.char 'a'], .array [.null, .bool true])]

theorem isDocument_nested : nested.IsDocument := by
  refine .object (by simp) fun member isMember => ?_
  obtain rfl := List.mem_singleton.mp isMember
  refine .array (by decide) fun element isElement => ?_
  rcases List.mem_cons.mp isElement with rfl | isElement
  · exact .null
  · obtain rfl := List.mem_singleton.mp isElement
    exact .bool

/-- The last element of the array is found at its position from the start. -/
theorem Query.path_lastElement
    : Query.find [.key [.char 'a'], .index (-1)] nested []
        = .ok [⟨.bool true, [.name [.char 'a'], .position 1]⟩]
      ∧ parseWithin 0 (Location.path [.name [.char 'a'], .position 1])
          = .ok [.key [.char 'a'], .index 1]
      ∧ Query.find [.key [.char 'a'], .index 1] nested []
          = .ok [⟨.bool true, [.name [.char 'a'], .position 1]⟩] := by
  have h : Query.find [.key [.char 'a'], .index (-1)] nested []
      = .ok [⟨.bool true, [.name [.char 'a'], .position 1]⟩] :=
    rfl
  obtain ⟨_, parsed, found, _⟩ :=
    Query.path_of_find isDocument_nested h (List.mem_singleton_self _) 0
  exact ⟨h, parsed, found []⟩

end JsonPath
