import JsonPath.Proofs.Evaluation.Arrangement
import JsonPath.Proofs.Evaluation.Segments
import JsonPath.Proofs.Evaluation.Similarity

/-! Two evaluations side by side: of similar queries, from similar nodes, in contexts with
similar functions. When the parts of similar values are similar, when comparisons do not tell
similar operands apart and functions take similar arguments to similar results, both
evaluations find similar nodes or both fail.
-/

namespace JsonPath

open Outcome (Related)

-----------------------------------------------------------------------------------------
-- Similar nodes and functions
-----------------------------------------------------------------------------------------

/-- Nodes at the same location with related values. -/
structure Node.Similar (R : Value → Value → Prop) (node other : Node) : Prop where
  location : node.location = other.location
  value : R node.value other.value

/-- What two evaluations have in common. -/
structure Likeness where
  /-- How the order in one evaluation is found in the other. -/
  arrangement : Arrangement
  /-- The values of nodes. -/
  value : Value → Value → Prop
  /-- The values that are compared and given to functions. -/
  operand : Value → Value → Prop
  /-- The literals in the queries. -/
  literal : Value → Value → Prop
  /-- Whether queries from the root are allowed. -/
  rooted : Prop

namespace Likeness

variable (likeness : Likeness)

/-- Nodes found by both evaluations, up to the arrangement. -/
def Found : List Node → List Node → Prop :=
  likeness.arrangement.Pairs (Node.Similar likeness.value)

/-- The errors with which both evaluations fail. -/
def Errors : EvaluationError → EvaluationError → Prop :=
  likeness.arrangement.Errors

inductive Argument : JsonPath.Argument → JsonPath.Argument → Prop
  | value {a b} (operands : Option.Rel likeness.operand a b) : Argument (.value a) (.value b)
  | logical {b} : Argument (.logical b) (.logical b)
  | nodes {values values'} (paired : likeness.arrangement.Pairs likeness.value values values')
    : Argument (.nodes values) (.nodes values')

/-- The functions take alike arguments to alike results, or both fail in the same way. -/
inductive Body : JsonPath.Body → JsonPath.Body → Prop
  | value {run run'}
    (results
      : ∀ found found',
          List.Forall₂ likeness.Argument found found'
          → Related Eq (Option.Rel likeness.operand) (run found) (run' found'))
    : Body (.value run) (.value run')
  | logical {run run'}
    (results
      : ∀ found found',
          List.Forall₂ likeness.Argument found found'
          → Related Eq Eq (run found) (run' found'))
    : Body (.logical run) (.logical run')
  | nodes {run run'}
    (results
      : ∀ found found',
          List.Forall₂ likeness.Argument found found'
          → Related Eq (likeness.arrangement.Pairs likeness.value) (run found) (run' found'))
    : Body (.nodes run) (.nodes run')

structure Function (function other : JsonPath.Function) : Prop where
  parameters : function.parameters = other.parameters
  body : likeness.Body function.body other.body

/-- The parts of values that are alike are alike. -/
structure KeepsParts : Prop where
  size : ∀ {node other : Node}, node.Similar likeness.value other → node.size = other.size
  member
    : ∀ {node other : Node},
        node.Similar likeness.value other
        → ∀ name, likeness.Found (node.member name) (other.member name)
  elementsAt
    : ∀ {node other : Node},
        node.Similar likeness.value other
        → ∀ positions, likeness.Found (node.elementsAt positions) (other.elementsAt positions)
  children
    : ∀ {node other : Node},
        node.Similar likeness.value other → likeness.Found node.children other.children
  descendants
    : ∀ {node other : Node},
        node.Similar likeness.value other → likeness.Found node.descendants other.descendants

/-- Evaluations in the two contexts can be run side by side. -/
structure Simulates (context other : Context) : Prop where
  keepsParts : likeness.KeepsParts
  operand_of_value : ∀ {a b}, likeness.value a b → likeness.operand a b
  operand_of_literal : ∀ {a b}, likeness.literal a b → likeness.operand a b
  comparisons
    : ∀ (comparator : Comparator) {a a' b b'},
        Option.Rel likeness.operand a a'
        → Option.Rel likeness.operand b b'
        → comparator.holds a b = comparator.holds a' b'
  root : likeness.rooted → likeness.value context.root other.root
  functions
    : ∀ name, Option.Rel likeness.Function (context.function? name) (other.function? name)

variable {likeness} {context other : Context}

/-- The element at one position is found in both of two similar nodes, or in none. -/
theorem KeepsParts.element (keepsParts : likeness.KeepsParts) {node node' : Node}
    (similar : node.Similar likeness.value node') (position : Int)
    : likeness.Found (node.element position) (node'.element position) := by
  dsimp only [Node.element]
  rw [keepsParts.size similar]
  generalize (if position < 0 then position + node'.size else position) = fromStart
  cases fromStart with
  | ofNat n => exact keepsParts.elementsAt similar [n]
  | negSucc _ => exact .nil

theorem errors_refl (e : EvaluationError) : likeness.Errors e e :=
  Arrangement.errors_refl e

/-- Errors that are alike are related by every likeness. -/
theorem errors_of_alike {e e' : EvaluationError} (h : e.Alike e') : likeness.Errors e e' :=
  Arrangement.errors_of_alike h

/-- The single node of one evaluation is that of the other. -/
theorem single_of_pairs (values : ∀ {a b}, likeness.value a b → likeness.operand a b)
    {found found' : List Value}
    (paired : likeness.arrangement.Pairs likeness.value found found')
    : Option.Rel likeness.operand (single found) (single found') := by
  have sameLength := paired.length_eq
  match found, found' with
  | [], [] => exact .none
  | [_], [_] => exact .some (values paired.of_singleton)
  | _ :: _ :: _, _ :: _ :: _ => exact .none

/-- Two documents that are alike are found at the start of their runs. -/
theorem found_start {a b : Value} (same : likeness.value a b)
    : likeness.Found [⟨a, []⟩] [⟨b, []⟩] :=
  .singleton ⟨rfl, same⟩

/-- Nodes that are found in both runs have values that are paired. -/
theorem values_of_found {found found' : List Node} (h : likeness.Found found found')
    : likeness.arrangement.Pairs likeness.value (found.map (·.value)) (found'.map (·.value)) :=
  h.map fun _ _ similar => similar.value

/-- Calls of functions that are alike have results that are alike. -/
theorem related_call {α : Type} {R : α → α → Prop} {function function' : JsonPath.Function}
    {arguments arguments' : Except EvaluationError (List JsonPath.Argument)}
    {run run' : List JsonPath.Argument → Except CallFailure α} (name : Text) (count : Nat)
    (parameters : function.parameters = function'.parameters)
    (given : Related likeness.Errors (List.Forall₂ likeness.Argument) arguments arguments')
    (results
      : ∀ found found',
          List.Forall₂ likeness.Argument found found' → Related Eq R (run found) (run' found'))
    : Related likeness.Errors R (call name function count arguments run)
        (call name function' count arguments' run') := by
  unfold call
  rw [parameters]
  split
  next => exact .error (errors_refl _)
  next =>
    cases given with
    | error errors => exact .error errors
    | ok alike =>
        refine (results _ _ alike).mapError ?_
        rintro failure _ rfl
        exact errors_refl _

-----------------------------------------------------------------------------------------
-- Evaluations side by side
-----------------------------------------------------------------------------------------

mutual

/-- By induction on the first query, with a statement for each of its parts: similar queries
find similar nodes, hold of similar values and have similar operands and arguments.
-/
theorem related_select (sim : likeness.Simulates context other) (segment : Segment)
    {segment' : Segment} (similar : segment.Similar likeness.literal likeness.rooted segment')
    {node node' : Node} (same : node.Similar likeness.value node')
    : Related likeness.Errors likeness.Found (segment.select context node)
        (segment'.select other node') := by
  cases segment with
  | key name =>
      cases similar
      simp only [Segment.select]
      exact .ok (sim.keepsParts.member same name)
  | index position =>
      cases similar
      simp only [Segment.select]
      exact .ok (sim.keepsParts.element same position)
  | slice start stop step =>
      cases similar
      simp only [Segment.select, sim.keepsParts.size same]
      exact .ok (sim.keepsParts.elementsAt same _)
  | wildcard =>
      cases similar
      simp only [Segment.select]
      exact .ok (sim.keepsParts.children same)
  | filter test =>
      cases similar with
      | filter tests =>
          simp only [Segment.select]
          exact (sim.keepsParts.children same).keep fun child child' alike =>
            related_holds sim test tests alike.value
  | union selectors =>
      cases similar with
      | union parts =>
          simp only [Segment.select]
          exact related_selectAll sim selectors parts same
  | descendants =>
      cases similar
      simp only [Segment.select]
      exact .error (errors_refl _)
termination_by structural segment

/-- Several selectors find the same in both runs, by recursion on these. -/
theorem related_selectAll (sim : likeness.Simulates context other) (selectors : List Segment)
    {selectors' : List Segment}
    (similar : Query.Similar likeness.literal likeness.rooted selectors selectors')
    {node node' : Node} (same : node.Similar likeness.value node')
    : Related likeness.Errors likeness.Found (selectAll context selectors node)
        (selectAll other selectors' node') := by
  cases selectors with
  | nil =>
      cases similar
      simp only [selectAll]
      exact .ok .nil
  | cons selector selectors =>
      cases similar with
      | cons first others =>
          simp only [selectAll]
          exact (related_select sim selector first same).bind fun found found' head =>
            (related_selectAll sim selectors others same).bind fun rest rest' tail =>
              .ok (head.append tail)
termination_by structural selectors

/-- Segments find the same in both runs, by recursion on the segments. -/
theorem related_apply (sim : likeness.Simulates context other) (segments : List Segment)
    {segments' : List Segment}
    (similar : Query.Similar likeness.literal likeness.rooted segments segments')
    {nodes nodes' : List Node} (found : likeness.Found nodes nodes')
    : Related likeness.Errors likeness.Found (apply context segments nodes)
        (apply other segments' nodes') := by
  cases segments with
  | nil =>
      cases similar
      simp only [apply]
      exact .ok found
  | cons segment segments =>
      cases similar with
      | @cons _ segment' _ _ first others =>
          cases isDescent : segment.isDescendants with
          | true =>
              obtain rfl := Segment.eq_descendants isDescent
              cases first
              simp only [apply]
              exact related_descend sim segments others found
          | false =>
              rw [apply_cons isDescent, apply_cons (first.isDescendants_eq ▸ isDescent)]
              have selected := found.collect fun node node' same =>
                related_select sim segment first same
              exact selected.bind fun found found' => related_apply sim segments others
termination_by structural segments

/-- Behind a descent, segments find the same in both runs. -/
theorem related_descend (sim : likeness.Simulates context other) (segments : List Segment)
    {segments' : List Segment}
    (similar : Query.Similar likeness.literal likeness.rooted segments segments')
    {nodes nodes' : List Node} (found : likeness.Found nodes nodes')
    : Related likeness.Errors likeness.Found (descend context segments nodes)
        (descend other segments' nodes') := by
  cases segments with
  | nil =>
      cases similar
      simp only [descend]
      exact .error (errors_refl _)
  | cons segment segments =>
      cases similar with
      | @cons _ segment' _ _ first others =>
          cases isDescent : segment.isDescendants with
          | true =>
              obtain rfl := Segment.eq_descendants isDescent
              cases first
              simp only [descend]
              exact .error (errors_refl _)
          | false =>
              rw [descend_cons isDescent, descend_cons (first.isDescendants_eq ▸ isDescent)]
              have below := found.flatMap fun node node' same =>
                sim.keepsParts.descendants same
              have selected := below.collect fun node node' same =>
                related_select sim segment first same
              exact selected.bind fun found found' => related_apply sim segments others
termination_by structural segments

/-- Similar expressions both hold, both do not or both fail, by recursion on the expression. -/
theorem related_holds (sim : likeness.Simulates context other) (e : Expression)
    {e' : Expression} (similar : e.Similar likeness.literal likeness.rooted e')
    {current current' : Value} (same : likeness.value current current')
    : Related likeness.Errors Eq (e.holds context current) (e'.holds other current') := by
  cases e with
  | literal value =>
      cases similar
      simp only [Expression.holds]
      exact .error (errors_of_alike .notTest)
  | current segments =>
      cases similar with
      | current parts =>
          simp only [Expression.holds]
          exact (related_apply sim segments parts (found_start same)).bind fun found found' paired =>
            .ok (congrArg not paired.isEmpty_eq)
  | root segments =>
      cases similar with
      | root allowed parts =>
          simp only [Expression.holds]
          have start := found_start (sim.root allowed)
          exact (related_apply sim segments parts start).bind fun found found' paired =>
            .ok (congrArg not paired.isEmpty_eq)
  | comparison comparator left right =>
      cases similar with
      | comparison first second =>
          simp only [Expression.holds]
          exact (related_value sim left first same).bind fun a a' operands =>
            (related_value sim right second same).bind fun b b' operands' =>
              .ok (sim.comparisons comparator operands operands')
  | conjunction operands =>
      cases similar with
      | conjunction parts =>
          simp only [Expression.holds]
          exact related_allHold sim operands parts same
  | disjunction operands =>
      cases similar with
      | disjunction parts =>
          simp only [Expression.holds]
          exact related_anyHolds sim operands parts same
  | negation operand =>
      cases similar with
      | negation operands =>
          simp only [Expression.holds]
          exact (related_holds sim operand operands same).bind fun b b' equal =>
            .ok (congrArg _ equal)
  | call name arguments =>
      cases similar with
      | @call _ _ arguments' parts =>
          have known := sim.functions name
          simp only [Expression.holds, parts.length_eq]
          generalize context.function? name = function, other.function? name = function' at known
          cases known with
          | none => exact .error (errors_refl _)
          | @some function function' alike =>
              have given := related_arguments sim arguments parts function.parameters same
              obtain ⟨parameters, body⟩ := alike
              dsimp only
              rw [← parameters]
              generalize function.body = run, function'.body = run' at body
              cases body with
              | value _ => exact .error (errors_refl _)
              | logical results => exact related_call name _ parameters given results
              | nodes results =>
                  exact (related_call name _ parameters given results).bind
                    fun values values' paired => .ok (congrArg not paired.isEmpty_eq)
termination_by structural e

/-- The same of the operands of a conjunction, in order. -/
theorem related_allHold (sim : likeness.Simulates context other) (es : List Expression)
    {es' : List Expression}
    (similar : List.Forall₂ (Expression.Similar likeness.literal likeness.rooted) es es')
    {current current' : Value} (same : likeness.value current current')
    : Related likeness.Errors Eq (allHold context es current) (allHold other es' current') := by
  cases es with
  | nil =>
      cases similar
      simp only [allHold]
      exact .ok rfl
  | cons e es =>
      cases similar with
      | cons first others =>
          simp only [allHold]
          refine (related_holds sim e first same).bind fun b b' equal => ?_
          subst equal
          cases b with
          | true => exact related_allHold sim es others same
          | false => exact .ok rfl
termination_by structural es

theorem related_anyHolds (sim : likeness.Simulates context other) (es : List Expression)
    {es' : List Expression}
    (similar : List.Forall₂ (Expression.Similar likeness.literal likeness.rooted) es es')
    {current current' : Value} (same : likeness.value current current')
    : Related likeness.Errors Eq (anyHolds context es current) (anyHolds other es' current') := by
  cases es with
  | nil =>
      cases similar
      simp only [anyHolds]
      exact .ok rfl
  | cons e es =>
      cases similar with
      | cons first others =>
          simp only [anyHolds]
          refine (related_holds sim e first same).bind fun b b' equal => ?_
          subst equal
          cases b with
          | true => exact .ok rfl
          | false => exact related_anyHolds sim es others same
termination_by structural es

/-- Similar expressions have values that are alike as operands. -/
theorem related_value (sim : likeness.Simulates context other) (e : Expression)
    {e' : Expression} (similar : e.Similar likeness.literal likeness.rooted e')
    {current current' : Value} (same : likeness.value current current')
    : Related likeness.Errors (Option.Rel likeness.operand) (e.value context current)
        (e'.value other current') := by
  have only {found found' : List Node} (paired : likeness.Found found found')
      : Option.Rel likeness.operand (single (found.map (·.value)))
          (single (found'.map (·.value))) :=
    single_of_pairs sim.operand_of_value (values_of_found paired)
  cases e with
  | literal value =>
      cases similar with
      | literal related =>
          simp only [Expression.value]
          exact .ok (.some (sim.operand_of_literal related))
  | current segments =>
      cases similar with
      | current parts =>
          simp only [Expression.value]
          exact (related_apply sim segments parts (found_start same)).bind fun found found' paired =>
            .ok (only paired)
  | root segments =>
      cases similar with
      | root allowed parts =>
          simp only [Expression.value]
          have start := found_start (sim.root allowed)
          exact (related_apply sim segments parts start).bind fun found found' paired =>
            .ok (only paired)
  | call name arguments =>
      cases similar with
      | @call _ _ arguments' parts =>
          have known := sim.functions name
          simp only [Expression.value, parts.length_eq]
          generalize context.function? name = function, other.function? name = function' at known
          cases known with
          | none => exact .error (errors_refl _)
          | @some function function' alike =>
              have given := related_arguments sim arguments parts function.parameters same
              obtain ⟨parameters, body⟩ := alike
              dsimp only
              rw [← parameters]
              generalize function.body = run, function'.body = run' at body
              cases body with
              | value results => exact related_call name _ parameters given results
              | logical results =>
                  exact (related_call name _ parameters given results).bind fun _ _ _ =>
                    .error (errors_refl _)
              | nodes results =>
                  exact (related_call name _ parameters given results).bind
                    fun values values' paired =>
                      .ok (single_of_pairs sim.operand_of_value paired)
  | comparison _ _ _ | conjunction _ | disjunction _ | negation _ =>
      cases similar
      simp only [Expression.value]
      exact .error (errors_of_alike .noValue)
termination_by structural e

/-- Similar expressions have nodes that are paired. -/
theorem related_nodes (sim : likeness.Simulates context other) (e : Expression)
    {e' : Expression} (similar : e.Similar likeness.literal likeness.rooted e')
    {current current' : Value} (same : likeness.value current current')
    : Related likeness.Errors (likeness.arrangement.Pairs likeness.value)
        (e.nodes context current) (e'.nodes other current') := by
  cases e with
  | current segments =>
      cases similar with
      | current parts =>
          simp only [Expression.nodes]
          exact (related_apply sim segments parts (found_start same)).bind fun found found' paired =>
            .ok (values_of_found paired)
  | root segments =>
      cases similar with
      | root allowed parts =>
          simp only [Expression.nodes]
          have start := found_start (sim.root allowed)
          exact (related_apply sim segments parts start).bind fun found found' paired =>
            .ok (values_of_found paired)
  | call name arguments =>
      cases similar with
      | @call _ _ arguments' parts =>
          have known := sim.functions name
          simp only [Expression.nodes, parts.length_eq]
          generalize context.function? name = function, other.function? name = function' at known
          cases known with
          | none => exact .error (errors_refl _)
          | @some function function' alike =>
              have given := related_arguments sim arguments parts function.parameters same
              obtain ⟨parameters, body⟩ := alike
              dsimp only
              rw [← parameters]
              generalize function.body = run, function'.body = run' at body
              cases body with
              | value _ => exact .error (errors_of_alike .notNodes)
              | logical _ => exact .error (errors_of_alike .notNodes)
              | nodes results => exact related_call name _ parameters given results
  | literal _ | comparison _ _ _ | conjunction _ | disjunction _ | negation _ =>
      cases similar
      simp only [Expression.nodes]
      exact .error (errors_of_alike .notNodes)
termination_by structural e

/-- Similar arguments are given alike, one by one. -/
theorem related_arguments (sim : likeness.Simulates context other) (es : List Expression)
    {es' : List Expression}
    (similar : List.Forall₂ (Expression.Similar likeness.literal likeness.rooted) es es')
    (kinds : List Kind) {current current' : Value} (same : likeness.value current current')
    : Related likeness.Errors (List.Forall₂ likeness.Argument)
        (arguments context es kinds current) (arguments other es' kinds current') := by
  cases es with
  | nil =>
      cases similar
      simp only [arguments]
      exact .ok .nil
  | cons e es =>
      cases similar with
      | @cons _ e' _ es' first others =>
          cases kinds with
          | nil =>
              simp only [arguments]
              exact .ok .nil
          | cons kind kinds =>
              have rest := related_arguments sim es others kinds same
              have followed {x y : Except EvaluationError JsonPath.Argument}
                  (given : Related likeness.Errors likeness.Argument x y)
                  : Related likeness.Errors (List.Forall₂ likeness.Argument)
                      (do return (← x) :: (← arguments context es kinds current))
                      (do return (← y) :: (← arguments other es' kinds current')) :=
                given.bind fun a a' head => rest.bind fun as as' tail => .ok (.cons head tail)
              simp only [arguments]
              cases kind with
              | value =>
                  exact followed ((related_value sim e first same).map fun _ _ => .value)
              | logical =>
                  refine followed ((related_holds sim e first same).map ?_)
                  rintro b _ rfl
                  exact .logical
              | nodes =>
                  exact followed ((related_nodes sim e first same).map fun _ _ => .nodes)
termination_by structural es

end

end Likeness

end JsonPath
