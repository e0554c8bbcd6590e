import JsonPath.Proofs.Evaluation.Calls
import JsonPath.Proofs.Evaluation.Segments
import JsonPath.Proofs.Formation.Derivation
import JsonPath.Proofs.Parsing

/-! Formed queries and expressions only fail in functions: in calls of unknown ones, and in
calls that receive a pattern beyond the limits. The uses of an expression that the rules of
formation check are the uses in which its evaluation is sound, which is proved rule by rule
and by induction on the levels of nesting.
-/

namespace JsonPath

namespace Evaluation

open Formation (Formed)

variable {usual : Pattern.Compiler}

-----------------------------------------------------------------------------------------
-- Segments
-----------------------------------------------------------------------------------------

/-- A well-formed selection is no descent. -/
theorem isDescendants_of_selection {Nested : Expression → Prop} {segment : Segment}
    (h : Formation.Selection Nested segment)
    : segment.isDescendants = false := by
  cases h with
  | selector formed => cases formed <;> rfl
  | union _ => rfl

/-- In each use that an expression is fit for, its evaluation is sound. -/
structure WellUsed (usual : Pattern.Compiler) (root : Value) (e : Expression) : Prop where
  test
    : e.IsTest
      → ∀ current, Sound usual e.calls fun compile => e.holds (.builtins compile root) current
  value
    : Syntax.isArgument e .value
      → ∀ current, Sound usual e.calls fun compile => e.value (.builtins compile root) current
  nodes
    : Syntax.isArgument e .nodes
      → ∀ current, Sound usual e.calls fun compile => e.nodes (.builtins compile root) current

section Rules

variable {root : Value} {Nested : Expression → Prop}
  (nested : ∀ e, Nested e → WellUsed usual root e)

include nested

/-- Well-formed selectors are sound when the nested filters are well used. -/
theorem sound_selector {selector : Segment} (h : Formation.Selector Nested selector)
    (node : Node)
    : Sound usual selector.calls fun compile => selector.select (.builtins compile root) node := by
  cases h with
  | key => simp only [Segment.select]; exact .ok _
  | index _ => simp only [Segment.select]; exact .ok _
  | slice _ _ _ => simp only [Segment.select]; exact .ok _
  | wildcard => simp only [Segment.select]; exact .ok _
  | @filter test formed isTest =>
      simp only [Segment.select, Segment.calls]
      let holds (child : Node) : Evaluation Bool :=
        fun compile => test.holds (.builtins compile root) child.value
      have sound : ∀ child, (holds child).Sound usual test.calls := fun child =>
        (nested test formed).test isTest child.value
      exact Sound.keep sound node.children

theorem sound_selectAll {selectors : List Segment}
    (formed : ∀ selector ∈ selectors, Formation.Selector Nested selector) (node : Node)
    : Sound usual (segmentsCalls selectors) fun compile =>
        selectAll (.builtins compile root) selectors node := by
  induction selectors with
  | nil => simp only [selectAll]; exact .ok _
  | cons selector selectors ih =>
      simp only [selectAll, segmentsCalls]
      have first := sound_selector nested (formed selector (by simp)) node
      have others := ih fun s member => formed s (by simp [member])
      exact first.bind_append fun nodes => others.bind fun nodes' => .ok (nodes ++ nodes')

/-- Well-formed selections are sound, single selectors and lists alike. -/
theorem sound_selection {selection : Segment} (h : Formation.Selection Nested selection)
    (node : Node)
    : Sound usual selection.calls fun compile => selection.select (.builtins compile root) node := by
  cases h with
  | selector formed => exact sound_selector nested formed node
  | union formed =>
      simp only [Segment.select, Segment.calls]
      exact sound_selectAll nested formed node

/-- Segments are sound from any nodes on, by induction on them. -/
theorem sound_segments {segments : List Segment} (h : Formation.Segments Nested segments)
    (nodes : List Node)
    : Sound usual (segmentsCalls segments) fun compile =>
        apply (.builtins compile root) segments nodes := by
  induction h generalizing nodes with
  | nil => simp only [apply]; exact .ok _
  | @child selection segments first _ ih =>
      simp only [apply_cons (isDescendants_of_selection first), segmentsCalls]
      have selected := Sound.collect (sound_selection nested first) nodes
      exact selected.bind_append ih
  | @descent selection segments first _ ih =>
      simp only [apply, descend_cons (isDescendants_of_selection first), segmentsCalls,
        Segment.calls, List.nil_append]
      have selected := Sound.collect (sound_selection nested first)
        (nodes.flatMap Node.descendants)
      exact selected.bind_append ih

/-- Queries inside of expressions are well used, relative to the current node or to the root.
-/
theorem wellUsed_of_segments {segments : List Segment}
    (h : Formation.Segments Nested segments)
    : WellUsed usual root (.current segments) ∧ WellUsed usual root (.root segments) := by
  have found (nodes : List Node) := sound_segments nested h nodes
  constructor
  all_goals
    constructor
    all_goals
      intro _ current
      simp only [Expression.holds, Expression.value, Expression.nodes, Expression.calls,
        Context.root_builtins]
      exact (found _).bind fun nodes => .ok _

end Rules

-----------------------------------------------------------------------------------------
-- Expressions
-----------------------------------------------------------------------------------------

section Expressions

variable {root : Value}

/-- Literals are well used, as values only. -/
theorem wellUsed_of_literal (value : Value) : WellUsed usual root (.literal value) where
  test := fun isTest => absurd isTest.1 (by simp [Syntax.isLiteral])
  value := fun _ current => by
    simp only [Expression.value]
    exact .ok _
  nodes := fun isNodes =>
    absurd isNodes (by simp [Syntax.isArgument, Syntax.segments?, Syntax.isCall])

/-- Expressions with operators are only used for their truth values. -/
theorem wellUsed_of_operator {e : Expression} (noValue : Syntax.isArgument e .value = false)
    (noNodes : Syntax.isArgument e .nodes = false)
    (test : ∀ current, Sound usual e.calls fun compile => e.holds (.builtins compile root) current)
    : WellUsed usual root e where
  test := fun _ => test
  value := fun isValue => absurd isValue (by simp [noValue])
  nodes := fun isNodes => absurd isNodes (by simp [noNodes])

/-- A negation is well used when its operand is, and a test. -/
theorem wellUsed_of_negation {operand : Expression} (wellUsed : WellUsed usual root operand)
    (isTest : operand.IsTest)
    : WellUsed usual root (.negation operand) := by
  refine wellUsed_of_operator rfl rfl fun current => ?_
  simp only [Expression.holds, Expression.calls]
  exact (wellUsed.test isTest current).bind fun b => .ok !b

/-- A comparison is well used when both sides are, and have values. -/
theorem wellUsed_of_comparison {comparator : Comparator} {left right : Expression}
    (wellUsedLeft : WellUsed usual root left) (wellUsedRight : WellUsed usual root right)
    (leftValue : Syntax.isArgument left .value) (rightValue : Syntax.isArgument right .value)
    : WellUsed usual root (.comparison comparator left right) := by
  refine wellUsed_of_operator rfl rfl fun current => ?_
  simp only [Expression.holds, Expression.calls]
  have second := wellUsedRight.value rightValue current
  exact (wellUsedLeft.value leftValue current).bind_append fun a =>
    second.bind fun b => .ok (comparator.holds a b)

variable {operands : List Expression}

/-- A conjunction is well used when all operands are, and tests. -/
theorem wellUsed_of_conjunction (wellUsed : ∀ e ∈ operands, WellUsed usual root e ∧ e.IsTest)
    : WellUsed usual root (.conjunction operands) := by
  refine wellUsed_of_operator rfl rfl fun current => ?_
  simp only [Expression.holds, Expression.calls]
  induction operands with
  | nil => simp only [allHold]; exact .ok true
  | cons e es ih =>
      simp only [allHold, expressionsCalls]
      obtain ⟨first, isTest⟩ := wellUsed e (by simp)
      have others := ih fun e member => wellUsed e (by simp [member])
      refine (first.test isTest current).bind_append fun b => ?_
      cases b with
      | true => exact others
      | false => exact .ok false

/-- A disjunction is well used when all operands are, and tests. -/
theorem wellUsed_of_disjunction (wellUsed : ∀ e ∈ operands, WellUsed usual root e ∧ e.IsTest)
    : WellUsed usual root (.disjunction operands) := by
  refine wellUsed_of_operator rfl rfl fun current => ?_
  simp only [Expression.holds, Expression.calls]
  induction operands with
  | nil => simp only [anyHolds]; exact .ok false
  | cons e es ih =>
      simp only [anyHolds, expressionsCalls]
      obtain ⟨first, isTest⟩ := wellUsed e (by simp)
      have others := ih fun e member => wellUsed e (by simp [member])
      refine (first.test isTest current).bind_append fun b => ?_
      cases b with
      | true => exact .ok true
      | false => exact others

-----------------------------------------------------------------------------------------
-- Calls of functions
-----------------------------------------------------------------------------------------

/-- Arguments that fit the parameters are sound, by induction on both. -/
theorem sound_arguments {es : List Expression} {kinds : List Kind}
    (fits : List.Forall₂ (fun e kind => Syntax.isArgument e kind) es kinds)
    (wellUsed : ∀ e ∈ es, WellUsed usual root e) (current : Value)
    : Sound usual (expressionsCalls es) fun compile =>
        arguments (.builtins compile root) es kinds current := by
  induction fits with
  | nil => simp only [arguments]; exact .ok []
  | @cons e kind es kinds fit _ ih =>
      simp only [arguments, expressionsCalls]
      have used := wellUsed e (by simp)
      have others := ih fun e member => wellUsed e (by simp [member])
      have followed {x : Evaluation Argument} (first : x.Sound usual e.calls)
          : Sound usual (e.calls ++ expressionsCalls es) fun compile => do
              let argument ← x compile
              let others ← arguments (.builtins compile root) es kinds current
              return argument :: others :=
        first.bind_append fun argument => others.bind fun arguments =>
          .ok (argument :: arguments)
      cases kind with
      | value => exact followed ((used.value fit current).map Argument.value)
      | logical =>
          have isTest : e.IsTest := by simpa [Syntax.isArgument, Expression.IsTest] using fit
          exact followed ((used.test isTest current).map Argument.logical)
      | nodes => exact followed ((used.nodes fit current).map Argument.nodes)

/-- A call of a known function with fitting arguments is sound when the function is. -/
theorem sound_call {α : Type} {builtin : Builtin} {es : List Expression}
    {run : Pattern.Compiler → List Argument → Except CallFailure α}
    (fits
      : List.Forall₂ (fun e kind => Syntax.isArgument e kind) es builtin.signature.parameters)
    (wellUsed : ∀ e ∈ es, WellUsed usual root e) (name : Text)
    (sound
      : ∀ found, Sound usual [] fun compile => (run compile found).mapError (·.toError name))
    (current : Value)
    : Sound usual (name :: expressionsCalls es) fun compile =>
        call name (builtin.functionWith compile) es.length
          (arguments (.builtins compile root) es (builtin.functionWith compile).parameters
            current)
          (run compile) := by
  have same (compile : Pattern.Compiler)
      : es.length = (builtin.functionWith compile).parameters.length :=
    fits.length_eq
  simp only [call_eq (same _)]
  have given := sound_arguments fits wellUsed current
  have included : expressionsCalls es ++ [] ⊆ name :: expressionsCalls es := by simp
  exact (given.bind_append sound).mono included

/-- Any use of a call of an unknown function fails since it is unknown. -/
theorem wellUsed_of_unknown {name : Text} (unknown : Builtin.ofName? name = none)
    (es : List Expression)
    : WellUsed usual root (.call name es) := by
  have isCalled : name ∈ name :: expressionsCalls es := by simp
  constructor
  all_goals
    intro _ current
    simp only [Expression.holds, Expression.value, Expression.nodes, Expression.calls,
      Context.function?_builtins, unknown, Option.map_none]
    exact .unknown isCalled unknown ⟨rfl, fun _ _ => rfl⟩

/-- A call of a known function is only used as the result of the function allows. -/
theorem wellUsed_of_known {name : Text} {builtin : Builtin} {es : List Expression}
    (known : Builtin.ofName? name = some builtin)
    (fits
      : List.Forall₂ (fun e kind => Syntax.isArgument e kind) es builtin.signature.parameters)
    (wellUsed : ∀ e ∈ es, WellUsed usual root e)
    : WellUsed usual root (.call name es) := by
  have function (compile : Pattern.Compiler)
      : (Context.builtins compile root).function? name = some (builtin.functionWith compile) := by
    simp [known]
  have result : Syntax.resultKind? (.call name es) = some builtin.signature.result :=
    congrArg (Option.map _) known
  constructor
  case test =>
    intro isTest current
    cases builtin with
    | count => exact absurd result isTest.2
    | length => exact absurd result isTest.2
    | fullMatch =>
        simp only [holds_call (function _) rfl]
        exact sound_call fits wellUsed name (sound_testString name _) current
    | search =>
        simp only [holds_call (function _) rfl]
        exact sound_call fits wellUsed name (sound_testString name _) current
    | value => exact absurd result isTest.2
  case value =>
    intro isValue current
    have returns : builtin.signature.result = .value := by
      simpa [Syntax.isArgument, Syntax.isLiteral, Syntax.isCall, Syntax.segments?, result]
        using isValue
    cases builtin with
    | count =>
        simp only [value_call (function _) rfl]
        exact sound_call fits wellUsed name (sound_total name total_countOf) current
    | length =>
        simp only [value_call (function _) rfl]
        exact sound_call fits wellUsed name (sound_total name total_lengthOf) current
    | fullMatch => cases returns
    | search => cases returns
    | value =>
        simp only [value_call (function _) rfl]
        exact sound_call fits wellUsed name (sound_total name total_onlyValue) current
  case nodes =>
    intro isNodes
    have returns : builtin.signature.result = .nodes := by
      simpa [Syntax.isArgument, Syntax.isCall, Syntax.segments?, result] using isNodes
    cases builtin <;> cases returns

/-- A call is well used when its arguments are and fit the function, known or unknown. -/
theorem wellUsed_of_call {name : Text} {es : List Expression}
    (fitCall : Expression.FitCall name es) (wellUsed : ∀ e ∈ es, WellUsed usual root e)
    : WellUsed usual root (.call name es) := by
  cases known : Builtin.ofName? name with
  | none => exact wellUsed_of_unknown known es
  | some builtin => exact wellUsed_of_known known (fitCall builtin known) wellUsed

end Expressions

-----------------------------------------------------------------------------------------
-- Formed expressions
-----------------------------------------------------------------------------------------

section Levels

variable {root : Value} {Nested : Expression → Prop}
  (nested : ∀ e, Nested e → WellUsed usual root e) {e : Expression}

/-- What can be compared can be given for a value. -/
theorem isArgument_of_isComparable (h : Formation.Primary Nested e)
    (comparable : e.IsComparable)
    : Syntax.isArgument e .value := by
  obtain ⟨singular, returns⟩ := comparable
  cases h with
  | literal _ => rfl
  | @current segments _ =>
      simp [Syntax.isArgument, Syntax.segments?, singular segments rfl]
  | @root segments _ =>
      simp [Syntax.isArgument, Syntax.segments?, singular segments rfl]
  | @call name arguments _ _ _ =>
      cases known : Syntax.resultKind? (.call name arguments) with
      | none => simp [Syntax.isArgument, Syntax.isCall, known]
      | some kind => simp [Syntax.isArgument, Syntax.isCall, known, returns kind known]

include nested

/-- Operands are well used, by cases on their formation. -/
theorem wellUsed_of_primary (h : Formation.Primary Nested e) : WellUsed usual root e := by
  cases h with
  | literal _ => exact wellUsed_of_literal _
  | current formed => exact (wellUsed_of_segments nested formed).1
  | root formed => exact (wellUsed_of_segments nested formed).2
  | call _ formed fitCall =>
      exact wellUsed_of_call fitCall fun e member => nested e (formed e member)

theorem wellUsed_of_basic (h : Formation.Basic Nested e) : WellUsed usual root e := by
  cases h with
  | primary formed => exact wellUsed_of_primary nested formed
  | comparison formedLeft formedRight leftComparable rightComparable =>
      exact wellUsed_of_comparison (wellUsed_of_primary nested formedLeft)
        (wellUsed_of_primary nested formedRight)
        (isArgument_of_isComparable formedLeft leftComparable)
        (isArgument_of_isComparable formedRight rightComparable)
  | negatedPrimary formed _ isTest =>
      exact wellUsed_of_negation (wellUsed_of_primary nested formed) isTest
  | negated formed _ isTest => exact wellUsed_of_negation (nested _ formed) isTest

theorem wellUsed_of_operand (h : Formation.Operand Nested e) : WellUsed usual root e := by
  cases h with
  | basic formed => exact wellUsed_of_basic nested formed
  | disjunction formed => exact nested _ formed

/-- Operands of disjunctions are well used. -/
theorem wellUsed_of_alternative (h : Formation.Alternative Nested e) : WellUsed usual root e := by
  cases h with
  | basic formed => exact wellUsed_of_basic nested formed
  | conjunction formed =>
      exact wellUsed_of_conjunction fun e member =>
        (formed e member).imp_left (wellUsed_of_operand nested)

/-- What one more level of nesting forms is as well used as what is nested. -/
theorem wellUsed_of_level (h : Formation.Disjunction Nested e) : WellUsed usual root e := by
  cases h with
  | alternative formed => exact wellUsed_of_alternative nested formed
  | disjunction formed =>
      exact wellUsed_of_disjunction fun e member =>
        (formed e member).imp_left (wellUsed_of_alternative nested)

end Levels

/-- Well-formed expressions are well used, by induction on the depth. -/
theorem wellUsed_of_formed {root : Value} {depth : Nat} {e : Expression}
    (h : Formed depth e)
    : WellUsed usual root e := by
  induction depth generalizing e with
  | zero => cases h
  | succ depth ih => exact wellUsed_of_level (fun _ => ih) h

end Evaluation

-----------------------------------------------------------------------------------------
-- Queries and filter expressions
-----------------------------------------------------------------------------------------

/-- The evaluation of a query from the root of a document. -/
def Query.evaluation (query : Query) (document : Value) : Evaluation (List Node) :=
  fun compile => apply (.builtins compile document) query [⟨document, []⟩]

/-- The evaluation of an expression for a value in a document. -/
def Expression.evaluation (e : Expression) (current root : Value) : Evaluation Bool :=
  fun compile => e.holds (.builtins compile root) current

/-- With the real compiler, the evaluation of a query is what it finds. -/
theorem Query.evaluation_compile (query : Query) (document : Value)
    : query.evaluation document Pattern.compile = query.find document [] := by
  rw [evaluation, find, Context.of_nil]

/-- With the real compiler, the evaluation of an expression is its outcome. -/
theorem Expression.evaluation_compile (e : Expression) (current root : Value)
    : e.evaluation current root Pattern.compile = e.evaluate current root := by
  rw [evaluation, evaluate, Context.of_nil]

/-- The evaluation of a parsed query is sound. -/
theorem Query.sound_of_parseWithin {depth : Nat} {t : Text} {query : Query}
    (accepted : parseWithin depth t = .ok query) (document : Value)
    : (query.evaluation document).Sound usual query.calls := by
  have formed := Formation.segments_of_isQuery (isQuery_of_parseWithin accepted)
  exact Evaluation.sound_segments (fun _ => Evaluation.wellUsed_of_formed) formed _

/-- The evaluation of a parsed expression is sound. -/
theorem Expression.sound_of_parseWithin {depth : Nat} {t : Text} {e : Expression}
    (accepted : parseWithin depth t = .ok e) (current root : Value)
    : (e.evaluation current root).Sound usual e.calls := by
  obtain ⟨formed, isTest⟩ := Formation.formed_of_isFilter (isFilter_of_parseWithin accepted)
  exact (Evaluation.wellUsed_of_formed formed).test isTest current

/-- Parsed queries and filter expressions only fail in calls of functions that nobody
registered, as long as no call receives a pattern beyond the limits.
-/
theorem isSafe_of_parseWithin (depth : Nat) (t : Text)
    : (∀ query document,
        Query.parseWithin depth t = .ok query
        → (∀ pattern,
            (query.evaluation document).Reaches Pattern.compile pattern
            → ¬Pattern.IsBeyondLimits Pattern.compile pattern)
        → IsSafe query.calls (query.find document []))
      ∧ ∀ e current root,
          Expression.parseWithin depth t = .ok e
          → (∀ pattern,
              (e.evaluation current root).Reaches Pattern.compile pattern
              → ¬Pattern.IsBeyondLimits Pattern.compile pattern)
          → IsSafe e.calls (e.evaluate current root) := by
  constructor
  · intro query document accepted within
    rw [← Query.evaluation_compile]
    exact (Query.sound_of_parseWithin accepted document).isSafe within
  · intro e current root accepted within
    rw [← Expression.evaluation_compile]
    exact (Expression.sound_of_parseWithin accepted current root).isSafe within

/-- Spells the query of the elements that match a pattern. -/
def matchText : Text :=
  [.char '$', .char '[', .char '?', .char 'm', .char 'a', .char 't', .char 'c', .char 'h',
    .char '(', .char '@', .char ',', .char '\'', .char 'a', .char '\'', .char ')', .char ']']

def matchQuery : Query :=
  [.filter (.call [.char 'm', .char 'a', .char 't', .char 'c', .char 'h']
    [.current [], .literal (.string [.char 'a'])])]

/-- The query is safe on a string that the pattern is tried on, and so is the test whether
it finds anything.
-/
theorem isSafe_matchText
    : IsSafe matchQuery.calls (matchQuery.find (.array [.string [.char 'a']]) [])
      ∧ IsSafe (Expression.root matchQuery).calls
          ((Expression.root matchQuery).evaluate .null (.array [.string [.char 'a']])) := by
  have parsed : Query.parseWithin 3 matchText = .ok matchQuery := rfl
  have parsedTest : Expression.parseWithin 3 matchText = .ok (.root matchQuery) := rfl
  obtain ⟨safe, safeTest⟩ := isSafe_of_parseWithin 3 matchText
  refine ⟨safe _ _ parsed fun pattern reaches => ?_,
    safeTest _ _ _ parsedTest fun pattern reaches => ?_⟩
  · exact (Query.sound_of_parseWithin parsed _).isWithinLimits rfl reaches
  · exact (Expression.sound_of_parseWithin parsedTest _ _).isWithinLimits rfl reaches

end JsonPath
