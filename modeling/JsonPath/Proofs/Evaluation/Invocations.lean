import JsonPath.Function.Extension
import JsonPath.Proofs.Evaluation.Segments

/-! Which functions an evaluation invokes, and with which arguments. A function is invoked
with some arguments if its failure on just these is the outcome of the evaluation, whatever
the error: nothing in an evaluation recovers from an error. All arguments of an invocation
are of the kinds that the function declares, however the expression came about.
-/

namespace JsonPath

-----------------------------------------------------------------------------------------
-- Traps
-----------------------------------------------------------------------------------------

/-- Runs a test in front of a computation. -/
def guarded {α : Type} (test : List Argument → Except CallFailure Unit)
    (run : List Argument → Except CallFailure α) (given : List Argument)
    : Except CallFailure α := do
  test given
  run given

def Body.guard (test : List Argument → Except CallFailure Unit) : Body → Body
  | value run => .value (guarded test run)
  | logical run => .logical (guarded test run)
  | nodes run => .nodes (guarded test run)

/-- The function with a test of its arguments in front of it. -/
def Function.guard (test : List Argument → Except CallFailure Unit) (function : Function)
    : Function where
  parameters := function.parameters
  body := function.body.guard test

open Classical in
/-- The test that fails for one function and one list of arguments. -/
noncomputable def trapTest (name : Text) (given : List Argument) (error : EvaluationError)
    (called : Text) (found : List Argument)
    : Except CallFailure Unit :=
  if called = name ∧ found = given then .error (.error error) else .ok ()

namespace Context

/-- The context in which a function fails with an error on some arguments. -/
noncomputable def trap (name : Text) (given : List Argument) (error : EvaluationError)
    (context : Context)
    : Context where
  root := context.root
  function? := fun called =>
    (context.function? called).map (Function.guard (trapTest name given error called))

/-- The function of this name is there and declares the kinds of these arguments, one for
each of them.
-/
def Declares (context : Context) (name : Text) (given : List Argument) : Prop :=
  ∃ function,
    context.function? name = some function ∧ given.map Argument.kind = function.parameters

end Context

/-- The evaluation invokes the function of this name with these arguments. -/
def Invokes {α : Type} (evaluation : Context → Except EvaluationError α) (context : Context)
    (name : Text) (given : List Argument)
    : Prop :=
  ∀ error, evaluation (context.trap name given error) = .error error

section Traps

variable {context : Context} {name called : Text} {given : List Argument}
  {error : EvaluationError}

@[simp] theorem Context.root_trap : (context.trap name given error).root = context.root :=
  rfl

/-- Behind the trap, each function is the one from before with a test in front. -/
@[simp] theorem Context.function?_trap
    : (context.trap name given error).function? called
      = (context.function? called).map (Function.guard (trapTest name given error called)) :=
  rfl

@[simp] theorem Function.parameters_guard {test : List Argument → Except CallFailure Unit}
    {function : Function}
    : (function.guard test).parameters = function.parameters :=
  rfl

/-- Guarding a function and guarding its run are the same. -/
theorem call_guard {α : Type} {test : List Argument → Except CallFailure Unit}
    {function : Function} {count : Nat} {arguments : Except EvaluationError (List Argument)}
    {run : List Argument → Except CallFailure α}
    : call name (function.guard test) count arguments run
      = call name function count arguments run :=
  rfl

/-- The trap springs when its function is given its arguments. -/
theorem guarded_trapTest {α : Type} (run : List Argument → Except CallFailure α)
    : guarded (trapTest name given error name) run given = .error (.error error) := by
  rw [guarded, trapTest, if_pos ⟨rfl, rfl⟩]
  rfl

/-- The trap does not spring for another function or other arguments. -/
theorem guarded_trapTest_of_ne {α : Type} {found : List Argument}
    (run : List Argument → Except CallFailure α) (different : ¬(called = name ∧ found = given))
    : guarded (trapTest name given error called) run found = run found := by
  rw [guarded, trapTest, if_neg different]
  rfl

end Traps

-----------------------------------------------------------------------------------------
-- Evaluations in a context with a trap
-----------------------------------------------------------------------------------------

/-- Either the trap decides how an evaluation ends, and it is set on arguments as declared,
or the evaluation is as usual.
-/
inductive Trapped {α : Type} (declared : Prop) (usual : Except EvaluationError α)
    (trapped : EvaluationError → Except EvaluationError α)
    : Prop
  | invoked (asDeclared : declared) (fails : ∀ error, trapped error = .error error)
  | untouched (same : ∀ error, trapped error = usual)

namespace Trapped

variable {α β : Type} {declared : Prop} {x : Except EvaluationError α}
  {x' : EvaluationError → Except EvaluationError α}

theorem refl (x : Except EvaluationError α) : Trapped declared x fun _ => x :=
  .untouched fun _ => rfl

/-- Steps in sequence are trapped when each of them is. -/
theorem bind {f : α → Except EvaluationError β}
    {f' : EvaluationError → α → Except EvaluationError β} (first : Trapped declared x x')
    (second : ∀ a, x = .ok a → Trapped declared (f a) fun error => f' error a)
    : Trapped declared (x >>= f) fun error => x' error >>= f' error := by
  cases first with
  | invoked asDeclared fails =>
      refine .invoked asDeclared fun error => ?_
      rw [fails]
      rfl
  | untouched same =>
      cases x with
      | error e =>
          refine .untouched fun error => ?_
          rw [same]
          rfl
      | ok a =>
          cases second a rfl with
          | invoked asDeclared fails =>
              refine .invoked asDeclared fun error => ?_
              rw [same]
              exact fails error
          | untouched same' =>
              refine .untouched fun error => ?_
              rw [same]
              exact same' error

theorem map (f : α → β) (h : Trapped declared x x')
    : Trapped declared (f <$> x) fun error => f <$> x' error := by
  have bound : Trapped declared (x >>= fun a => .ok (f a))
      fun error => x' error >>= fun a => .ok (f a) :=
    h.bind fun a _ => .refl (.ok (f a))
  exact bound

/-- Collecting is trapped when each item is, by induction on the items. -/
theorem collect {results : α → Except EvaluationError (List β)}
    {results' : EvaluationError → α → Except EvaluationError (List β)}
    (h : ∀ item, Trapped declared (results item) fun error => results' error item)
    (items : List α)
    : Trapped declared (JsonPath.collect results items)
        fun error => JsonPath.collect (results' error) items := by
  induction items with
  | nil => exact .refl _
  | cons item items ih => exact (h item).bind fun first _ => ih.bind fun others _ => .refl _

/-- Filtering is trapped when each test is, by induction on the items. -/
theorem keep {test : α → Except EvaluationError Bool}
    {test' : EvaluationError → α → Except EvaluationError Bool}
    (h : ∀ item, Trapped declared (test item) fun error => test' error item) (items : List α)
    : Trapped declared (JsonPath.keep test items)
        fun error => JsonPath.keep (test' error) items := by
  induction items with
  | nil => exact .refl _
  | cons item items ih => exact (h item).bind fun isKept _ => ih.bind fun others _ => .refl _

end Trapped

/-- The argument that an expression gives for a kind. -/
def argument (context : Context) (e : Expression) (kind : Kind) (current : Value)
    : Except EvaluationError Argument :=
  match kind with
  | .value => Argument.value <$> e.value context current
  | .logical => Argument.logical <$> e.holds context current
  | .nodes => Argument.nodes <$> e.nodes context current

/-- Arguments are given one after the other, each of its own kind. -/
theorem arguments_cons (context : Context) (e : Expression) (es : List Expression) (kind : Kind)
    (kinds : List Kind) (current : Value)
    : arguments context (e :: es) (kind :: kinds) current = (do
        let first ← argument context e kind current
        let others ← arguments context es kinds current
        return first :: others) := by
  simp only [arguments]
  cases kind <;> rfl

/-- An argument that is given has the kind it was asked for. -/
theorem kind_of_argument {context : Context} {e : Expression} {kind : Kind} {current : Value}
    {found : Argument} (h : argument context e kind current = .ok found)
    : found.kind = kind := by
  cases kind <;>
    · obtain ⟨_, _, rfl⟩ := Outcome.map_eq_ok.mp h
      rfl

/-- Arguments are of the kinds that they are asked for, by induction on the expressions. -/
theorem kinds_of_arguments {context : Context} {current : Value} {es : List Expression}
    {kinds : List Kind} {found : List Argument} (fits : es.length = kinds.length)
    (h : arguments context es kinds current = .ok found)
    : found.map Argument.kind = kinds := by
  induction es generalizing kinds found with
  | nil =>
      obtain rfl : kinds = [] := List.length_eq_zero_iff.mp fits.symm
      simp only [arguments] at h
      obtain rfl := Except.ok.inj h
      rfl
  | cons e es ih =>
      cases kinds with
      | nil => cases fits
      | cons kind kinds =>
          simp only [arguments_cons, Outcome.bind_eq_ok, Outcome.pure_eq_ok] at h
          obtain ⟨first, first_eq, others, others_eq, rfl⟩ := h
          rw [List.map_cons, kind_of_argument first_eq, ih (Nat.succ.inj fits) others_eq]

/-- The arguments of a call, which are evaluated only if they are as many as declared. -/
def callArguments (context : Context) (called : Text) (function : Function)
    (es : List Expression) (current : Value)
    : Except EvaluationError (List Argument) :=
  if es.length ≠ function.parameters.length then
    .error (.argumentCount called function.parameters.length es.length)
  else
    arguments context es function.parameters current

section Calls

variable {α : Type} {context : Context} {name called : Text} {given : List Argument}
  {function : Function} {es : List Expression} {current : Value}

/-- A call runs its function on its arguments. -/
theorem call_eq_bind (run : List Argument → Except CallFailure α)
    : call called function es.length (arguments context es function.parameters current) run
      = callArguments context called function es current >>= fun found =>
        (run found).mapError (·.toError called) := by
  unfold call callArguments
  split
  next => rfl
  next => cases arguments context es function.parameters current <;> rfl

/-- The arguments of a call have the kinds of the parameters. -/
theorem kinds_of_callArguments {found : List Argument}
    (h : callArguments context called function es current = .ok found)
    : found.map Argument.kind = function.parameters := by
  unfold callArguments at h
  split at h
  next => cases h
  next fits => exact kinds_of_arguments (Decidable.not_not.mp fits) h

section

variable (trappedArguments
    : Trapped (context.Declares name given) (arguments context es function.parameters current)
        fun error => arguments (context.trap name given error) es function.parameters current)

include trappedArguments

/-- Giving the arguments of a call springs the trap as declared or not at all. -/
theorem trapped_callArguments
    : Trapped (context.Declares name given) (callArguments context called function es current)
        fun error => callArguments (context.trap name given error) called function es current := by
  unfold callArguments
  split
  next => exact .refl _
  next => exact trappedArguments

/-- A call is trapped when its arguments are, or when it is the call that the trap is for. -/
theorem trapped_call (known : context.function? called = some function)
    (run : List Argument → Except CallFailure α)
    : Trapped (context.Declares name given)
        (call called function es.length (arguments context es function.parameters current) run)
        fun error =>
          call called (function.guard (trapTest name given error called)) es.length
            (arguments (context.trap name given error) es function.parameters current)
            (guarded (trapTest name given error called) run) := by
  simp only [call_guard, call_eq_bind]
  refine (trapped_callArguments trappedArguments).bind fun found found_eq => ?_
  by_cases isGiven : called = name ∧ found = given
  · obtain ⟨rfl, rfl⟩ := isGiven
    refine .invoked ⟨function, known, kinds_of_callArguments found_eq⟩ fun error => ?_
    rw [guarded_trapTest]
    rfl
  · refine .untouched fun error => ?_
    rw [guarded_trapTest_of_ne run isGiven]

end

end Calls

-----------------------------------------------------------------------------------------
-- Every evaluation
-----------------------------------------------------------------------------------------

section Evaluation

variable (context : Context) (name : Text) (given : List Argument)

mutual

/-- Selecting springs the trap only where it is declared to. -/
theorem trapped_select (segment : Segment) (node : Node)
    : Trapped (context.Declares name given) (segment.select context node)
        fun error => segment.select (context.trap name given error) node := by
  cases segment with
  | key _ | index _ | slice _ _ _ | wildcard | descendants =>
      simp only [Segment.select]
      exact .refl _
  | filter test =>
      simp only [Segment.select]
      exact .keep (fun child => trapped_holds test child.value) node.children
  | union selectors =>
      simp only [Segment.select]
      exact trapped_selectAll selectors node
termination_by structural segment

/-- The same of several selectors, by recursion on these. -/
theorem trapped_selectAll (selectors : List Segment) (node : Node)
    : Trapped (context.Declares name given) (selectAll context selectors node)
        fun error => selectAll (context.trap name given error) selectors node := by
  cases selectors with
  | nil =>
      simp only [selectAll]
      exact .refl _
  | cons selector selectors =>
      simp only [selectAll]
      exact (trapped_select selector node).bind fun first _ =>
        (trapped_selectAll selectors node).bind fun others _ => .refl _
termination_by structural selectors

/-- The same of segments, by recursion on these. -/
theorem trapped_apply (segments : List Segment) (nodes : List Node)
    : Trapped (context.Declares name given) (apply context segments nodes)
        fun error => apply (context.trap name given error) segments nodes := by
  cases segments with
  | nil =>
      simp only [apply]
      exact .refl _
  | cons segment segments =>
      cases isDescent : segment.isDescendants with
      | true =>
          obtain rfl := Segment.eq_descendants isDescent
          simp only [apply]
          exact trapped_descend segments nodes
      | false =>
          simp only [apply_cons isDescent]
          exact (Trapped.collect (trapped_select segment) nodes).bind fun found _ =>
            trapped_apply segments found
termination_by structural segments

/-- The same of segments behind a descent. -/
theorem trapped_descend (segments : List Segment) (nodes : List Node)
    : Trapped (context.Declares name given) (descend context segments nodes)
        fun error => descend (context.trap name given error) segments nodes := by
  cases segments with
  | nil =>
      simp only [descend]
      exact .refl _
  | cons segment segments =>
      cases isDescent : segment.isDescendants with
      | true =>
          obtain rfl := Segment.eq_descendants isDescent
          simp only [descend]
          exact .refl _
      | false =>
          simp only [descend_cons isDescent]
          exact (Trapped.collect (trapped_select segment) _).bind fun found _ =>
            trapped_apply segments found
termination_by structural segments

/-- Expressions spring the trap only where it is declared to, by recursion on the expression.
-/
theorem trapped_holds (e : Expression) (current : Value)
    : Trapped (context.Declares name given) (e.holds context current)
        fun error => e.holds (context.trap name given error) current := by
  cases e with
  | literal _ =>
      simp only [Expression.holds]
      exact .refl _
  | current segments =>
      simp only [Expression.holds]
      exact (trapped_apply segments _).bind fun found _ => .refl _
  | root segments =>
      simp only [Expression.holds]
      exact (trapped_apply segments _).bind fun found _ => .refl _
  | comparison comparator left right =>
      simp only [Expression.holds]
      exact (trapped_value left current).bind fun a _ =>
        (trapped_value right current).bind fun b _ => .refl _
  | conjunction operands =>
      simp only [Expression.holds]
      exact trapped_allHold operands current
  | disjunction operands =>
      simp only [Expression.holds]
      exact trapped_anyHolds operands current
  | negation operand =>
      simp only [Expression.holds]
      exact (trapped_holds operand current).bind fun b _ => .refl _
  | call called es =>
      simp only [Expression.holds, Context.function?_trap]
      cases known : context.function? called with
      | none => exact .refl _
      | some function =>
          have trappedArguments := trapped_arguments es function.parameters current
          obtain ⟨parameters, body⟩ := function
          cases body with
          | value _ => exact .refl _
          | logical run => exact trapped_call trappedArguments known run
          | nodes run =>
              exact (trapped_call trappedArguments known run).bind fun found _ => .refl _
termination_by structural e

theorem trapped_allHold (es : List Expression) (current : Value)
    : Trapped (context.Declares name given) (allHold context es current)
        fun error => allHold (context.trap name given error) es current := by
  cases es with
  | nil =>
      simp only [allHold]
      exact .refl _
  | cons e es =>
      simp only [allHold]
      refine (trapped_holds e current).bind fun b _ => ?_
      cases b with
      | true => exact trapped_allHold es current
      | false => exact .refl _
termination_by structural es

theorem trapped_anyHolds (es : List Expression) (current : Value)
    : Trapped (context.Declares name given) (anyHolds context es current)
        fun error => anyHolds (context.trap name given error) es current := by
  cases es with
  | nil =>
      simp only [anyHolds]
      exact .refl _
  | cons e es =>
      simp only [anyHolds]
      refine (trapped_holds e current).bind fun b _ => ?_
      cases b with
      | true => exact .refl _
      | false => exact trapped_anyHolds es current
termination_by structural es

theorem trapped_value (e : Expression) (current : Value)
    : Trapped (context.Declares name given) (e.value context current)
        fun error => e.value (context.trap name given error) current := by
  cases e with
  | literal _ | comparison _ _ _ | conjunction _ | disjunction _ | negation _ =>
      simp only [Expression.value]
      exact .refl _
  | current segments =>
      simp only [Expression.value]
      exact (trapped_apply segments _).bind fun found _ => .refl _
  | root segments =>
      simp only [Expression.value]
      exact (trapped_apply segments _).bind fun found _ => .refl _
  | call called es =>
      simp only [Expression.value, Context.function?_trap]
      cases known : context.function? called with
      | none => exact .refl _
      | some function =>
          have trappedArguments := trapped_arguments es function.parameters current
          obtain ⟨parameters, body⟩ := function
          cases body with
          | value run => exact trapped_call trappedArguments known run
          | logical run =>
              exact (trapped_call trappedArguments known run).bind fun found _ => .refl _
          | nodes run =>
              exact (trapped_call trappedArguments known run).bind fun found _ => .refl _
termination_by structural e

/-- The same of the nodes of an expression. -/
theorem trapped_nodes (e : Expression) (current : Value)
    : Trapped (context.Declares name given) (e.nodes context current)
        fun error => e.nodes (context.trap name given error) current := by
  cases e with
  | literal _ | comparison _ _ _ | conjunction _ | disjunction _ | negation _ =>
      simp only [Expression.nodes]
      exact .refl _
  | current segments =>
      simp only [Expression.nodes]
      exact (trapped_apply segments _).bind fun found _ => .refl _
  | root segments =>
      simp only [Expression.nodes]
      exact (trapped_apply segments _).bind fun found _ => .refl _
  | call called es =>
      simp only [Expression.nodes, Context.function?_trap]
      cases known : context.function? called with
      | none => exact .refl _
      | some function =>
          have trappedArguments := trapped_arguments es function.parameters current
          obtain ⟨parameters, body⟩ := function
          cases body with
          | value _ => exact .refl _
          | logical _ => exact .refl _
          | nodes run => exact trapped_call trappedArguments known run
termination_by structural e

/-- The same of the arguments of a call. -/
theorem trapped_arguments (es : List Expression) (kinds : List Kind) (current : Value)
    : Trapped (context.Declares name given) (arguments context es kinds current)
        fun error => arguments (context.trap name given error) es kinds current := by
  cases es with
  | nil =>
      simp only [arguments]
      exact .refl _
  | cons e es =>
      cases kinds with
      | nil =>
          simp only [arguments]
          exact .refl _
      | cons kind kinds =>
          have others := trapped_arguments es kinds current
          simp only [arguments]
          cases kind with
          | value =>
              exact ((trapped_value e current).map _).bind fun first _ =>
                others.bind fun rest _ => .refl _
          | logical =>
              exact ((trapped_holds e current).map _).bind fun first _ =>
                others.bind fun rest _ => .refl _
          | nodes =>
              exact ((trapped_nodes e current).map _).bind fun first _ =>
                others.bind fun rest _ => .refl _
termination_by structural es

end

end Evaluation

-----------------------------------------------------------------------------------------
-- Invocations
-----------------------------------------------------------------------------------------

/-- No two errors are the same, so an outcome that a trap decides depends on its error. -/
theorem not_forall_eq_error {α : Type} (x : Except EvaluationError α)
    : ¬∀ error, x = .error error := by
  intro all
  have same := (all .danglingDescent).symm.trans (all .descentInUnion)
  cases same

/-- A trap that springs with every error is declared to. -/
theorem Trapped.of_fails {α : Type} {declared : Prop} {x : Except EvaluationError α}
    {x' : EvaluationError → Except EvaluationError α} (h : Trapped declared x x')
    (fails : ∀ error, x' error = .error error)
    : declared := by
  cases h with
  | invoked asDeclared _ => exact asDeclared
  | untouched same =>
      exact absurd (fun error => (same error).symm.trans (fails error)) (not_forall_eq_error x)

/-- An evaluation in a context and with a trap that either starts with another one or fails
regardless of it.
-/
inductive StartsWith {α β : Type} (x : Except EvaluationError α)
    (x' : EvaluationError → Except EvaluationError α) (y : Except EvaluationError β)
    (y' : EvaluationError → Except EvaluationError β)
    : Prop
  | first (f : α → Except EvaluationError β) (f' : EvaluationError → α → Except EvaluationError β)
    (usual : y = x >>= f) (trapped : ∀ error, y' error = x' error >>= f' error)
  | error (e : EvaluationError) (usual : y = .error e) (trapped : ∀ error, y' error = .error e)

namespace StartsWith

variable {α β γ : Type} {x : Except EvaluationError α}
  {x' : EvaluationError → Except EvaluationError α} {y : Except EvaluationError β}
  {y' : EvaluationError → Except EvaluationError β}

theorem bind (h : StartsWith x x' y y') (g : β → Except EvaluationError γ)
    : StartsWith x x' (y >>= g) fun error => y' error >>= g := by
  cases h with
  | first f f' usual trapped =>
      refine .first (fun a => f a >>= g) (fun error a => f' error a >>= g) ?_ fun error => ?_
      · rw [usual, bind_assoc]
      · rw [trapped, bind_assoc]
  | error e usual trapped =>
      refine .error e ?_ fun error => ?_
      · rw [usual]
        rfl
      · rw [trapped]
        rfl

/-- When the first evaluation fails, so does the whole one. -/
theorem exists_error (h : StartsWith x x' y y') {e : EvaluationError} (failed : x = .error e)
    : ∃ error, y = .error error := by
  cases h with
  | first f _ usual _ =>
      refine ⟨e, ?_⟩
      rw [usual, failed]
      rfl
  | error e usual _ => exact ⟨e, usual⟩

/-- When the first evaluation fails, no trap decides the outcome but one that decides that of
the first.
-/
theorem fails (h : StartsWith x x' y y') {declared : Prop} (first : Trapped declared x x')
    {e : EvaluationError} (failed : x = .error e) (fails : ∀ error, y' error = .error error)
    : ∀ error, x' error = .error error := by
  cases first with
  | invoked _ fails => exact fails
  | untouched same =>
      cases h with
      | first _ f' _ trapped =>
          have constant error : y' error = .error e := by
            rw [trapped, same, failed]
            rfl
          exact absurd (fun error => (constant error).symm.trans (fails error))
            (not_forall_eq_error (.error e))
      | error e _ trapped =>
          exact absurd (fun error => (trapped error).symm.trans (fails error))
            (not_forall_eq_error (.error e))

end StartsWith

section Calls

variable {α : Type} {context : Context} {name called : Text} {given : List Argument}
  {function : Function} {es : List Expression} {current : Value}

/-- A call starts with giving its arguments. -/
theorem startsWith_call (run : List Argument → Except CallFailure α)
    : StartsWith (callArguments context called function es current)
        (fun error => callArguments (context.trap name given error) called function es current)
        (call called function es.length (arguments context es function.parameters current) run)
        fun error =>
          call called (function.guard (trapTest name given error called)) es.length
            (arguments (context.trap name given error) es function.parameters current)
            (guarded (trapTest name given error called) run) := by
  simp only [call_guard, call_eq_bind]
  exact .first _ _ rfl fun _ => rfl

section

variable (known : context.function? called = some function)

include known

/-- The truth of a call starts with its arguments. -/
theorem startsWith_holds
    : StartsWith (callArguments context called function es current)
        (fun error => callArguments (context.trap name given error) called function es current)
        ((Expression.call called es).holds context current)
        fun error => (Expression.call called es).holds (context.trap name given error) current := by
  simp only [Expression.holds, Context.function?_trap, known]
  obtain ⟨parameters, body⟩ := function
  cases body with
  | value _ => exact .error _ rfl fun _ => rfl
  | logical run => exact startsWith_call run
  | nodes run => exact (startsWith_call run).bind _

theorem startsWith_value
    : StartsWith (callArguments context called function es current)
        (fun error => callArguments (context.trap name given error) called function es current)
        ((Expression.call called es).value context current)
        fun error => (Expression.call called es).value (context.trap name given error) current := by
  simp only [Expression.value, Context.function?_trap, known]
  obtain ⟨parameters, body⟩ := function
  cases body with
  | value run => exact startsWith_call run
  | logical run => exact (startsWith_call run).bind _
  | nodes run => exact (startsWith_call run).bind _

theorem startsWith_nodes
    : StartsWith (callArguments context called function es current)
        (fun error => callArguments (context.trap name given error) called function es current)
        ((Expression.call called es).nodes context current)
        fun error => (Expression.call called es).nodes (context.trap name given error) current := by
  simp only [Expression.nodes, Context.function?_trap, known]
  obtain ⟨parameters, body⟩ := function
  cases body with
  | value _ => exact .error _ rfl fun _ => rfl
  | logical _ => exact .error _ rfl fun _ => rfl
  | nodes run => exact startsWith_call run

end

end Calls

-----------------------------------------------------------------------------------------
-- What can be given
-----------------------------------------------------------------------------------------

/-- The expression can be given where an argument of the kind is asked for. Queries always can
be. A value can also be a literal, a truth value anything with an operator, and a call can be
given for the kind of its result. A call with nodes as its result can be given for any kind.
-/
inductive Context.CanGive (context : Context) : Kind → Expression → Prop
  | current {kind segments} : CanGive context kind (.current segments)
  | root {kind segments} : CanGive context kind (.root segments)
  | literal {value} : CanGive context .value (.literal value)
  | comparison {comparator left right}
    : CanGive context .logical (.comparison comparator left right)
  | conjunction {operands} : CanGive context .logical (.conjunction operands)
  | disjunction {operands} : CanGive context .logical (.disjunction operands)
  | negation {operand} : CanGive context .logical (.negation operand)
  | call {kind name es function} (known : context.function? name = some function)
    (fits : function.result = kind ∨ function.result = .nodes)
    : CanGive context kind (.call name es)

section Giving

variable {context : Context} {e : Expression} {current : Value}

/-- Only what can be given for a value has one. -/
theorem canGive_of_value {value : Option Value} (h : e.value context current = .ok value)
    : context.CanGive .value e := by
  cases e with
  | literal _ => exact .literal
  | current _ => exact .current
  | root _ => exact .root
  | comparison _ _ _ | conjunction _ | disjunction _ | negation _ =>
      simp only [Expression.value] at h
      cases h
  | call name es =>
      simp only [Expression.value] at h
      split at h
      next => cases h
      next function known =>
        obtain ⟨parameters, body⟩ := function
        cases body with
        | value _ => exact .call known (.inl rfl)
        | nodes _ => exact .call known (.inr rfl)
        | logical run =>
            obtain ⟨_, _, failed⟩ := Outcome.bind_eq_ok.mp h
            cases failed

/-- Only what can be given for a truth value has one. -/
theorem canGive_of_holds {b : Bool} (h : e.holds context current = .ok b)
    : context.CanGive .logical e := by
  cases e with
  | literal _ =>
      simp only [Expression.holds] at h
      cases h
  | current _ => exact .current
  | root _ => exact .root
  | comparison _ _ _ => exact .comparison
  | conjunction _ => exact .conjunction
  | disjunction _ => exact .disjunction
  | negation _ => exact .negation
  | call name es =>
      simp only [Expression.holds] at h
      split at h
      next => cases h
      next function known =>
        obtain ⟨parameters, body⟩ := function
        cases body with
        | value _ => cases h
        | nodes _ => exact .call known (.inr rfl)
        | logical _ => exact .call known (.inl rfl)

/-- Only what can be given for nodes leads to some. -/
theorem canGive_of_nodes {values : List Value} (h : e.nodes context current = .ok values)
    : context.CanGive .nodes e := by
  cases e with
  | current _ => exact .current
  | root _ => exact .root
  | literal _ | comparison _ _ _ | conjunction _ | disjunction _ | negation _ =>
      simp only [Expression.nodes] at h
      cases h
  | call name es =>
      simp only [Expression.nodes] at h
      split at h
      next => cases h
      next function known =>
        obtain ⟨parameters, body⟩ := function
        cases body with
        | value _ => cases h
        | logical _ => cases h
        | nodes _ => exact .call known (.inl rfl)

/-- An expression only gives an argument of a kind that it can be given for. -/
theorem canGive_of_argument {kind : Kind} {found : Argument}
    (h : argument context e kind current = .ok found)
    : context.CanGive kind e := by
  cases kind with
  | value =>
      obtain ⟨_, value_eq, -⟩ := Outcome.map_eq_ok.mp h
      exact canGive_of_value value_eq
  | logical =>
      obtain ⟨_, holds_eq, -⟩ := Outcome.map_eq_ok.mp h
      exact canGive_of_holds holds_eq
  | nodes =>
      obtain ⟨_, nodes_eq, -⟩ := Outcome.map_eq_ok.mp h
      exact canGive_of_nodes nodes_eq

/-- Arguments are only found for expressions that can be given for their kinds, by induction
on the expressions.
-/
theorem canGive_of_arguments {es : List Expression} {kinds : List Kind} {found : List Argument}
    (h : arguments context es kinds current = .ok found) {kind : Kind}
    (paired : (e, kind) ∈ es.zip kinds)
    : context.CanGive kind e := by
  induction es generalizing kinds found with
  | nil => cases paired
  | cons first es ih =>
      cases kinds with
      | nil => cases paired
      | cons firstKind kinds =>
          simp only [arguments_cons, Outcome.bind_eq_ok] at h
          obtain ⟨_, first_eq, _, others_eq, -⟩ := h
          rw [List.zip_cons_cons, List.mem_cons] at paired
          obtain same | paired := paired
          · obtain ⟨rfl, rfl⟩ := Prod.mk.inj same
            exact canGive_of_argument first_eq
          · exact ih others_eq paired

/-- The arguments of a call cannot be given: they are not as many as the function declares, one
of them cannot be given for its kind, or the evaluation of one fails.
-/
inductive Ungivable (context : Context) (function : Function) (es : List Expression)
    (current : Value)
    : Prop
  | count (different : es.length ≠ function.parameters.length)
  | kind {e kind} (paired : (e, kind) ∈ es.zip function.parameters)
    (unfit : ¬context.CanGive kind e)
  | evaluation {error} (fails : arguments context es function.parameters current = .error error)

/-- When an argument cannot be given, giving the arguments fails. -/
theorem Ungivable.exists_error {function : Function} {es : List Expression} (called : Text)
    (h : Ungivable context function es current)
    : ∃ error, callArguments context called function es current = .error error := by
  unfold callArguments
  split
  next => exact ⟨_, rfl⟩
  next fits =>
    cases h with
    | count different => exact absurd different fits
    | evaluation fails => exact ⟨_, fails⟩
    | kind paired unfit =>
        cases found : arguments context es function.parameters current with
        | error error => exact ⟨error, rfl⟩
        | ok _ => exact absurd (canGive_of_arguments found paired) unfit

end Giving

-----------------------------------------------------------------------------------------
-- Invocations as declared
-----------------------------------------------------------------------------------------

/-- Whatever function the evaluation invokes, it does so with arguments as declared. -/
def InvokesAsDeclared {α : Type} (evaluation : Context → Except EvaluationError α)
    (context : Context)
    : Prop :=
  ∀ name given, Invokes evaluation context name given → context.Declares name given

/-- The evaluation fails, and it invokes functions only to evaluate the arguments of a call,
provided that they are as many as its function declares.
-/
def FailsAtArguments {α : Type} (evaluation : Context → Except EvaluationError α)
    (context : Context) (function : Function) (es : List Expression) (current : Value)
    : Prop :=
  (∃ error, evaluation context = .error error)
  ∧ ∀ name given,
    Invokes evaluation context name given
    → es.length = function.parameters.length
      ∧ Invokes (fun context => arguments context es function.parameters current) context name
          given

section Invocations

variable {context : Context} {called : Text} {function : Function} {es : List Expression}
  {current : Value}

/-- What starts with arguments that cannot be given fails, and invokes only what these invoke.
-/
theorem failsAtArguments {α : Type} {evaluation : Context → Except EvaluationError α}
    (starts
      : ∀ name given,
        StartsWith (callArguments context called function es current)
          (fun error => callArguments (context.trap name given error) called function es current)
          (evaluation context) fun error => evaluation (context.trap name given error))
    (ungivable : Ungivable context function es current)
    : FailsAtArguments evaluation context function es current := by
  obtain ⟨e, arguments_eq⟩ := ungivable.exists_error called
  refine ⟨(starts [] []).exists_error arguments_eq, fun name given invokes => ?_⟩
  have trappedArguments := trapped_arguments context name given es function.parameters current
  have fails := (starts name given).fails (trapped_callArguments trappedArguments) arguments_eq
    invokes
  unfold callArguments at fails
  split at fails
  next => exact absurd fails (not_forall_eq_error _)
  next fits => exact ⟨Decidable.not_not.mp fits, fails⟩

/-- The trap for the arguments of a call decides how the call ends. -/
theorem call_of_callArguments {α : Type} {given : List Argument}
    (arguments_eq : callArguments context called function es current = .ok given)
    (run : List Argument → Except CallFailure α) (error : EvaluationError)
    : call called (function.guard (trapTest called given error called)) es.length
        (arguments (context.trap called given error) es function.parameters current)
        (guarded (trapTest called given error called) run)
      = .error error := by
  have trappedArguments := trapped_arguments context called given es function.parameters current
  have trappedCall : Trapped _ (callArguments context called function es current) _ :=
    trapped_callArguments trappedArguments
  rw [call_guard, call_eq_bind]
  cases trappedCall with
  | invoked _ fails =>
      rw [fails]
      rfl
  | untouched same =>
      rw [same, arguments_eq, Outcome.ok_bind, guarded_trapTest]
      rfl

/-- A call whose arguments can be given invokes its function with them. -/
theorem invokes_holds {given : List Argument} (known : context.function? called = some function)
    (isTest : function.result ≠ .value)
    (arguments_eq : callArguments context called function es current = .ok given)
    : Invokes (fun context => (Expression.call called es).holds context current) context called
        given := by
  intro error
  simp only [Expression.holds, Context.function?_trap, known]
  obtain ⟨parameters, body⟩ := function
  cases body with
  | value _ => exact absurd rfl isTest
  | logical run => exact call_of_callArguments arguments_eq run error
  | nodes run =>
      have failed := call_of_callArguments arguments_eq run error
      exact Outcome.bind_of_error failed

/-- Functions are invoked only as they declare: an evaluation of a query or an expression
invokes a function only with as many arguments as it has parameters, each of the kind of its
parameter. When the arguments of a call cannot be given so, be it for their number, for what
one of them is or for how its evaluation ends, the evaluation of the call fails and does not
invoke the function for it.
-/
theorem invokes_only_as_declared (context : Context)
    : (∀ segments nodes, InvokesAsDeclared (fun context => apply context segments nodes) context)
      ∧ (∀ (e : Expression) current,
        InvokesAsDeclared (fun context => e.holds context current) context
        ∧ InvokesAsDeclared (fun context => e.value context current) context
        ∧ InvokesAsDeclared (fun context => e.nodes context current) context)
      ∧ ∀ called function es current,
        context.function? called = some function
        → Ungivable context function es current
        → FailsAtArguments (fun context => (Expression.call called es).holds context current)
            context function es current
          ∧ FailsAtArguments (fun context => (Expression.call called es).value context current)
              context function es current
          ∧ FailsAtArguments (fun context => (Expression.call called es).nodes context current)
              context function es current := by
  refine ⟨fun segments nodes name given => ?_, fun e current => ⟨?_, ?_, ?_⟩, ?_⟩
  · exact (trapped_apply context name given segments nodes).of_fails
  · exact fun name given => (trapped_holds context name given e current).of_fails
  · exact fun name given => (trapped_value context name given e current).of_fails
  · exact fun name given => (trapped_nodes context name given e current).of_fails
  · intro called function es current known ungivable
    exact ⟨failsAtArguments (fun _ _ => startsWith_holds known) ungivable,
      failsAtArguments (fun _ _ => startsWith_value known) ungivable,
      failsAtArguments (fun _ _ => startsWith_nodes known) ungivable⟩

/-- A registered function that is called with the right arguments, one that is called without
any, and one that is called with a literal for a truth value.
-/
theorem invokes_negate_only_as_declared
    : (Context.of .null [("negate", Extension.negate)]).Declares "negate" [.logical true]
      ∧ ∀ es ∈ [[], [Expression.literal (.bool true)]],
        ∃ error,
          (Expression.call "negate" es).holds (.of .null [("negate", Extension.negate)]) .null
            = .error error := by
  have known : (Context.of .null [("negate", Extension.negate)]).function? "negate"
      = some Extension.negate := rfl
  obtain ⟨_, declared, fails⟩ :=
    invokes_only_as_declared (.of .null [("negate", Extension.negate)])
  have invokes
      : Invokes (fun context => (Expression.call "negate" [.current []]).holds context .null)
          (.of .null [("negate", Extension.negate)]) "negate" [.logical true] :=
    invokes_holds known nofun rfl
  have failsAt (es : List Expression) (ungivable : Ungivable _ Extension.negate es .null) :=
    (fails "negate" Extension.negate es .null known ungivable).1.1
  have paired : (Expression.literal (.bool true), Kind.logical)
      ∈ [Expression.literal (.bool true)].zip Extension.negate.parameters :=
    List.mem_singleton_self _
  refine ⟨(declared _ _).1 "negate" _ invokes, ?_⟩
  simp only [List.forall_mem_cons, List.not_mem_nil, false_implies, implies_true, and_true]
  exact ⟨failsAt [] (.count (by decide)), failsAt [.literal (.bool true)] (.kind paired nofun)⟩

end Invocations

end JsonPath
