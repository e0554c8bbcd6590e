import JsonPath.Evaluation.Comparison
import JsonPath.Evaluation.Node
import JsonPath.Evaluation.Slice
import JsonPath.Function.Basic

/-! Evaluation of queries and expressions on a document. It goes down the query and into the
values that are compared as deep as these are nested: the stack of a host, which can end such
a recursion, is left aside. An evaluation only fails for the reasons named in its errors.
-/

namespace JsonPath

/-- What the evaluation of an expression can refer to: the whole document and the functions.
-/
structure Context where
  root : Value
  function? : Text → Option Function

/-- The results for all items one after another, up to the first error. -/
def collect {α β ε : Type} (results : α → Except ε (List β)) : List α → Except ε (List β)
  | [] => .ok []
  | item :: items => do
    let first ← results item
    let others ← collect results items
    return first ++ others

/-- The items that pass a test, up to the first error. -/
def keep {α ε : Type} (test : α → Except ε Bool) : List α → Except ε (List α)
  | [] => .ok []
  | item :: items => do
    let isKept ← test item
    let others ← keep test items
    return if isKept then item :: others else others

/-- The value of the only node of a query, absent when there is no single one. -/
def single : List Value → Option Value
  | [value] => some value
  | _ => none

/-- The error of a failed call of the function with this name. -/
def CallFailure.toError (name : Text) : CallFailure → EvaluationError
  | error e => e
  | raised => .raised name

/-- Calls a function with `count` arguments, which are evaluated only if that is what it
takes.
-/
def call {α : Type} (name : Text) (function : Function) (count : Nat)
    (arguments : Except EvaluationError (List Argument))
    (run : List Argument → Except CallFailure α) : Except EvaluationError α :=
  if count ≠ function.parameters.length then
    .error (.argumentCount name function.parameters.length count)
  else
    match arguments with
    | .error error => .error error
    | .ok arguments => (run arguments).mapError (·.toError name)

namespace Node

/-- The member with the given name. -/
def member (name : Text) (node : Node) : List Node :=
  match node.value with
  | .object members =>
    match Members.get? name members with
    | some value => [⟨value, node.location ++ [.name name]⟩]
    | none => []
  | _ => []

/-- The elements at the given positions. -/
def elementsAt (positions : List Nat) (node : Node) : List Node :=
  match node.value with
  | .array elements =>
    positions.filterMap fun position =>
      elements[position]?.map (⟨·, node.location ++ [.position position]⟩)
  | _ => []

/-- The number of elements of an array. -/
def size (node : Node) : Nat :=
  match node.value with
  | .array elements => elements.length
  | _ => 0

/-- The element at a position, where a negative one counts from the end. -/
def element (position : Int) (node : Node) : List Node :=
  let position := if position < 0 then position + node.size else position
  match position with
  | .ofNat position => node.elementsAt [position]
  | .negSucc _ => []

end Node

section Evaluation

variable (context : Context)

mutual

/-- The nodes that a selector selects from a node. -/
def Segment.select : Segment → Node → Except EvaluationError (List Node)
  | .key name, node => .ok (node.member name)
  | .index position, node => .ok (node.element position)
  | .slice start stop step, node =>
    .ok (node.elementsAt (Slice.indices node.size start stop step))
  | .wildcard, node => .ok node.children
  | .filter test, node => keep (fun child => test.holds child.value) node.children
  | .union selectors, node => selectAll selectors node
  | .descendants, _ => .error .descentInUnion

/-- The nodes that each of several selectors selects from a node. -/
def selectAll : List Segment → Node → Except EvaluationError (List Node)
  | [], _ => .ok []
  | selector :: selectors, node => do
    let first ← selector.select node
    let others ← selectAll selectors node
    return first ++ others

/-- The nodes that segments lead to from the given ones. A descent applies the selector
after it to the nodes and all their descendants.
-/
def apply : List Segment → List Node → Except EvaluationError (List Node)
  | [], nodes => .ok nodes
  | .descendants :: segments, nodes => descend segments nodes
  | segment :: segments, nodes => do apply segments (← collect segment.select nodes)

/-- The nodes that segments lead to after a descent. -/
def descend : List Segment → List Node → Except EvaluationError (List Node)
  | [], _ => .error .danglingDescent
  | .descendants :: _, _ => .error .danglingDescent
  | segment :: segments, nodes => do
    apply segments (← collect segment.select (nodes.flatMap Node.descendants))

/-- The truth value of an expression for the tested value. -/
def Expression.holds : Expression → Value → Except EvaluationError Bool
  | .literal value, _ => .error (.notTest (.literal value))
  | .current segments, current => do
    return !(← apply segments [⟨current, []⟩]).isEmpty
  | .root segments, _ => do
    return !(← apply segments [⟨context.root, []⟩]).isEmpty
  | .comparison comparator left right, current => do
    let left ← left.value current
    let right ← right.value current
    return comparator.holds left right
  | .conjunction operands, current => allHold operands current
  | .disjunction operands, current => anyHolds operands current
  | .negation operand, current => do return !(← operand.holds current)
  | .call name operands, current =>
    match context.function? name with
    | none => .error (.unknownFunction name)
    | some function =>
      match function.body with
      | .value _ => .error (.valueTest name)
      | .logical run =>
        call name function operands.length
          (arguments operands function.parameters current) run
      | .nodes run => do
        return !(← call name function operands.length
          (arguments operands function.parameters current) run).isEmpty

/-- Whether all expressions hold, up to the first that does not. -/
def allHold : List Expression → Value → Except EvaluationError Bool
  | [], _ => .ok true
  | operand :: operands, current => do
    if ← operand.holds current then allHold operands current else return false

/-- Whether some expression holds, up to the first that does. -/
def anyHolds : List Expression → Value → Except EvaluationError Bool
  | [], _ => .ok false
  | operand :: operands, current => do
    if ← operand.holds current then return true else anyHolds operands current

/-- The value of an expression for the tested value, which can be absent. -/
def Expression.value : Expression → Value → Except EvaluationError (Option Value)
  | .literal value, _ => .ok (some value)
  | .current segments, current => do
    return single ((← apply segments [⟨current, []⟩]).map (·.value))
  | .root segments, _ => do
    return single ((← apply segments [⟨context.root, []⟩]).map (·.value))
  | .call name operands, current =>
    match context.function? name with
    | none => .error (.unknownFunction name)
    | some function =>
      match function.body with
      | .value run =>
        call name function operands.length
          (arguments operands function.parameters current) run
      | .nodes run => do
        return single (← call name function operands.length
          (arguments operands function.parameters current) run)
      | .logical run => do
        let _ ← call name function operands.length
          (arguments operands function.parameters current) run
        .error (.logicalComparison name)
  | .comparison comparator left right, _ =>
    .error (.noValue (.comparison comparator left right))
  | .conjunction operands, _ => .error (.noValue (.conjunction operands))
  | .disjunction operands, _ => .error (.noValue (.disjunction operands))
  | .negation operand, _ => .error (.noValue (.negation operand))

/-- The values of the nodes that an expression stands for. -/
def Expression.nodes : Expression → Value → Except EvaluationError (List Value)
  | .current segments, current => do
    return (← apply segments [⟨current, []⟩]).map (·.value)
  | .root segments, _ => do
    return (← apply segments [⟨context.root, []⟩]).map (·.value)
  | .call name operands, current =>
    match context.function? name with
    | none => .error (.unknownFunction name)
    | some function =>
      match function.body with
      | .nodes run =>
        call name function operands.length
          (arguments operands function.parameters current) run
      | _ => .error (.notNodes (.call name operands))
  | .literal value, _ => .error (.notNodes (.literal value))
  | .comparison comparator left right, _ =>
    .error (.notNodes (.comparison comparator left right))
  | .conjunction operands, _ => .error (.notNodes (.conjunction operands))
  | .disjunction operands, _ => .error (.notNodes (.disjunction operands))
  | .negation operand, _ => .error (.notNodes (.negation operand))

/-- The arguments that expressions give for parameters of certain kinds. -/
def arguments : List Expression → List Kind → Value → Except EvaluationError (List Argument)
  | e :: es, kind :: kinds, current => do
    let first ←
      match kind with
      | .value => Argument.value <$> e.value current
      | .logical => Argument.logical <$> e.holds current
      | .nodes => Argument.nodes <$> e.nodes current
    let others ← arguments es kinds current
    return first :: others
  | _, _, _ => .ok []

end

end Evaluation

end JsonPath
