import JsonPath.Proofs.Evaluation.Segments
import JsonPath.Proofs.Formation.Expressions
import JsonPath.Proofs.Location.Placement

/-! Singular queries: each of their segments finds at most one child, so that they never fail
and find at most one node, one step deeper for each segment. In parsed queries and filter
expressions only such queries stand where a single value is needed, so that the value there
is absent only when nothing is found.
-/

namespace JsonPath

namespace Node

/-- At most one member has the name. -/
theorem exists_member (name : Text) (node : Node)
    : ∃ found : Option Node, node.member name = found.toList := by
  unfold member
  split
  next members _ =>
    cases Members.get? name members with
    | none => exact ⟨none, rfl⟩
    | some value => exact ⟨some _, rfl⟩
  next => exact ⟨none, rfl⟩

/-- At one position there is an element or none. -/
theorem exists_elementAt (position : Nat) (node : Node)
    : ∃ found : Option Node, node.elementsAt [position] = found.toList := by
  unfold elementsAt
  split
  next elements _ =>
    cases found : elements[position]? with
    | none => exact ⟨none, by simp [found]⟩
    | some value =>
        exact ⟨some ⟨value, node.location ++ [.position position]⟩, by simp [found]⟩
  next => exact ⟨none, rfl⟩

/-- At most one element is at the position, wherever it is counted from. -/
theorem exists_element (position : Int) (node : Node)
    : ∃ found : Option Node, node.element position = found.toList := by
  dsimp only [element]
  generalize (if position < 0 then position + node.size else position) = fromStart
  cases fromStart with
  | ofNat position => exact exists_elementAt position node
  | negSucc _ => exact ⟨none, rfl⟩

end Node

-----------------------------------------------------------------------------------------
-- Evaluation
-----------------------------------------------------------------------------------------

section Evaluation

variable {context : Context}

/-- A singular segment selects at most one node, a child. -/
theorem Segment.select_of_isSingular {segment : Segment} (singular : segment.isSingular)
    (node : Node)
    : ∃ found : Option Node,
      segment.select context node = .ok found.toList ∧ ∀ other ∈ found, node.IsChild other := by
  cases segment with
  | key name =>
      obtain ⟨found, isMember⟩ := node.exists_member name
      refine ⟨found, by rw [Segment.select, isMember], fun other inside => ?_⟩
      exact Node.isChild_of_member (isMember ▸ Option.mem_toList.mpr inside)
  | index position =>
      obtain ⟨found, isElement⟩ := node.exists_element position
      refine ⟨found, by rw [Segment.select, isElement], fun other inside => ?_⟩
      exact Node.isChild_of_element (isElement ▸ Option.mem_toList.mpr inside)
  | slice _ _ _ => cases singular
  | wildcard => cases singular
  | filter _ => cases singular
  | union _ => cases singular
  | descendants => cases singular

/-- A descent is not singular. -/
theorem Segment.notDescendants_of_isSingular {segment : Segment} (singular : segment.isSingular)
    : segment.isDescendants = false := by
  cases segment with
  | descendants => cases singular
  | _ => rfl

/-- Singular segments lead from at most one node to at most one node, with one step for each
of them, by induction on the segments.
-/
theorem apply_of_isSingular {query : Query} (singular : query.isSingular) (start : Option Node)
    : ∃ found : Option Node,
      apply context query start.toList = .ok found.toList
      ∧ ∀ node ∈ found,
        ∃ origin ∈ start, node.location.length = origin.location.length + query.length := by
  induction query generalizing start with
  | nil => exact ⟨start, by rw [apply], fun node inside => ⟨node, inside, rfl⟩⟩
  | cons segment segments ih =>
      obtain ⟨first, others⟩ := Bool.and_eq_true_iff.mp (List.all_cons.symm.trans singular)
      rw [apply_cons (Segment.notDescendants_of_isSingular first)]
      cases start with
      | none =>
          obtain ⟨found, evaluated, below⟩ := ih others none
          exact ⟨found, evaluated, fun node inside => absurd (below node inside) (by simp)⟩
      | some origin =>
          obtain ⟨next, selected, isChild⟩ : ∃ next : Option Node,
              segment.select context origin = .ok next.toList
              ∧ ∀ node ∈ next, origin.IsChild node :=
            Segment.select_of_isSingular first origin
          obtain ⟨found, evaluated, below⟩ := ih others next
          refine ⟨found, ?_, fun node inside => ⟨origin, rfl, ?_⟩⟩
          · simp [collect, selected, Outcome.ok_bind, pure, Except.pure, evaluated]
          · obtain ⟨child, isNext, length⟩ := below node inside
            obtain ⟨step, _, located⟩ := isChild child isNext
            rw [length, located, List.length_append, List.length_singleton, List.length_cons]
            omega

theorem single_toList (found : Option Value) : single found.toList = found := by
  cases found <;> rfl

/-- A singular query inside an expression has the value of the only node that it finds. -/
theorem Expression.value_of_isSingular {e : Expression} {query : Query}
    (isQuery : Syntax.segments? e = some query) (singular : query.isSingular) (current : Value)
    : ∃ found : Option Value,
      e.nodes context current = .ok found.toList ∧ e.value context current = .ok found := by
  have finds (start : Value)
      : ∃ (nodes : List Node) (found : Option Value),
        apply context query [⟨start, []⟩] = .ok nodes ∧ nodes.map (·.value) = found.toList := by
    obtain ⟨found, evaluated, _⟩ := apply_of_isSingular singular (some ⟨start, []⟩)
    exact ⟨_, found.map (·.value), evaluated, by cases found <;> rfl⟩
  cases e with
  | current segments =>
      obtain rfl := Option.some.inj isQuery
      obtain ⟨nodes, found, evaluated, only⟩ := finds current
      refine ⟨found, by rw [Expression.nodes, evaluated, ← only]; rfl, ?_⟩
      rw [Expression.value, evaluated, Outcome.ok_bind, only, single_toList]
      rfl
  | root segments =>
      obtain rfl := Option.some.inj isQuery
      obtain ⟨nodes, found, evaluated, only⟩ := finds context.root
      refine ⟨found, by rw [Expression.nodes, evaluated, ← only]; rfl, ?_⟩
      rw [Expression.value, evaluated, Outcome.ok_bind, only, single_toList]
      rfl
  | _ => cases isQuery

end Evaluation

-----------------------------------------------------------------------------------------
-- Where a value is needed
-----------------------------------------------------------------------------------------

/-- The expression needs a single value of the operand, which is a side of a comparison or an
argument that a function every query can call takes as a value.
-/
inductive Expression.NeedsValue : Expression → Expression → Prop
  | left {comparator left right} : NeedsValue (.comparison comparator left right) left
  | right {comparator left right} : NeedsValue (.comparison comparator left right) right
  | argument {name arguments builtin operand} (place : Nat)
    (known : Builtin.ofName? name = some builtin) (given : arguments[place]? = some operand)
    (isValue : builtin.signature.parameters[place]? = some .value)
    : NeedsValue (.call name arguments) operand

namespace Formation

variable {Nested : Expression → Prop}

/-- The sides of a well-formed comparison can be compared. -/
theorem comparable_of_disjunction {comparator : Comparator} {left right : Expression}
    (h : Disjunction Nested (.comparison comparator left right))
    : left.IsComparable ∧ right.IsComparable := by
  obtain ⟨⟨basic⟩⟩ := h
  cases basic with
  | primary formed => cases formed
  | comparison _ _ leftComparable rightComparable => exact ⟨leftComparable, rightComparable⟩

/-- The arguments of a well-formed call fit the function. -/
theorem fitCall_of_disjunction {name : Text} {arguments : List Expression}
    (h : Disjunction Nested (.call name arguments))
    : Expression.FitCall name arguments := by
  cases Primary.of_disjunction h rfl with
  | call _ _ fitCall => exact fitCall

/-- Of the queries, only singular ones can be given for a value. -/
theorem isSingular_of_isArgument {operand : Expression} {query : Query}
    (isArgument : Syntax.isArgument operand .value)
    (isQuery : Syntax.segments? operand = some query)
    : query.isSingular := by
  cases operand with
  | current _ | root _ =>
      obtain rfl := Option.some.inj isQuery
      simpa [Syntax.isArgument, Syntax.isLiteral, Syntax.segments?, Syntax.isCall]
        using isArgument
  | _ => cases isQuery

/-- Queries are singular where a formed expression needs a value. -/
theorem isSingular_of_needsValue {e operand : Expression} {query : Query}
    (h : Disjunction Nested e) (needs : e.NeedsValue operand)
    (isQuery : Syntax.segments? operand = some query)
    : query.isSingular := by
  cases needs with
  | left => exact (comparable_of_disjunction h).1.1 query isQuery
  | right => exact (comparable_of_disjunction h).2.1 query isQuery
  | argument place known given isValue =>
      obtain ⟨_, fits⟩ := List.forall₂_iff_get.mp (fitCall_of_disjunction h _ known)
      obtain ⟨inArguments, rfl⟩ := List.getElem?_eq_some_iff.mp given
      obtain ⟨inParameters, isValue⟩ := List.getElem?_eq_some_iff.mp isValue
      have isArgument := fits place inArguments inParameters
      simp only [List.get_eq_getElem, isValue] at isArgument
      exact isSingular_of_isArgument isArgument isQuery

end Formation

/-- In parsed queries and filter expressions, a query is singular wherever a single value is
needed, and this value is that of the only node it finds, absent only when it finds none.
Any singular query has a result in every document and with any functions: at most one node,
with one step in its location for each segment.
-/
theorem isSingular_of_parseWithin (depth : Nat) (t : Text) (document : Value)
    (registry : Registry)
    : (∀ parent operand query,
        ((∃ found, Query.parseWithin depth t = .ok found ∧ parent ∈ found.expressions)
          ∨ ∃ e, Expression.parseWithin depth t = .ok e ∧ parent ∈ e.expressions)
        → parent.NeedsValue operand
        → Syntax.segments? operand = some query
        → query.isSingular
          ∧ ∀ current,
            ∃ found : Option Value,
              operand.nodes (.of document registry) current = .ok found.toList
              ∧ operand.value (.of document registry) current = .ok found)
      ∧ ∀ query : Query,
          query.isSingular
          → ∃ found : Option Node,
            query.find document registry = .ok found.toList
            ∧ ∀ node ∈ found, node.location.length = query.length := by
  constructor
  · intro parent operand query parsed needs isQuery
    have formed : ∃ depth, Formation.Formed depth parent := by
      rcases parsed with ⟨found, parsed, inside⟩ | ⟨e, parsed, inside⟩
      · exact Query.formed_of_parseWithin parsed inside
      · exact Expression.formed_of_parseWithin parsed inside
    obtain ⟨level, formed⟩ := formed
    have singular : query.isSingular := by
      cases level with
      | zero => cases formed
      | succ _ => exact Formation.isSingular_of_needsValue formed needs isQuery
    exact ⟨singular, Expression.value_of_isSingular isQuery singular⟩
  · intro query singular
    obtain ⟨found, evaluated, below⟩ := apply_of_isSingular singular (some ⟨document, []⟩)
    refine ⟨found, evaluated, fun node inside => ?_⟩
    obtain ⟨origin, isStart, length⟩ := below node inside
    obtain rfl := Option.some.inj isStart
    simpa using length

/-- Spells the query of the elements whose member `a` has not the length that is their member
`b`.
-/
def lengthText : Text :=
  [.char '$', .char '[', .char '?', .char 'l', .char 'e', .char 'n', .char 'g', .char 't',
    .char 'h', .char '(', .char '@', .char '.', .char 'a', .char ')', .char '!', .char '=',
    .char '@', .char '.', .char 'b', .char ']']

def lengthCall : Expression :=
  .call [.char 'l', .char 'e', .char 'n', .char 'g', .char 't', .char 'h']
    [.current [.key [.char 'a']]]

def lengthQuery : Query :=
  [.filter (.comparison .notEqual lengthCall (.current [.key [.char 'b']]))]

/-- The argument of the call is a singular query. It has a value in every value, and finds at
most one node in a document.
-/
theorem isSingular_lengthArgument
    : Query.parseWithin 3 lengthText = .ok lengthQuery
      ∧ lengthCall ∈ lengthQuery.expressions
      ∧ lengthCall.NeedsValue (.current [.key [.char 'a']])
      ∧ Query.isSingular [.key [.char 'a']]
      ∧ (∃ found : Option Value,
        Expression.nodes (.of .null []) (.current [.key [.char 'a']])
            (.object [([.char 'a'], .bool true)])
          = .ok found.toList
        ∧ Expression.value (.of .null []) (.current [.key [.char 'a']])
            (.object [([.char 'a'], .bool true)])
          = .ok found)
      ∧ ∃ found : Option Node,
        Query.find [.key [.char 'a']] .null [] = .ok found.toList
        ∧ ∀ node ∈ found, node.location.length = 1 := by
  have parsed : Query.parseWithin 3 lengthText = .ok lengthQuery := rfl
  have inside : lengthCall ∈ lengthQuery.expressions := by
    simp [lengthQuery, lengthCall, Query.expressions, Segment.expressions,
      Expression.expressions]
  have needs : lengthCall.NeedsValue (.current [.key [.char 'a']]) := .argument 0 rfl rfl rfl
  obtain ⟨whereNeeded, everywhere⟩ := isSingular_of_parseWithin 3 lengthText .null []
  obtain ⟨singular, values⟩ := whereNeeded _ _ _ (.inl ⟨_, parsed, inside⟩) needs rfl
  exact ⟨parsed, inside, needs, singular, values _, everywhere _ singular⟩

end JsonPath
