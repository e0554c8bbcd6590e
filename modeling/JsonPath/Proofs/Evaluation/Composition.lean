import JsonPath.Proofs.Evaluation.Interchange
import JsonPath.Proofs.Location.Shift

/-! Evaluation is compositional and local. Segments are applied to all nodes found so far at
once, and yet what they lead to is, in order, what they lead to from each of these nodes
alone. Unless they contain queries from the root, it depends on the values of the nodes only.
-/

namespace JsonPath

-----------------------------------------------------------------------------------------
-- Results of one item after another
-----------------------------------------------------------------------------------------

/-- The results for a list are those for its parts one after another, and there are results
exactly if there are some for all parts. Nothing is said about errors: which one comes first
depends on the order of evaluation.
-/
structure IsLinear {α β ε : Type} (f : List α → Except ε (List β)) : Prop where
  nil : f [] = .ok []
  append
    : ∀ {items others found},
        f (items ++ others) = .ok found
        ↔ ∃ first second, f items = .ok first ∧ f others = .ok second ∧ found = first ++ second

namespace IsLinear

variable {α β γ ε : Type}

/-- Returning all items is linear. -/
theorem ok : IsLinear fun items : List α => (.ok items : Except ε (List α)) where
  nil := rfl
  append {items others found} := by
    constructor
    · intro h
      exact ⟨items, others, rfl, rfl, (Except.ok.inj h).symm⟩
    · rintro ⟨_, _, ⟨⟩, ⟨⟩, rfl⟩
      rfl

/-- Collecting from each item is linear, as collecting from one list after the other. -/
theorem collect (results : α → Except ε (List β)) : IsLinear (JsonPath.collect results) where
  nil := rfl
  append {items others found} := by
    induction items generalizing found with
    | nil => simp [JsonPath.collect]
    | cons item items ih =>
        simp only [List.cons_append, JsonPath.collect, Outcome.bind_eq_ok, Outcome.pure_eq_ok, ih]
        constructor
        · rintro ⟨found, item_eq, _, ⟨first, second, items_eq, others_eq, rfl⟩, rfl⟩
          exact ⟨_, second, ⟨found, item_eq, first, items_eq, rfl⟩, others_eq, by simp⟩
        · rintro ⟨_, second, ⟨found, item_eq, first, items_eq, rfl⟩, others_eq, rfl⟩
          exact ⟨found, item_eq, _, ⟨first, second, items_eq, others_eq, rfl⟩, by simp⟩

/-- Linear steps in sequence are linear. -/
theorem bind {f : List α → Except ε (List β)} {g : List β → Except ε (List γ)}
    (first : IsLinear f) (second : IsLinear g)
    : IsLinear fun items => f items >>= g where
  nil := by
    rw [first.nil, Outcome.ok_bind, second.nil]
  append {items others found} := by
    simp only [Outcome.bind_eq_ok, first.append]
    constructor
    · rintro ⟨_, ⟨between, between', items_eq, others_eq, rfl⟩, found_eq⟩
      obtain ⟨found, found', first_eq, second_eq, rfl⟩ := second.append.mp found_eq
      exact ⟨found, found', ⟨between, items_eq, first_eq⟩, ⟨between', others_eq, second_eq⟩, rfl⟩
    · rintro ⟨found, found', ⟨between, items_eq, first_eq⟩, ⟨between', others_eq, second_eq⟩, rfl⟩
      refine ⟨_, ⟨between, between', items_eq, others_eq, rfl⟩, ?_⟩
      exact second.append.mpr ⟨found, found', first_eq, second_eq, rfl⟩

/-- A linear step from the parts of each item is linear. -/
theorem flatMap {f : List β → Except ε (List γ)} (linear : IsLinear f) (parts : α → List β)
    : IsLinear fun items => f (items.flatMap parts) where
  nil := linear.nil
  append := by
    intro items others found
    rw [List.flatMap_append]
    exact linear.append

/-- The results are found item by item, by induction on the items. -/
theorem eq_ok_iff {f : List α → Except ε (List β)} (linear : IsLinear f) {items : List α}
    {found : List β}
    : f items = .ok found
      ↔ ∃ parts,
          List.Forall₂ (fun item part => f [item] = .ok part) items parts
          ∧ found = parts.flatten := by
  induction items generalizing found with
  | nil =>
      rw [linear.nil]
      constructor
      · rintro ⟨⟩
        exact ⟨[], .nil, rfl⟩
      · rintro ⟨_, ⟨⟩, rfl⟩
        rfl
  | cons item items ih =>
      rw [← List.singleton_append, linear.append]
      constructor
      · rintro ⟨part, _, item_eq, items_eq, rfl⟩
        obtain ⟨parts, forall₂, rfl⟩ := ih.mp items_eq
        exact ⟨part :: parts, .cons item_eq forall₂, rfl⟩
      · rintro ⟨_, _ | ⟨item_eq, forall₂⟩, rfl⟩
        exact ⟨_, _, item_eq, ih.mpr ⟨_, forall₂, rfl⟩, rfl⟩

end IsLinear

-----------------------------------------------------------------------------------------
-- Complete queries
-----------------------------------------------------------------------------------------

/-- A selector immediately follows every descent. -/
inductive Query.IsComplete : Query → Prop
  | nil : IsComplete []
  | child {segment segments} (selector : segment.isDescendants = false)
    (others : IsComplete segments)
    : IsComplete (segment :: segments)
  | descent {segment segments} (selector : segment.isDescendants = false)
    (others : IsComplete segments)
    : IsComplete (.descendants :: segment :: segments)

section Complete

variable {context : Context} {query : Query} (complete : query.IsComplete)

include complete

/-- To apply one query after another is to apply the other to what the first one finds. -/
theorem apply_append (other : Query) (nodes : List Node)
    : apply context (query ++ other) nodes
        = apply context query nodes >>= apply context other := by
  induction complete generalizing nodes with
  | nil =>
      rw [apply]
      rfl
  | child selector _ ih =>
      rw [List.cons_append, apply_cons selector, apply_cons selector, bind_assoc]
      exact congrArg _ (funext ih)
  | descent selector _ ih =>
      rw [List.cons_append, List.cons_append, apply, apply, descend_cons selector,
        descend_cons selector, bind_assoc]
      exact congrArg _ (funext ih)

/-- Applying segments is linear in the nodes, by induction on the segments. -/
theorem isLinear_apply : IsLinear (apply context query) := by
  induction complete with
  | nil =>
      have applied : apply context [] = Except.ok := funext fun nodes => by rw [apply]
      rw [applied]
      exact .ok
  | @child segment segments selector _ ih =>
      rw [funext (apply_cons selector)]
      exact (IsLinear.collect (segment.select context)).bind ih
  | @descent segment segments selector _ ih =>
      have applied (nodes : List Node)
          : apply context (.descendants :: segment :: segments) nodes
              = collect (segment.select context) (nodes.flatMap Node.descendants)
                >>= apply context segments := by
        rw [apply, descend_cons selector]
      rw [funext applied]
      exact ((IsLinear.collect (segment.select context)).bind ih).flatMap Node.descendants

end Complete

-----------------------------------------------------------------------------------------
-- Other documents
-----------------------------------------------------------------------------------------

/-- Two evaluations on the same values, without queries from the root. -/
def sameValues : Likeness where
  arrangement := .same
  value := Eq
  operand := Eq
  literal := Eq
  rooted := False

/-- Optional values with equal contents are equal. -/
theorem option_eq_of_rel {α : Type} {a b : Option α} (h : Option.Rel Eq a b) : a = b := by
  cases h with
  | none => rfl
  | some same => exact congrArg _ same

/-- Values that are paired in the same order are the same lists. -/
theorem eq_of_pairs_same {values values' : List Value}
    (h : Arrangement.same.Pairs Eq values values')
    : values = values' := by
  obtain ⟨_, rfl, forall₂⟩ := h
  rwa [List.forall₂_eq_eq_eq] at forall₂

/-- Arguments whose values are the same are the same. -/
theorem eq_of_sameValues {argument argument' : Argument}
    (h : sameValues.Argument argument argument')
    : argument = argument' := by
  cases h with
  | value operands => exact congrArg _ (option_eq_of_rel operands)
  | logical => rfl
  | nodes paired => exact congrArg _ (eq_of_pairs_same paired)

/-- Every function takes the same arguments to the same results. -/
theorem sameValues_body (body : Body) : sameValues.Body body body := by
  have same {found found' : List Argument}
      (alike : List.Forall₂ sameValues.Argument found found')
      : found = found' := by
    rw [← List.forall₂_eq_eq_eq]
    exact alike.imp fun _ _ => eq_of_sameValues
  cases body with
  | value run =>
      refine .value fun found found' alike => ?_
      obtain rfl := same alike
      refine .of_eq (fun _ => rfl) (fun result => ?_) _
      cases result with
      | none => exact .none
      | some _ => exact .some rfl
  | logical run =>
      refine .logical fun found found' alike => ?_
      obtain rfl := same alike
      exact .of_eq (fun _ => rfl) (fun _ => rfl) _
  | nodes run =>
      refine .nodes fun found found' alike => ?_
      obtain rfl := same alike
      exact .of_eq (fun _ => rfl) (Arrangement.Pairs.refl fun _ => rfl) _

/-- Contexts that differ in their roots only simulate each other as long as values are the
same.
-/
theorem simulates_sameValues (root root' : Value) (registry : Registry)
    : sameValues.Simulates (.of root registry) (.of root' registry) where
  keepsParts := Likeness.keepsParts_of_eq rfl
  operand_of_value := id
  operand_of_literal := id
  comparisons := fun comparator _ _ _ _ first second => by
    rw [option_eq_of_rel first, option_eq_of_rel second]
  root := False.elim
  functions := fun name => by
    dsimp only [Context.of]
    cases Registry.function? registry name with
    | none => exact .none
    | some function => exact .some ⟨rfl, sameValues_body function.body⟩

/-- Without queries from the root, the nodes found do not depend on the document around the
nodes that the query is applied to.
-/
theorem apply_eq_ok_of_isRootFree {query : Query} (rootFree : query.isRootFree)
    (root root' : Value) {registry : Registry} {nodes found : List Node}
    (h : apply (.of root registry) query nodes = .ok found)
    : apply (.of root' registry) query nodes = .ok found := by
  have similar : Query.Similar Eq False query query :=
    Query.similar_self (fun _ => rfl) query (.inr rootFree)
  have start : sameValues.Found nodes nodes := .refl Node.Similar.refl nodes
  have related :=
    Likeness.related_apply (simulates_sameValues root root' registry) query similar start
  obtain ⟨found', h'⟩ := related.exists_ok_iff.mp ⟨found, h⟩
  rw [h', Likeness.eq_of_found rfl rfl (related.results h h')]

-----------------------------------------------------------------------------------------
-- Queries on what queries find
-----------------------------------------------------------------------------------------

/-- A query finds from a node what it finds in its value as a document of its own, under the
location of the node.
-/
theorem Query.apply_node_eq_ok {query : Query} (rootFree : query.isRootFree) (root : Value)
    {registry : Registry} {node : Node} {part : List Node}
    : apply (.of root registry) query [node] = .ok part
      ↔ ∃ nodes, query.find node.value registry = .ok nodes
          ∧ part = nodes.map (Node.under node.location) := by
  have moved : [node] = [⟨node.value, []⟩].map (Node.under node.location) := by
    simp [Node.under]
  rw [moved, apply_under, Outcome.map_eq_ok]
  constructor
  · rintro ⟨nodes, found, rfl⟩
    exact ⟨nodes, apply_eq_ok_of_isRootFree rootFree root node.value found, rfl⟩
  · rintro ⟨nodes, found, rfl⟩
    exact ⟨nodes, apply_eq_ok_of_isRootFree rootFree node.value root found, rfl⟩

/-- One query after another finds nodes exactly if the first one finds some and the other
finds some in the value of each of them as a document of its own. These are then found one
after another, under the locations of the nodes that the first query finds.
-/
theorem Query.find_append {query other : Query} (complete : query.IsComplete)
    (otherComplete : other.IsComplete) (rootFree : other.isRootFree) (document : Value)
    (registry : Registry) (found : List Node)
    : Query.find (query ++ other) document registry = .ok found
      ↔ ∃ origins,
          query.find document registry = .ok origins
          ∧ ∃ parts,
              List.Forall₂
                (fun origin part =>
                  ∃ nodes, other.find origin.value registry = .ok nodes
                    ∧ part = nodes.map (Node.under origin.location))
                origins parts
              ∧ found = parts.flatten := by
  rw [find, apply_append complete, Outcome.bind_eq_ok]
  refine exists_congr fun origins => and_congr_right fun _ => ?_
  rw [(isLinear_apply otherComplete).eq_ok_iff]
  simp only [Query.apply_node_eq_ok rootFree]

/-- An array inside of two objects. -/
def doubled : Value :=
  .object [([.char 'a'], .object [([.char 'a'], .array [.bool true])])]

/-- What is below the members found at both depths, in order. -/
theorem Query.find_doubled
    : Query.find [.descendants, .key [.char 'a']] doubled []
          = .ok [⟨.object [([.char 'a'], .array [.bool true])], [.name [.char 'a']]⟩,
            ⟨.array [.bool true], [.name [.char 'a'], .name [.char 'a']]⟩]
      ∧ Query.find ([.descendants, .key [.char 'a']] ++ [.wildcard]) doubled []
          = .ok [⟨.array [.bool true], [.name [.char 'a'], .name [.char 'a']]⟩,
            ⟨.bool true, [.name [.char 'a'], .name [.char 'a'], .position 0]⟩] := by
  have first : Query.IsComplete [.descendants, .key [.char 'a']] := .descent rfl .nil
  have second : Query.IsComplete [.wildcard] := .child rfl .nil
  refine ⟨rfl, (Query.find_append first second rfl doubled [] _).mpr ⟨_, rfl, ?_⟩⟩
  refine ⟨[[⟨.array [.bool true], _⟩], [⟨.bool true, _⟩]], ?_, rfl⟩
  exact .cons ⟨_, rfl, rfl⟩ (.cons ⟨_, rfl, rfl⟩ .nil)

end JsonPath
