import JsonPath.Proofs.Evaluation.Calls
import JsonPath.Proofs.Evaluation.Simulation
import JsonPath.Proofs.Value.Equality

/-! Evaluations in which interchangeable values stand for each other. The functions that every
query can call do not tell such values apart: they look at the characters of strings and at
the sizes of everything else.
-/

namespace JsonPath

open Outcome (Related)

namespace Value

variable {a b : Value}

/-- Only the same string is interchangeable with a string. -/
theorem Interchangeable.eq_or_not_string (h : Interchangeable a b)
    : a = b ∨ (∀ t, a ≠ .string t) ∧ ∀ t, b ≠ .string t := by
  cases h with
  | same => exact .inl rfl
  | equal h =>
      have equal := h.equal
      cases a <;> cases b <;> simp [isEqual] at equal ⊢
      exact equal

/-- Equal values have the same length, or none. -/
theorem Interchangeable.lengthOf (h : Interchangeable a b)
    : Builtin.lengthOf [.value (some a)] = Builtin.lengthOf [.value (some b)] := by
  cases h with
  | same => rfl
  | equal h =>
      have equal := h.equal
      cases a with
      | array elements =>
          cases b with
          | array others => simp only [Builtin.lengthOf, (elementsEqual_iff.mp equal).length_eq]
          | _ => simp [isEqual] at equal
      | object members =>
          cases b with
          | object others => simp only [Builtin.lengthOf, (object_isEqual_iff.mp equal).1]
          | _ => simp [isEqual] at equal
      | string t =>
          cases b <;> simp [isEqual] at equal
          rw [equal]
      | null | bool _ | number _ =>
          cases b <;> simp [isEqual] at equal
          rfl

end Value

namespace Node

variable {node other : Node}

/-- Nodes with the same value at the same location are the same. -/
theorem Similar.eq (h : node.Similar Eq other) : node = other := by
  cases node
  cases other
  cases h.location
  cases h.value
  rfl

theorem Similar.refl (node : Node) : node.Similar Eq node :=
  ⟨rfl, rfl⟩

end Node

namespace Likeness

/-- Nodes with the same values have the same parts, in any arrangement. -/
theorem keepsParts_of_eq {likeness : Likeness} (same : likeness.value = Eq)
    : likeness.KeepsParts := by
  have found (nodes : List Node) : likeness.Found nodes nodes := by
    rw [Found, same]
    exact .refl Node.Similar.refl nodes
  constructor
  all_goals
    intro node other similar
    rw [same] at similar
    obtain rfl := similar.eq
  · rfl
  · exact fun _ => found _
  · exact fun _ => found _
  · exact found _
  · exact found _

/-- Paired nodes with the same values in the same order are the same nodes. -/
theorem eq_of_found {likeness : Likeness} (arranged : likeness.arrangement = .same)
    (same : likeness.value = Eq) {nodes nodes' : List Node} (found : likeness.Found nodes nodes')
    : nodes = nodes' := by
  rw [Found, same, arranged] at found
  obtain ⟨arranged, rfl, forall₂⟩ := found
  rw [← List.forall₂_eq_eq_eq]
  exact forall₂.imp fun _ _ similar => similar.eq

/-- Interchangeable operands, with queries from the root. -/
def interchange (arrangement : Arrangement) (value literal : Value → Value → Prop)
    : Likeness where
  arrangement
  value
  operand := Value.Interchangeable
  literal
  rooted := True

section Functions

variable {arrangement : Arrangement} {value literal : Value → Value → Prop}

/-- Strings are only given where the same strings are given in the other evaluation. -/
theorem Argument.string_iff {argument argument' : JsonPath.Argument}
    (alike : (interchange arrangement value literal).Argument argument argument') (t : Text)
    : argument = .value (some (.string t)) ↔ argument' = .value (some (.string t)) := by
  cases alike with
  | logical => simp
  | nodes _ => simp
  | value operands =>
      cases operands with
      | none => simp
      | some operands =>
          rcases operands.eq_or_not_string with rfl | ⟨noString, noString'⟩
          · exact Iff.rfl
          · simp [noString, noString']

variable {found found' : List JsonPath.Argument}
  (alike : List.Forall₂ (interchange arrangement value literal).Argument found found')

include alike

/-- Counting does not tell equal arguments apart. -/
theorem countOf_eq : Builtin.countOf found = Builtin.countOf found' := by
  rcases alike with _ | ⟨first, _ | _⟩
  · rfl
  · cases first with
    | value _ => rfl
    | logical => rfl
    | nodes paired => simp only [Builtin.countOf, paired.length_eq]
  · simp [Builtin.countOf]

/-- Lengths do not tell equal arguments apart. -/
theorem lengthOf_eq : Builtin.lengthOf found = Builtin.lengthOf found' := by
  rcases alike with _ | ⟨first, _ | _⟩
  · rfl
  · cases first with
    | logical => rfl
    | nodes _ => rfl
    | value operands =>
        cases operands with
        | none => rfl
        | some operands => exact operands.lengthOf
  · simp [Builtin.lengthOf]

/-- Tests of patterns do not tell equal arguments apart. -/
theorem testString_eq (compile : Text → Except Pattern.Fault Pattern)
    (test : Pattern → Text → Bool)
    : Builtin.testString compile test found = Builtin.testString compile test found' := by
  rcases alike with _ | ⟨first, _ | ⟨second, _ | _⟩⟩
  · rfl
  · simp [Builtin.testString]
  · rename_i subject subject' pattern pattern'
    by_cases strings
      : ∃ t t', subject = .value (some (.string t)) ∧ pattern = .value (some (.string t'))
    · obtain ⟨t, t', rfl, rfl⟩ := strings
      rw [(first.string_iff t).mp rfl, (second.string_iff t').mp rfl]
    · have noStrings
          : ¬∃ t t',
              subject' = .value (some (.string t)) ∧ pattern' = .value (some (.string t')) := by
        simpa only [first.string_iff, second.string_iff] using strings
      rw [Evaluation.testString_of_not_strings (by simpa using strings),
        Evaluation.testString_of_not_strings (by simpa using noStrings)]
  · simp [Builtin.testString]

/-- The only values of related arguments are related. -/
theorem onlyValue_related (values : ∀ {a b}, value a b → Value.Interchangeable a b)
    : Related Eq (Option.Rel Value.Interchangeable) (Builtin.onlyValue found)
        (Builtin.onlyValue found') := by
  rcases alike with _ | ⟨first, _ | _⟩
  · exact .ok .none
  · cases first with
    | logical => exact .ok .none
    | value _ => exact .ok .none
    | nodes paired =>
        have only (found : List Value)
            : Builtin.onlyValue [.nodes found] = .ok (single found) := by
          unfold Builtin.onlyValue single
          split <;> simp_all
        rw [only, only]
        exact .ok (single_of_pairs values paired)
  · simp only [Builtin.onlyValue]
    exact .ok .none

end Functions

section Builtins

variable {arrangement : Arrangement} {value literal : Value → Value → Prop}
  (values : ∀ {a b}, value a b → Value.Interchangeable a b)

include values

/-- The functions that every query can call take interchangeable arguments to interchangeable
results.
-/
theorem body_builtin (compile : Text → Except Pattern.Fault Pattern) (builtin : Builtin)
    : (interchange arrangement value literal).Body (builtin.body compile)
        (builtin.body compile) := by
  cases builtin with
  | count =>
      refine .value fun found found' alike => ?_
      rw [countOf_eq alike]
      exact .of_eq (fun _ => rfl) Value.Interchangeable.option_refl _
  | length =>
      refine .value fun found found' alike => ?_
      rw [lengthOf_eq alike]
      exact .of_eq (fun _ => rfl) Value.Interchangeable.option_refl _
  | fullMatch =>
      refine .logical fun found found' alike => ?_
      rw [testString_eq alike]
      exact .of_eq (fun _ => rfl) (fun _ => rfl) _
  | search =>
      refine .logical fun found found' alike => ?_
      rw [testString_eq alike]
      exact .of_eq (fun _ => rfl) (fun _ => rfl) _
  | value => exact .value fun found found' alike => onlyValue_related alike values

/-- Evaluations can be run side by side when the values of their nodes, their literals and the
results of their functions are interchangeable.
-/
theorem simulates_interchange (keepsParts : (interchange arrangement value literal).KeepsParts)
    (literals : ∀ {a b}, literal a b → Value.Interchangeable a b) {context other : Context}
    (roots : value context.root other.root)
    (functions
      : ∀ name,
          Option.Rel (interchange arrangement value literal).Function (context.function? name)
            (other.function? name))
    : (interchange arrangement value literal).Simulates context other where
  keepsParts
  operand_of_value := values
  operand_of_literal := literals
  comparisons := fun comparator _ _ _ _ first second => comparator.holds_congr first second
  root := fun _ => roots
  functions

/-- With no functions registered, only the values of the nodes and the literals matter. -/
theorem simulates_builtins (compile : Text → Except Pattern.Fault Pattern)
    (keepsParts : (interchange arrangement value literal).KeepsParts)
    (literals : ∀ {a b}, literal a b → Value.Interchangeable a b) {root root' : Value}
    (roots : value root root')
    : (interchange arrangement value literal).Simulates (.builtins compile root)
        (.builtins compile root') := by
  refine simulates_interchange values keepsParts literals roots fun name => ?_
  rw [Context.function?_builtins, Context.function?_builtins]
  cases Builtin.ofName? name with
  | none => exact .none
  | some builtin => exact .some ⟨rfl, body_builtin values compile builtin⟩

end Builtins

end Likeness

end JsonPath
