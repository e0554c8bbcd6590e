import JsonPath.Proofs.Formation.Derivation
import JsonPath.Proofs.Parsing
import JsonPath.Query.Builder

/-! Queries that can be reached: those that are parsed or built call by call. All their
segments are formed, except that a descent can still be without its selection at the end.
-/

namespace JsonPath

/-- A call of the builder with its arguments. -/
inductive BuilderCall where
  | key (name : Value)
  | index (position : Value)
  | first
  | last
  | slice (start stop step : Value)
  | all
  | descend
  | filter (expression : Value)
  | union (arguments : List UnionArgument)

namespace BuilderCall

/-- What the call returns on a query, when filter expressions can be nested at most `depth`
deep.
-/
def result (depth : Nat) (query : Query) : BuilderCall → Except BuildError Query
  | key name => query.key name
  | index position => query.index position
  | first => .ok query.first
  | last => .ok query.last
  | slice start stop step => query.slice start stop step
  | all => .ok query.all
  | descend => query.descend
  | filter expression => query.filterWithin depth expression
  | union arguments => query.union arguments

/-- The query after the call: a failed call leaves it as it was. -/
def step (depth : Nat) (query : Query) (call : BuilderCall) : Query :=
  match call.result depth query with
  | .ok built => built
  | .error _ => query

end BuilderCall

namespace Query

/-- A query that is parsed or the root, or reached from one of these by builder calls. -/
inductive Reachable (depth : Nat) : Query → Prop
  | root : Reachable depth []
  | parsed {t query} (parses : parseWithin depth t = .ok query) : Reachable depth query
  | called {query} (call : BuilderCall) (reachable : Reachable depth query)
    : Reachable depth (call.step depth query)

end Query

namespace Formation

variable {Nested : Expression → Prop} {query : List Segment} {selection : Segment}

-----------------------------------------------------------------------------------------
-- Appending segments
-----------------------------------------------------------------------------------------

/-- Segments behind segments are well-formed, by induction on the first ones. -/
theorem Segments.append (h : Segments Nested query) {others : List Segment}
    (formed : Segments Nested others)
    : Segments Nested (query ++ others) := by
  induction h with
  | nil => exact formed
  | child first _ ih => exact .child first ih
  | descent first _ ih => exact .descent first ih

/-- Formed segments, possibly with a descent behind them that still needs a selection. -/
inductive Built (Nested : Expression → Prop) : List Segment → Prop
  | complete {front} (formed : Segments Nested front) : Built Nested front
  | dangling {front} (formed : Segments Nested front)
    : Built Nested (front ++ [.descendants])

/-- A selection can follow everything that is built. -/
theorem Built.append (h : Built Nested query) (formed : Selection Nested selection)
    : Built Nested (query ++ [selection]) := by
  cases h with
  | complete before => exact .complete (before.append (.child formed .nil))
  | dangling before =>
      rw [List.append_assoc]
      exact .complete (before.append (.descent formed .nil))

/-- A descent can follow unless another one is waiting for its selector. -/
theorem Built.descend (h : Built Nested query)
    (notDangling : Query.isDangling query = false)
    : Built Nested (query ++ [.descendants]) := by
  cases h with
  | complete formed => exact .dangling formed
  | dangling _ => simp [Query.isDangling, Segment.isDescendants] at notDangling

/-- What is built is well-formed when no descent is waiting for its selector. -/
theorem Built.segments (h : Built Nested query)
    (notDangling : Query.isDangling query = false)
    : Segments Nested query := by
  cases h with
  | complete formed => exact formed
  | dangling _ => simp [Query.isDangling, Segment.isDescendants] at notDangling

-----------------------------------------------------------------------------------------
-- Builder calls
-----------------------------------------------------------------------------------------

open Outcome

/-- Integers that the builder accepts are in range. -/
theorem inRange_of_builderInteger {argument : Text} {value : Value} {n : Int}
    (h : Builder.integer argument value = .ok n)
    : n.natAbs ≤ maxInteger := by
  unfold Builder.integer at h
  split at h
  next =>
    split at h
    next => cases h
    next inRange =>
      obtain rfl := Except.ok.inj h
      exact Nat.le_of_not_lt inRange
  next => cases h

theorem inRange_of_builderInteger? {argument : Text} {value : Value} {bound : Option Int}
    (h : Builder.integer? argument value = .ok bound)
    : ∀ n ∈ bound, n.natAbs ≤ maxInteger := by
  intro n member
  unfold Builder.integer? at h
  split at h
  next =>
    obtain rfl := Except.ok.inj h
    cases member
  next =>
    obtain ⟨m, read, rfl⟩ := map_eq_ok.mp h
    obtain rfl := Option.some.inj member
    exact inRange_of_builderInteger read

/-- A slice that the builder makes is well-formed. -/
theorem selector_of_sliceSelector {startName stopName stepName : Text}
    {start stop step : Value} {selector : Segment}
    (h : Builder.sliceSelector startName stopName stepName start stop step = .ok selector)
    : Selector Nested selector := by
  simp only [Builder.sliceSelector, bind_eq_ok] at h
  obtain ⟨first, readStart, last, readStop, increment, readStep, h⟩ := h
  split at h
  next => cases h
  next =>
    obtain rfl := pure_eq_ok.mp h
    exact .slice (inRange_of_builderInteger? readStart) (inRange_of_builderInteger? readStop)
      (inRange_of_builderInteger readStep)

/-- Whatever the builder accepts in a union is well-formed as a selector. -/
theorem selector_of_unionSelector {argument : UnionArgument} {selector : Segment}
    (h : Builder.unionSelector argument = .ok selector)
    : Selector Nested selector := by
  unfold Builder.unionSelector at h
  split at h
  next =>
    obtain rfl := Except.ok.inj h
    exact .key
  next =>
    obtain ⟨n, read, rfl⟩ := map_eq_ok.mp h
    exact .index (inRange_of_builderInteger read)
  next => exact selector_of_sliceSelector h
  next => exact selector_of_sliceSelector h

/-- What each success of a step ensures holds of all results, by induction on the items. -/
theorem forall_of_mapM {α β ε : Type} {f : α → Except ε β} {P : β → Prop}
    (holds : ∀ a b, f a = .ok b → P b) {as : List α} {bs : List β}
    (h : as.mapM f = .ok bs)
    : ∀ b ∈ bs, P b := by
  induction as generalizing bs with
  | nil =>
      obtain rfl := pure_eq_ok.mp h
      simp
  | cons a as ih =>
      rw [List.mapM_cons, bind_eq_ok] at h
      obtain ⟨b, first, h⟩ := h
      obtain ⟨others, tail, h⟩ := bind_eq_ok.mp h
      obtain rfl := pure_eq_ok.mp h
      intro c member
      rcases List.mem_cons.mp member with rfl | member
      · exact holds _ _ first
      · exact ih tail c member

/-- A union adds one well-formed selection to the query. -/
theorem selection_of_union {query built : Query} {arguments : List UnionArgument}
    (h : query.union arguments = .ok built)
    : ∃ selection, built = query ++ [selection] ∧ Selection Nested selection := by
  simp only [Query.union, bind_eq_ok] at h
  obtain ⟨selectors, read, h⟩ := h
  have formed : ∀ selector ∈ selectors, Selector Nested selector :=
    forall_of_mapM (fun _ _ => selector_of_unionSelector) read
  cases selectors with
  | nil => cases h
  | cons first others =>
      cases others with
      | nil =>
          obtain rfl := pure_eq_ok.mp h
          exact ⟨first, rfl, .selector (formed first (by simp))⟩
      | cons second others =>
          obtain rfl := pure_eq_ok.mp h
          exact ⟨.union (first :: second :: others), rfl, .union formed⟩

/-- A parsed filter is a well-formed test. -/
theorem formed_of_parseWithin {depth : Nat} {t : Text} {e : Expression}
    (h : Expression.parseWithin depth t = .ok e)
    : Formed depth e ∧ e.IsTest :=
  formed_of_isFilter (Expression.isFilter_of_parseWithin h)

/-- A successful call appends a selection, or a descent behind a selection. -/
theorem result_eq_ok {depth : Nat} {query built : Query} {call : BuilderCall}
    (h : call.result depth query = .ok built)
    : ∃ segment,
      built = query ++ [segment]
      ∧ (Selection (Formed depth) segment
        ∨ segment = .descendants ∧ query.isDangling = false) := by
  cases call with
  | key name =>
      simp only [BuilderCall.result, Query.key] at h
      split at h
      next =>
        obtain rfl := Except.ok.inj h
        exact ⟨_, rfl, .inl (.selector .key)⟩
      next => cases h
  | index position =>
      simp only [BuilderCall.result, Query.index, bind_eq_ok] at h
      obtain ⟨n, read, h⟩ := h
      obtain rfl := pure_eq_ok.mp h
      exact ⟨_, rfl, .inl (.selector (.index (inRange_of_builderInteger read)))⟩
  | first =>
      obtain rfl := Except.ok.inj h
      exact ⟨_, rfl, .inl (.selector (.index (by decide)))⟩
  | last =>
      obtain rfl := Except.ok.inj h
      exact ⟨_, rfl, .inl (.selector (.index (by decide)))⟩
  | slice start stop step =>
      simp only [BuilderCall.result, Query.slice, bind_eq_ok] at h
      obtain ⟨selector, read, h⟩ := h
      obtain rfl := pure_eq_ok.mp h
      exact ⟨_, rfl, .inl (.selector (selector_of_sliceSelector read))⟩
  | all =>
      obtain rfl := Except.ok.inj h
      exact ⟨_, rfl, .inl (.selector .wildcard)⟩
  | descend =>
      simp only [BuilderCall.result, Query.descend] at h
      split at h
      next => cases h
      next notDangling =>
        obtain rfl := Except.ok.inj h
        exact ⟨_, rfl, .inr ⟨rfl, by simpa using notDangling⟩⟩
  | filter expression =>
      simp only [BuilderCall.result, Query.filterWithin] at h
      split at h
      next =>
        split at h
        next test parsed =>
          obtain rfl := Except.ok.inj h
          obtain ⟨formed, isTest⟩ := formed_of_parseWithin parsed
          exact ⟨_, rfl, .inl (.selector (.filter formed isTest))⟩
        next => cases h
      next => cases h
  | union arguments =>
      obtain ⟨selection, rfl, formed⟩ := selection_of_union h
      exact ⟨selection, rfl, .inl formed⟩

/-- One call keeps the segments formed. -/
theorem built_step {depth : Nat} {query : Query} (call : BuilderCall)
    (h : Built (Formed depth) query)
    : Built (Formed depth) (call.step depth query) := by
  unfold BuilderCall.step
  split
  next built result =>
    obtain ⟨segment, rfl, selection | ⟨rfl, notDangling⟩⟩ := result_eq_ok result
    · exact h.append selection
    · exact h.descend notDangling
  next => exact h

/-- All reachable queries are formed, by induction on the calls. -/
theorem built_of_reachable {depth : Nat} {query : Query} (h : query.Reachable depth)
    : Built (Formed depth) query := by
  induction h with
  | root => exact .complete .nil
  | parsed parses =>
      exact .complete (segments_of_isQuery (Query.isQuery_of_parseWithin parses))
  | called call _ ih => exact built_step call ih

end Formation

end JsonPath
