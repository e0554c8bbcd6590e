import JsonPath.Evaluation.Basic
import JsonPath.Proofs.Outcome

/-! Evaluation of segments: what a descent and what any other segment does, and the
properties of nodes that evaluation keeps when selectors and descents do.
-/

namespace JsonPath

section Lists

variable {α β ε : Type} {items : List α}

/-- What is collected comes from one of the items. -/
theorem mem_of_collect {results : α → Except ε (List β)} {found : List β} {b : β}
    (h : collect results items = .ok found) (member : b ∈ found)
    : ∃ item ∈ items, ∃ bs, results item = .ok bs ∧ b ∈ bs := by
  induction items generalizing found with
  | nil =>
      obtain rfl := Except.ok.inj h
      cases member
  | cons item items ih =>
      simp only [collect, Outcome.bind_eq_ok, Outcome.pure_eq_ok] at h
      obtain ⟨first, first_eq, others, others_eq, rfl⟩ := h
      rcases List.mem_append.mp member with inFirst | inOthers
      · exact ⟨item, by simp, first, first_eq, inFirst⟩
      · obtain ⟨item', member', bs, bs_eq, inside⟩ := ih others_eq inOthers
        exact ⟨item', List.mem_cons_of_mem _ member', bs, bs_eq, inside⟩

/-- Filtering keeps items in their order. -/
theorem sublist_of_keep {test : α → Except ε Bool} {kept : List α}
    (h : keep test items = .ok kept)
    : kept.Sublist items := by
  induction items generalizing kept with
  | nil =>
      obtain rfl := Except.ok.inj h
      exact List.nil_sublist _
  | cons item items ih =>
      simp only [keep, Outcome.bind_eq_ok, Outcome.pure_eq_ok] at h
      obtain ⟨isKept, _, others, others_eq, rfl⟩ := h
      cases isKept with
      | true => exact (ih others_eq).cons_cons item
      | false => exact (ih others_eq).cons item

end Lists

theorem Segment.eq_descendants {segment : Segment} (h : segment.isDescendants = true)
    : segment = .descendants := by
  cases segment with
  | descendants => rfl
  | _ => cases h

section Segments

variable {context : Context} {segment : Segment} {segments : List Segment}

/-- Segments are applied one after the other, unless the first is a descent. -/
theorem apply_cons (notDescent : segment.isDescendants = false) (nodes : List Node)
    : apply context (segment :: segments) nodes
        = collect (segment.select context) nodes >>= apply context segments := by
  cases segment with
  | descendants => cases notDescent
  | _ => rw [apply]; simp

/-- Behind a descent, the first selector is applied to the descendants. -/
theorem descend_cons (notDescent : segment.isDescendants = false) (nodes : List Node)
    : descend context (segment :: segments) nodes
        = collect (segment.select context) (nodes.flatMap Node.descendants)
          >>= apply context segments := by
  cases segment with
  | descendants => cases notDescent
  | _ => rw [descend]; simp

end Segments

-----------------------------------------------------------------------------------------
-- What evaluation keeps
-----------------------------------------------------------------------------------------

section Preservation

variable {context : Context} {P : Node → Prop}
  (selects
    : ∀ {segment : Segment} {node found},
        P node → segment.select context node = .ok found → ∀ other ∈ found, P other)

include selects

/-- What holds of the nodes and is kept by a selector holds of what it selects. -/
theorem forall_of_collect {segment : Segment} {nodes found : List Node}
    (holds : ∀ node ∈ nodes, P node)
    (h : collect (segment.select context) nodes = .ok found)
    : ∀ node ∈ found, P node := by
  intro node member
  obtain ⟨origin, inNodes, selected, selected_eq, inSelected⟩ := mem_of_collect h member
  exact selects (holds origin inNodes) selected_eq node inSelected

variable (descends : ∀ {node}, P node → ∀ other ∈ node.descendants, P other)

include descends

/-- By induction on the segments, with and without a descent in front of them. -/
theorem forall_of_apply_or_descend (segments : List Segment) {nodes found : List Node}
    (holds : ∀ node ∈ nodes, P node)
    : (apply context segments nodes = .ok found → ∀ node ∈ found, P node)
      ∧ (descend context segments nodes = .ok found → ∀ node ∈ found, P node) := by
  induction segments generalizing nodes found with
  | nil =>
      constructor
      · intro h
        rw [apply] at h
        obtain rfl := Except.ok.inj h
        exact holds
      · intro h
        rw [descend] at h
        cases h
  | cons segment segments ih =>
      cases isDescent : segment.isDescendants with
      | true =>
          obtain rfl := Segment.eq_descendants isDescent
          constructor
          · intro h
            rw [apply] at h
            exact (ih holds).2 h
          · intro h
            rw [descend] at h
            cases h
      | false =>
          have below : ∀ node ∈ nodes.flatMap Node.descendants, P node := by
            intro node member
            obtain ⟨origin, inNodes, inside⟩ := List.mem_flatMap.mp member
            exact descends (holds origin inNodes) node inside
          constructor
          · intro h
            rw [apply_cons isDescent, Outcome.bind_eq_ok] at h
            obtain ⟨selected, selected_eq, h⟩ := h
            exact (ih (forall_of_collect selects holds selected_eq)).1 h
          · intro h
            rw [descend_cons isDescent, Outcome.bind_eq_ok] at h
            obtain ⟨selected, selected_eq, h⟩ := h
            exact (ih (forall_of_collect selects below selected_eq)).1 h

/-- Evaluation keeps a property of nodes that every selector and every descent keeps. -/
theorem forall_of_apply {segments : List Segment} {nodes found : List Node}
    (holds : ∀ node ∈ nodes, P node) (h : apply context segments nodes = .ok found)
    : ∀ node ∈ found, P node :=
  (forall_of_apply_or_descend selects descends segments holds).1 h

end Preservation

end JsonPath
