import JsonPath.Proofs.Formation.Builder
import JsonPath.Proofs.Rendering.Queries

/-! Rendering and parsing are inverse on every query that can be reached, except that
infinite literals have no text that parses.
-/

namespace JsonPath

/-- A fault about anything but the length of an integer is a syntax error. -/
theorem Syntax.Fault.error_of_isSyntax {fault : Fault} (isSyntax : fault.IsSyntax) (t : Text)
    : fault.error t = .syntaxError fault.cause t (t.length - fault.rest.length) := by
  unfold Fault.error
  split
  next digits eq => exact absurd eq (isSyntax digits)
  next => rfl

namespace Query

/-- The text of formed segments parses as these if all literals are finite, and is a syntax
error otherwise.
-/
theorem parseWithin_text_of_segments {depth : Nat} {query : Query}
    (formed : Formation.Segments (Formation.Formed depth) query)
    : if query.allLiterals Value.isFinite then parseWithin depth query.text = .ok query
      else ∃ cause position,
        parseWithin depth query.text = .error (.syntaxError cause query.text position) := by
  have reads := Syntax.query_complete Syntax.readsLiterals_rendered
    (Formation.isQuery_of_segments formed)
  cases finite : query.allLiterals Value.isFinite with
  | true =>
      rw [finite] at reads
      rw [if_pos rfl, parseWithin, reads.eq_ok]
      rfl
  | false =>
      rw [finite] at reads
      obtain ⟨fault, error, isSyntax⟩ := reads
      rw [if_neg (by simp)]
      refine ⟨fault.cause, query.text.length - fault.rest.length, ?_⟩
      rw [parseWithin, error, ← Syntax.Fault.error_of_isSyntax isSyntax]
      rfl

/-- The query `$..['a b'][?@<1e999]`, whose literal is infinite. -/
def beyondRange : Query :=
  [.descendants, .key [.char 'a', .char ' ', .char 'b'], .filter (.comparison .less (.current [])
    (.literal (.number (.float (.ofIndex false Binary64.infinityIndex)))))]

/-- The builder reaches the query with the infinite literal. -/
theorem reachable_beyondRange : beyondRange.Reachable 1 :=
  .called (.filter (.string
      [.char '@', .char '<', .char '1', .char 'e', .char '9', .char '9', .char '9']))
    (.called (.key (.string [.char 'a', .char ' ', .char 'b'])) (.called .descend .root))

theorem allLiterals_beyondRange : beyondRange.allLiterals Value.isFinite = false := by
  have infinite : (Binary64.ofIndex false Binary64.infinityIndex).isInfinite = true := by
    simp [Binary64.isInfinite, Binary64.ofIndex]
  simp [beyondRange, allLiterals, Segment.allLiterals, Expression.allLiterals,
    segmentsAllLiterals, Value.isFinite, Number.isInfinite, infinite]

/-- The text of a reachable query that does not end with a descent parses as the same query
exactly if no literal anywhere in it is infinite; when one is, parsing fails with a syntax
error. This holds at any bound on the nesting of expressions.
-/
theorem parseWithin_text_of_reachable {depth : Nat} {query : Query}
    (reachable : query.Reachable depth) (notDangling : query.isDangling = false)
    : (parseWithin depth query.text = .ok query ↔ query.allLiterals Value.isFinite)
      ∧ (query.allLiterals Value.isFinite = false
        → ∃ cause position,
          parseWithin depth query.text = .error (.syntaxError cause query.text position)) := by
  have formed := (Formation.built_of_reachable reachable).segments notDangling
  have outcome := parseWithin_text_of_segments formed
  cases finite : query.allLiterals Value.isFinite with
  | true =>
      rw [finite, if_pos rfl] at outcome
      simp [outcome]
  | false =>
      rw [finite, if_neg (by simp)] at outcome
      obtain ⟨cause, position, error⟩ := outcome
      simp [error]

/-- The query that the builder reached is written as a text that does not parse. -/
theorem parseWithin_text_beyondRange
    : beyondRange.Reachable 1
      ∧ beyondRange.isDangling = false
      ∧ parseWithin 1 beyondRange.text ≠ .ok beyondRange
      ∧ ∃ cause position,
        parseWithin 1 beyondRange.text = .error (.syntaxError cause beyondRange.text position) := by
  obtain ⟨parses, fails⟩ := parseWithin_text_of_reachable reachable_beyondRange rfl
  refine ⟨reachable_beyondRange, rfl, fun same => ?_, fails allLiterals_beyondRange⟩
  have finite := parses.mp same
  rw [allLiterals_beyondRange] at finite
  cases finite

end Query

end JsonPath
