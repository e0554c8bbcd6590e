import JsonPath.Proofs.Reading.Positions

/-! Positions of syntax errors, and how far readers go. The position of a syntax error is
that of the text that is left at its fault, which is in the text that was parsed. Readers of
the parts of a query that have a result leave a proper suffix of what they were given, but
for the reader of segments, since there can be none.
-/

namespace JsonPath

namespace Syntax

open Grammar

-----------------------------------------------------------------------------------------
-- Progress
-----------------------------------------------------------------------------------------

/-- The reading takes something off the text, and leaves what stands behind it. -/
def Advances {α : Type} (t : Text) (reading : Except Fault (α × Text)) : Prop :=
  ∀ a rest, reading = .ok (a, rest) → ∃ taken, taken ≠ [] ∧ t = taken ++ rest

namespace Advances

variable {α : Type} {t : Text} {reading : Except Fault (α × Text)}

/-- A traced reading advances when what it leaves is shorter than the text. -/
theorem of_length_lt (traced : Traced Prod.snd t reading)
    (shorter : ∀ a rest, reading = .ok (a, rest) → rest.length < t.length)
    : Advances t reading := by
  intro a rest read
  obtain ⟨taken, eq⟩ := traced.isSuffix read
  refine ⟨taken, ?_, eq.symm⟩
  rintro rfl
  have same : rest = t := eq
  exact absurd (shorter a rest read) (by simp [same])

/-- Behind one character or more, even a reader that takes nothing has got on. -/
theorem of_traced (front : Text) (traced : Traced Prod.snd t reading) (notEmpty : front ≠ [])
    : Advances (front ++ t) reading := by
  intro a rest read
  obtain ⟨taken, rfl⟩ := traced.isSuffix read
  exact ⟨front ++ taken, by simp [notEmpty], by simp⟩

end Advances

/-- Readers go on: each leaves what stands behind something that it has taken, possibly
nothing for the segments. The texts are those from where a part of a query starts on.
-/
structure GoesOn (limit : Nat) (nested : Text → Except Fault (Expression × Text))
    : Prop where
  segments : ∀ t query rest, segments limit nested t = .ok (query, rest) → rest <:+ t
  bracketed
    : ∀ t, Advances (.char '[' :: t) (bracketed limit nested (.char '[' :: t) t)
  selector : ∀ t, Advances t (selector limit nested t)
  integer : ∀ t, Advances t (integer t)
  string : ∀ quote t, Advances (quote :: t) (stringRest quote (quote :: t) limit t)
  expression : ∀ t, Advances t (nested t)
  primary : ∀ t, Advances t (primary limit nested t)
  call
    : ∀ name t,
        Advances (name ++ .char '(' :: t)
          (arguments limit nested name (name ++ .char '(' :: t) t)

/-- What is read between blanks leaves less than the text. -/
theorem length_lt_of_padded {α : Type} {others : List Char} {Item : Production α}
    (proper : IsProper others Item) {t rest : Text} {a : α} (h : Padded Item t a rest)
    : rest.length < t.length := by
  obtain ⟨before, spelling, after⟩ := h
  have before := length_le_of_blanks before
  have spelling := proper.length_lt spelling
  have after := length_le_of_blanks after
  omega

/-- Reading an expression advances at every depth. -/
theorem goesOn_logical (limit depth : Nat) : GoesOn limit (logical limit depth) := by
  have traced := traced_logical limit depth
  have sound := logical_sound limit depth
  have proper := isProper_logical isProper_shortLiteral depth
  constructor
  case segments => exact fun t _ _ read => (traced_segments traced t).isSuffix read
  case bracketed =>
    exact fun t => .of_traced [.char '['] (traced_bracketed traced _ t) (List.cons_ne_nil _ _)
  case selector =>
    refine fun t => .of_length_lt (traced_selector traced t) fun _ _ read => ?_
    exact length_lt_of_padded (isProper_selector proper) (selector_sound sound _ _ _ read)
  case integer =>
    refine fun t => .of_length_lt (traced_integer t) fun _ _ read => ?_
    exact length_lt_of_integer (integer_sound read)
  case string =>
    intro quote t
    exact .of_traced [quote] (traced_stringRest quote _ limit t) (List.cons_ne_nil _ _)
  case expression =>
    exact fun t => .of_length_lt (traced t) fun _ _ read => proper.length_lt (sound _ _ _ read)
  case primary =>
    refine fun t => .of_length_lt (traced_primary traced t) fun _ _ read => ?_
    exact (isProper_primary isProper_shortLiteral proper).length_lt (primary_sound sound _ _ _ read)
  case call =>
    intro name t
    have left : Traced Prod.snd t
        (arguments limit (logical limit depth) name (name ++ .char '(' :: t) t) :=
      traced_arguments traced name _ t
    have advances := Advances.of_traced (name ++ [.char '(']) left (by simp)
    simpa using advances

-----------------------------------------------------------------------------------------
-- Syntax errors
-----------------------------------------------------------------------------------------

/-- The position of a syntax error is where its fault stands in the text. -/
theorem position_of_error {α : Type} {t text : Text} {reading : Except Fault α}
    {cause : SyntaxCause} {position : Nat} (within : FaultsWithin t reading)
    (h : reading.mapError (·.error t) = .error (.syntaxError cause text position))
    : text = t ∧ position ≤ t.length ∧ reading = .error ⟨cause, t.drop position⟩ := by
  obtain ⟨⟨cause', rest⟩, rfl, same⟩ := Outcome.mapError_eq_error.mp h
  obtain ⟨before, rfl⟩ := within _ rfl
  rw [Fault.error] at same
  split at same
  next => cases same
  next =>
    obtain ⟨rfl, rfl, rfl⟩ := QueryError.syntaxError.inj same
    simp

end Syntax

/-- A syntax error of a query or a filter shows the text that was parsed, and its position is
in the text, where the reader has found the fault. Readers of parts that have a result go on
in the text.
-/
theorem position_of_parseWithin (depth : Nat) (t : Text)
    : (∀ cause text position,
        Query.parseWithin depth t = .error (.syntaxError cause text position)
        → text = t
          ∧ position ≤ t.length
          ∧ Syntax.query depth t = .error ⟨cause, t.drop position⟩)
      ∧ (∀ cause text position,
        Expression.parseWithin depth t = .error (.syntaxError cause text position)
        → text = t
          ∧ position ≤ t.length
          ∧ Syntax.filter depth t = .error ⟨cause, t.drop position⟩)
      ∧ ∀ limit, Syntax.GoesOn limit (Syntax.logical limit depth) :=
  ⟨fun _ _ _ h => Syntax.position_of_error (Syntax.faultsWithin_query depth t) h,
    fun _ _ _ h => Syntax.position_of_error (Syntax.faultsWithin_filter depth t) h,
    fun limit => Syntax.goesOn_logical limit depth⟩

/-- A high surrogate without a low one behind it, in a name and in a literal. -/
def unpairedName : Text :=
  [.char '\'', .char '\\', .char 'u', .char 'd', .char '8', .char '0', .char '0', .char '\'']

/-- The escape is reported at its backslash, in a query and in a filter. -/
theorem position_unpaired
    : (Query.parseWithin 1 (.char '$' :: .char '[' :: unpairedName)
          = .error
            (.syntaxError .unpairedHighSurrogate (.char '$' :: .char '[' :: unpairedName) 3)
        ∧ 3 ≤ (CodePoint.char '$' :: .char '[' :: unpairedName).length)
      ∧ Expression.parseWithin 1 unpairedName
          = .error (.syntaxError .unpairedHighSurrogate unpairedName 1)
        ∧ 1 ≤ unpairedName.length := by
  have query : Query.parseWithin 1 (.char '$' :: .char '[' :: unpairedName)
      = .error (.syntaxError .unpairedHighSurrogate _ 3) := rfl
  have test : Expression.parseWithin 1 unpairedName
      = .error (.syntaxError .unpairedHighSurrogate _ 1) := rfl
  obtain ⟨_, inQuery, _⟩ := (position_of_parseWithin 1 _).1 _ _ _ query
  obtain ⟨_, inTest, _⟩ := (position_of_parseWithin 1 _).2.1 _ _ _ test
  exact ⟨⟨query, inQuery⟩, test, inTest⟩

end JsonPath
