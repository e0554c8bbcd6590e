import JsonPath.Proofs.Grammar.Literals
import JsonPath.Proofs.Reading.Checks
import JsonPath.Proofs.Reading.Repetition

/-! Whatever the grammar spells of segments is read, as long as what follows cannot belong to
it. Some literals inside may be spelled in a way that is not read back: segments with none
of these are read as they are, and those with any are syntax errors. The reader of nested
expressions is complete by assumption.
-/

namespace JsonPath.Syntax

open Grammar Outcome

/-- What can follow an expression between delimiters. -/
def afterNested : List Char :=
  [')', ']', ',']

/-- What can follow an operand of a disjunction. -/
def afterConjunction : List Char :=
  '|' :: afterNested

/-- What can follow an operand of a conjunction. -/
def afterBasic : List Char :=
  '&' :: afterConjunction

/-- What can follow a side of a comparison. -/
def afterPrimary : List Char :=
  '=' :: '!' :: '<' :: '>' :: afterBasic

/-- What can follow a segment of a query. -/
def afterSegment : List Char :=
  '.' :: '[' :: afterPrimary

/-- The reader of expressions between delimiters. -/
abbrev ReadsNested (Bad : Fault → Prop) (good : Value → Bool) (limit : Nat)
    (nested : Text → Except Fault (Expression × Text)) (Nested : Production Expression) : Prop :=
  IsReader Bad limit offExpression afterNested (Expression.allLiterals good) nested Nested

-----------------------------------------------------------------------------------------
-- Selectors
-----------------------------------------------------------------------------------------

/-- What can follow a selector. -/
def afterSelector : List Char :=
  [',', ']']

/-- No digit is next where an expression or a selector can end. -/
theorem avoids_isNumericDigit {stops : List Char} {t : Text} (ends : EndsAt stops t)
    (noDigit : ∀ d ∈ stops, (CodePoint.char d).isNumericDigit = false)
    : Avoids CodePoint.isNumericDigit t :=
  ends.avoids (blank_avoids (by decide)) noDigit

/-- A bound that is spelled is read. -/
theorem bound_of_integer {ends : List Char} {t rest : Text} {n : Int} (h : Integer t n rest)
    (noDigit : Avoids CodePoint.isNumericDigit rest)
    (notEnd : ∀ d ∈ ends, d.isDigit = false) (noMinus : '-' ∉ ends)
    : indexOrSlice.bound ends t = .ok (some n, rest) := by
  obtain ⟨c, after, rfl, _, notOther⟩ := starts_of_integer h notEnd noMinus
  have notMember : (ends.map CodePoint.char).contains c = false := by
    simpa [List.contains_eq_mem] using fun d member eq => notOther d member eq.symm
  simp only [indexOrSlice.bound, notMember, integer_complete h noDigit]
  rfl

/-- A bound that is left out is read as none. -/
theorem bound_of_endsAt {ends : List Char} {t : Text} (h : EndsAt ends t)
    : indexOrSlice.bound ends (Text.skipBlanks t) = .ok (none, Text.skipBlanks t) := by
  unfold indexOrSlice.bound
  split
  next eq => rw [eq]
  next c after eq =>
    obtain ⟨d, member, rfl⟩ := h c after eq
    rw [if_pos (by simpa [List.contains_eq_mem] using member), eq]

/-- An optional step starts with a colon or ends where the selector does. -/
theorem endsAt_of_sliceStep {t rest : Text} {step : Int} (h : SliceStep t step rest)
    (ends : EndsAt afterSelector rest)
    : EndsAt (':' :: afterSelector) t := by
  cases h with
  | absent => exact ends.mono (by simp +contextual)
  | colon _ => exact .cons (by simp) rfl
  | integer _ _ => exact .cons (by simp) rfl

/-- A bound that can be absent is read, with the blanks behind it where there is one. -/
theorem bound_complete {ends : List Char} {t start rest : Text} {bound : Option Int}
    (blanks : Blanks t start) (h : Bound start bound rest) (endsAt : EndsAt ends rest)
    (noDigit : ∀ d ∈ ends, (CodePoint.char d).isNumericDigit = false)
    (notEnd : ∀ d ∈ ends, d.isDigit = false) (noMinus : '-' ∉ ends)
    : ∃ after,
      indexOrSlice.bound ends (Text.skipBlanks t) = .ok (bound, after)
      ∧ (if bound.isSome then Text.skipBlanks after else after) = Text.skipBlanks rest := by
  rw [skipBlanks_of_blanks blanks]
  cases h with
  | absent => exact ⟨_, bound_of_endsAt endsAt, rfl⟩
  | @integer _ n after _ spelling behind =>
      refine ⟨after, ?_, skipBlanks_of_blanks behind⟩
      rw [isSolid_of_integer spelling]
      exact bound_of_integer spelling
        (avoids_isNumericDigit (.of_blanks behind endsAt) noDigit) notEnd noMinus

/-- The parts of a slice after its first colon are read, up to blanks behind them. -/
theorem slice_complete (start : Option Int) {stop : Option Int} {t beforeStop afterStop rest : Text}
    {step : Int} (blanks : Blanks t beforeStop) (hasStop : Bound beforeStop stop afterStop)
    (hasStep : SliceStep afterStop step rest) (ends : EndsAt afterSelector rest)
    : ∃ last,
      Text.skipBlanks last = Text.skipBlanks rest
      ∧ indexOrSlice.slice start t = .ok (.slice start stop step, last) := by
  obtain ⟨afterInteger, read, skipped⟩ := bound_complete blanks hasStop
    (endsAt_of_sliceStep hasStep ends) (by decide) (by decide) (by decide)
  have read : indexOrSlice.bound [':', ',', ']'] (Text.skipBlanks t) = .ok (stop, afterInteger) :=
    read
  simp only [indexOrSlice.slice, read, ok_bind, skipped]
  cases hasStep with
  | absent =>
      refine ⟨Text.skipBlanks afterStop, skipBlanks_skipBlanks _, ?_⟩
      split
      next after eq => exact absurd (ends.mem eq) (by decide)
      next => rfl
  | @colon behind _ blanks =>
      have readStep : indexOrSlice.bound [',', ']'] (Text.skipBlanks behind)
          = .ok (none, Text.skipBlanks rest) := by
        rw [skipBlanks_of_blanks blanks]
        exact bound_of_endsAt ends
      refine ⟨Text.skipBlanks rest, skipBlanks_skipBlanks _, ?_⟩
      rw [isSolid_cons rfl]
      simp only [readStep, ok_bind]
      rfl
  | @integer behind begin_ _ _ blanks spelling =>
      have readStep : indexOrSlice.bound [',', ']'] begin_ = .ok (some step, rest) :=
        bound_of_integer spelling (avoids_isNumericDigit ends (by decide)) (by decide) (by decide)
      refine ⟨rest, rfl, ?_⟩
      rw [isSolid_cons rfl]
      simp only [skipBlanks_eq blanks (isSolid_of_integer spelling), readStep, ok_bind]
      rfl

/-- An integer is read as an index unless a colon follows it. -/
theorem indexOrSlice_of_integer {t rest : Text} {n : Int} (h : Integer t n rest)
    (noDigit : Avoids CodePoint.isNumericDigit rest)
    : indexOrSlice t
      = match Text.skipBlanks rest with
        | .char ':' :: rest => indexOrSlice.slice (some n) rest
        | rest => .ok (.index n, rest) := by
  have starts : StartsOff [':'] t := starts_of_integer h (by decide) (by decide)
  unfold indexOrSlice
  split
  next after => exact absurd (List.mem_singleton_self _) (starts.ne rfl)
  next =>
    simp only [integer_complete h noDigit, ok_bind]
    split <;> simp_all [pure_eq_ok]

section Nesting

variable {Bad : Fault → Prop} {good : Value → Bool} {limit : Nat}
  {nested : Text → Except Fault (Expression × Text)}
  {Nested : Production Expression}

/-- A selector that starts with an integer is an index or a slice. -/
theorem selector_of_integer {t rest : Text} {n : Int} (h : Integer t n rest)
    : selector limit nested t = indexOrSlice t := by
  obtain ⟨sign, whole, _, _⟩ := h
  cases sign with
  | present => rfl
  | absent =>
      obtain ⟨c, after, eq, isDigit⟩ := head_of_whole whole rest
      rw [eq]
      have isNumeric := isNumericDigit_of_isDigit isDigit
      obtain ⟨_, _, eq, _, notOther⟩ : StartsOff ['"', '\'', '*', '?'] (c :: after) :=
        starts_of_isDigit isDigit (by decide)
      obtain ⟨rfl, rfl⟩ := List.cons.inj eq
      simp only [List.mem_cons, List.not_mem_nil, or_false, forall_eq_or_imp, forall_eq]
        at notOther
      simp [selector, notOther, isNumeric]

/-- A selector is read up to blanks behind it. -/
theorem selector_complete (reader : ReadsNested Bad good limit nested Nested) {t rest : Text}
    {found : Segment} (h : Selector Nested t found rest) (bound : t.length ≤ limit)
    (ends : EndsAt afterSelector rest)
    : ∃ stop,
      Text.skipBlanks stop = Text.skipBlanks rest
      ∧ Yields Bad (found.allLiterals good) (selector limit nested t) (found, stop) := by
  cases h with
  | name spelling =>
      obtain ⟨isQuote, characters⟩ := spelling
      refine ⟨rest, rfl, .of_ok ?_⟩
      have read {start : Text} := stringRest_complete start isQuote characters rfl
        (Nat.le_of_succ_le bound)
      rcases isQuote with rfl | rfl <;> simp only [selector, read] <;> rfl
  | wildcard => exact ⟨rest, rfl, .of_ok (by simp [selector])⟩
  | index spelling =>
      have noDigit := avoids_isNumericDigit ends (by decide)
      refine ⟨Text.skipBlanks rest, skipBlanks_skipBlanks _, .of_ok ?_⟩
      rw [selector_of_integer spelling, indexOrSlice_of_integer spelling noDigit]
      split
      next after eq => exact absurd (ends.mem eq) (by decide)
      next => rfl
  | @slice _ start afterColon _ _ _ _ _ hasStart blanks hasStop hasStep =>
      obtain ⟨stop, sameStop, read⟩ := slice_complete start blanks hasStop hasStep ends
      refine ⟨stop, sameStop, .of_ok ?_⟩
      cases hasStart with
      | absent => simpa [selector, indexOrSlice] using read
      | integer spelling before =>
          have endsStart : EndsAt [':'] _ := .of_blanks before (.cons (by simp) rfl)
          have noDigit := avoids_isNumericDigit endsStart (by decide)
          rw [selector_of_integer spelling, indexOrSlice_of_integer spelling noDigit,
            skipBlanks_eq before (isSolid_cons rfl)]
          exact read
  | @filter behind start test _ blanks spelling isTest =>
      have shorter := length_le_of_blanks blanks
      rw [List.length_cons] at bound
      refine ⟨rest, rfl, ?_⟩
      have skipped := skipBlanks_eq blanks (reader.starts spelling).isSolid
      have unfolded : selector limit nested (.char '?' :: behind)
          = (nested start >>= fun found => do
              checkTest found.1 start
              return (.filter found.1, found.2)) := by
        rw [← skipped]
        rfl
      rw [unfolded]
      refine (reader.complete spelling (by omega) (ends.mono (by decide))).bind_ok ?_
      simp only [checkTest_eq_ok.mpr isTest, ok_bind]
      rfl

/-- A selector in a list is read with the blanks in front of it, up to blanks behind it. -/
theorem item_complete (reader : ReadsNested Bad good limit nested Nested) (mark : Text)
    {t start rest : Text} {found : Segment} (blanks : Blanks t start)
    (h : Selector Nested start found rest)
    (bound : start.length ≤ limit) (ends : EndsAt afterSelector rest)
    : ∃ selector stop,
      id selector = found
      ∧ Text.skipBlanks stop = Text.skipBlanks rest
      ∧ Yields Bad (found.allLiterals good) (bracketed.item limit nested mark t)
          (selector, stop) := by
  obtain ⟨stop, sameStop, reads⟩ := selector_complete reader h bound ends
  have starts := (isProper_selector reader.toIsProper).starts h
  have skipped := skipBlanks_eq blanks starts.isSolid
  refine ⟨found, stop, rfl, sameStop, ?_⟩
  obtain ⟨c, after, rfl, _, _⟩ := starts
  simpa only [bracketed.item, skipped] using reads

/-- A selection is read as it is spelled, by the completeness of lists. -/
theorem brackets_complete (reader : ReadsNested Bad good limit nested Nested) {mark t rest : Text}
    {found : Segment} (h : Brackets Nested (.char '[' :: t) found rest)
    (bound : t.length ≤ limit)
    : Yields Bad (found.allLiterals good) (bracketed limit nested mark t) (found, rest) := by
  obtain ⟨_, _, inside, spelling, rfl⟩ := brackets_iff.mp h
  obtain ⟨-, rfl⟩ := List.cons.inj inside
  obtain ⟨selectors, stop, rfl, sameStop, reads⟩ :=
    listed_complete (f := id) ']' (by decide) (item_complete reader mark)
      (isProper_selector reader.toIsProper).length_lt spelling bound bound
      (.cons (by simp) rfl)
  rw [isSolid_cons rfl] at sameStop
  rw [List.map_id] at reads ⊢
  rw [Segment.allLiterals_ofSelection]
  refine reads.bind_ok ?_
  simp only [sameStop]
  rfl

-----------------------------------------------------------------------------------------
-- Segments
-----------------------------------------------------------------------------------------

/-- Selectors behind a dot have no literals. -/
theorem allLiterals_of_dotted {t rest : Text} {selector : Segment}
    (h : Dotted t selector rest)
    : selector.allLiterals good = true := by
  cases h <;> rfl

/-- What a segment with the given selector is read as. -/
theorem segment_of_dot {t behind rest : Text} {selector : Segment}
    (skipped : Text.skipBlanks t = .char '.' :: behind) (noDot : Avoids (· = .char '.') behind)
    (read : ∀ start, dotted start false behind = .ok (selector, rest))
    : segment limit nested t = .ok (some ([selector], rest)) := by
  rw [segment, skipped]
  split
  next eq => simpa using noDot _ _ (List.cons.inj eq).2
  next eq => simpa using noDot _ _ (List.cons.inj eq).2
  next eq =>
    obtain ⟨-, rfl⟩ := List.cons.inj eq
    rw [read]
    rfl
  next eq => cases eq
  next notDot _ => exact absurd rfl (notDot behind)

/-- Behind two dots without a bracket, a name or a wildcard is read. -/
theorem segment_of_descent {t behind rest : Text} {selector : Segment}
    (skipped : Text.skipBlanks t = .char '.' :: .char '.' :: behind)
    (noBracket : Avoids (· = .char '[') behind)
    (read : ∀ start, dotted start true behind = .ok (selector, rest))
    : segment limit nested t = .ok (some ([.descendants, selector], rest)) := by
  rw [segment, skipped]
  split
  next eq => simpa using noBracket _ _ (List.cons.inj (List.cons.inj eq).2).2
  next eq =>
    obtain ⟨-, rfl⟩ := List.cons.inj (List.cons.inj eq).2
    rw [read]
    rfl
  next notDescent eq =>
    obtain ⟨-, rfl⟩ := List.cons.inj eq
    exact absurd rfl (notDescent behind)
  next eq => cases eq
  next notDot _ => exact absurd rfl (notDot _)

/-- A segment is read as it is spelled, with the blanks in front of it. -/
theorem segment_complete (reader : ReadsNested Bad good limit nested Nested) {t rest : Text}
    {group : List Segment} (h : SpacedGroup Nested t group rest) (bound : t.length ≤ limit)
    (ends : EndsAt afterSegment rest)
    : Yields Bad (group.all (Segment.allLiterals good)) (segment limit nested t)
        (some (group, rest)) := by
  obtain @⟨_, start, _, _, blanks, spelling⟩ := h
  have shorter := length_le_of_blanks blanks
  have noName : Avoids isNameChar rest := ends.avoids (blank_avoids (by decide)) (by decide)
  cases spelling with
  | @dotted behind selector _ spelling =>
      have noDot := head_of_dotted spelling (· = .char '.') (by simp +contextual; decide)
      simp only [List.all_cons, List.all_nil, allLiterals_of_dotted spelling]
      exact .of_ok (segment_of_dot (skipBlanks_eq blanks (isSolid_cons rfl)) noDot
        fun start => dotted_complete start false spelling noName)
  | brackets spelling =>
      obtain ⟨behind, rfl⟩ := head_of_brackets spelling
      rw [List.length_cons] at shorter
      simp only [segment, skipBlanks_eq blanks (isSolid_cons rfl), List.all_cons,
        List.all_nil, Bool.and_true]
      exact (brackets_complete reader spelling (by omega)).bind_ok rfl
  | @dottedDescent behind selector _ spelling =>
      have noBracket := head_of_dotted spelling (· = .char '[') (by simp +contextual; decide)
      simp only [List.all_cons, List.all_nil, allLiterals_of_dotted spelling]
      exact .of_ok (segment_of_descent (skipBlanks_eq blanks (isSolid_cons rfl)) noBracket
        fun start => dotted_complete start true spelling noName)
  | bracketsDescent spelling =>
      obtain ⟨behind, rfl⟩ := head_of_brackets spelling
      simp only [List.length_cons] at shorter
      simp only [segment, skipBlanks_eq blanks (isSolid_cons rfl), List.all_cons,
        List.all_nil, Bool.and_true, Segment.allLiterals, Bool.true_and]
      exact (brackets_complete reader spelling (by omega)).bind_ok rfl

/-- Where a query ends, no further segment is read. -/
theorem segment_eq_none {t : Text} (ends : EndsAt afterPrimary t)
    : segment limit nested t = .ok none := by
  unfold segment
  split
  next eq => exact absurd (ends.mem eq) (by decide)
  next eq => exact absurd (ends.mem eq) (by decide)
  next eq => exact absurd (ends.mem eq) (by decide)
  next eq => exact absurd (ends.mem eq) (by decide)
  next => rfl

/-- Segments are read as they are spelled, up to where the query ends. -/
theorem segments_complete (reader : ReadsNested Bad good limit nested Nested) {t rest : Text}
    {query : Query} (h : Segments Nested t query rest) (bound : t.length ≤ limit)
    (ends : EndsAt afterPrimary rest)
    : Yields Bad (query.allLiterals good) (segments limit nested t) (query, rest) := by
  obtain ⟨spelling⟩ := h
  have starts {t group rest} (h : SpacedGroup Nested t group rest) : EndsAt afterSegment t := by
    obtain ⟨blanks, spelling⟩ := h
    exact .of_blanks blanks ((endsAt_of_segmentGroup spelling).mono (by decide))
  have reads := many_complete (segment_complete reader)
    (length_lt_of_spacedGroup reader.toIsProper) starts spelling bound bound
    (ends.mono (by simp +contextual [afterSegment])) (segment_eq_none ends)
  rw [Query.allLiterals, List.all_flatten]
  exact reads.bind_ok rfl

end Nesting

end JsonPath.Syntax
