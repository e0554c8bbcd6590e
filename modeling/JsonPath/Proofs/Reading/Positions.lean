import JsonPath.Proofs.Reading.Faults

/-! Where faults stand in the text. A fault is reported with the text that is left at it: for
every reader this is a suffix of the whole text, whether the fault is reported where the
reader has arrived or at a place that it has kept in mind. So the positions that are counted
from what is left are positions in the text.
-/

namespace JsonPath.Syntax

open Grammar

/-- A fault of the reading stands in the whole text: what is left at it is a suffix. -/
def FaultsWithin {α : Type} (whole : Text) (reading : Except Fault α) : Prop :=
  ∀ fault, reading = .error fault → fault.rest <:+ whole

/-- A traced result leaves a suffix of the text. -/
theorem Traced.isSuffix {α : Type} {left : α → Text} {t : Text} {reading : Except Fault α}
    {result : α} (traced : Traced left t reading) (read : reading = .ok result)
    : left result <:+ t := by
  subst read
  exact traced

namespace FaultsWithin

variable {α β : Type} {left : α → Text} {whole t rest : Text}

theorem ok (result : α) : FaultsWithin whole (.ok result) := nofun

theorem fail {cause : SyntaxCause} (inside : rest <:+ whole)
    : FaultsWithin whole (fail cause rest : Except Fault α) := by
  rintro _ ⟨rfl⟩
  exact inside

/-- One reading after another only has faults in the text when both have, the second one for
what was read.
-/
theorem bind_of_ok {reading : Except Fault α} {f : α → Except Fault β}
    (first : FaultsWithin whole reading)
    (second : ∀ result, reading = .ok result → FaultsWithin whole (f result))
    : FaultsWithin whole (reading >>= f) := by
  intro fault h
  rcases Outcome.bind_eq_error.mp h with failed | ⟨result, read, failed⟩
  · exact first fault failed
  · exact second result read fault failed

/-- Readings compose: the second one starts where the first one has left off. -/
theorem bind {reading : Except Fault α} {f : α → Except Fault β}
    (first : FaultsWithin whole reading) (traced : Traced left t reading) (inside : t <:+ whole)
    (second : ∀ result, left result <:+ whole → FaultsWithin whole (f result))
    : FaultsWithin whole (reading >>= f) :=
  first.bind_of_ok fun result read => second result ((traced.isSuffix read).trans inside)

theorem map {reading : Except Fault α} (f : α → β) (h : FaultsWithin whole reading)
    : FaultsWithin whole (f <$> reading) :=
  h.bind_of_ok fun result _ => ok (f result)

/-- A check leaves nothing, and what follows goes on where the check was made. -/
theorem check {checking : Except Fault Unit} {f : Unit → Except Fault β}
    (first : FaultsWithin whole checking) (second : FaultsWithin whole (f ()))
    : FaultsWithin whole (checking >>= f) :=
  first.bind_of_ok fun _ _ => second

end FaultsWithin

section Readers

variable {whole : Text}

theorem suffix_of_cons {c : CodePoint} {t : Text} (inside : c :: t <:+ whole) : t <:+ whole :=
  (List.suffix_cons c t).trans inside

theorem suffix_skipBlanks {t : Text} (inside : t <:+ whole) : Text.skipBlanks t <:+ whole :=
  (skipBlanks_isSuffix t).trans inside

/-- What stands from the next character on, once blanks are skipped. -/
theorem suffix_of_skipBlanks {t rest : Text} (inside : t <:+ whole)
    (h : Text.skipBlanks t = rest)
    : rest <:+ whole :=
  h ▸ suffix_skipBlanks inside

-----------------------------------------------------------------------------------------
-- Tokens
-----------------------------------------------------------------------------------------

/-- Bad digits are told at the mark of the escape. -/
theorem faultsWithin_codeUnit {mark : Text} (inside : mark <:+ whole) (t : Text)
    : FaultsWithin whole (codeUnit mark t) := by
  unfold codeUnit
  split
  next =>
    split
    next => exact .ok _
    next => exact .fail inside
  next => exact .fail inside

/-- Lone and mismatched surrogates are told at the escape they belong to. -/
theorem faultsWithin_unicodeEscape {start t : Text} (marked : start <:+ whole)
    (inside : t <:+ whole)
    : FaultsWithin whole (unicodeEscape start t) := by
  refine (faultsWithin_codeUnit marked t).bind (traced_codeUnit start t) inside ?_
  rintro ⟨unit, rest⟩ left
  dsimp only
  split
  next => exact .fail marked
  split
  next =>
    split
    next second =>
      have inside : second <:+ whole := (List.suffix_append [_, _] second).trans left
      refine (faultsWithin_codeUnit left second).bind (traced_codeUnit _ second) inside ?_
      rintro ⟨low, after⟩ _
      dsimp only
      split
      next => exact .ok _
      next => exact .fail marked
    next => exact .fail marked
  next => exact .ok _

/-- Faults of an escape stand at its backslash or at one behind it. -/
theorem faultsWithin_escape (quote : CodePoint) {start t : Text} (marked : start <:+ whole)
    (inside : t <:+ whole)
    : FaultsWithin whole (escape quote start t) := by
  unfold escape
  split
  next => exact .fail marked
  next =>
    split
    next => exact .ok _
    split
    next => exact .ok _
    split
    next => exact faultsWithin_unicodeEscape marked (suffix_of_cons inside)
    next => exact .fail marked

/-- By induction on the limit. -/
theorem faultsWithin_stringRest (quote : CodePoint) {start t : Text} (limit : Nat)
    (marked : start <:+ whole) (inside : t <:+ whole)
    : FaultsWithin whole (stringRest quote start limit t) := by
  induction limit generalizing t with
  | zero => exact .fail marked
  | succ limit ih =>
      cases t with
      | nil => exact .fail marked
      | cons c rest =>
          have behind := suffix_of_cons inside
          rw [stringRest]
          split
          next => exact .ok _
          split
          next => exact .fail inside
          split
          next =>
            refine (faultsWithin_escape quote inside behind).bind
              (traced_escape quote (c :: rest) rest) behind ?_
            rintro ⟨d, after⟩ left
            exact (ih left).map _
          next => exact (ih behind).map _

/-- Faults of an integer stand where it starts. -/
theorem faultsWithin_integer {t : Text} (inside : t <:+ whole)
    : FaultsWithin whole (integer t) := by
  unfold integer
  split
  split
  next => exact .fail inside
  next =>
    dsimp only
    split
    next => exact .fail inside
    split
    next => exact .fail inside
    split
    next => exact .fail inside
    split
    next => exact .fail inside
    next => exact .ok _

theorem faultsWithin_number {t : Text} (inside : t <:+ whole)
    : FaultsWithin whole (number t) := by
  unfold number
  split
  next => exact .fail inside
  next =>
    split
    next => exact .fail inside
    next =>
      split
      next => exact .ok _
      next => exact .fail inside

/-- A missing or invalid name is told behind the dots or at them. -/
theorem faultsWithin_dotted {start t : Text} (afterDescent : Bool) (marked : start <:+ whole)
    (inside : t <:+ whole)
    : FaultsWithin whole (dotted start afterDescent t) := by
  unfold dotted
  split
  next => exact .fail marked
  next =>
    split
    next => exact .ok _
    split
    next => exact .ok _
    split
    next => exact .fail inside
    next => exact .fail inside

-----------------------------------------------------------------------------------------
-- Repetition and checks
-----------------------------------------------------------------------------------------

section Repetition

variable {α : Type} {next : Text → Except Fault (Option (α × Text))}
  {item : Text → Except Fault (α × Text)}

/-- By induction on the number of readings. -/
theorem faultsWithin_many (traced : ∀ t, Traced leftIfAny t (next t))
    (within : ∀ t, t <:+ whole → FaultsWithin whole (next t)) (limit : Nat) {t : Text}
    (inside : t <:+ whole)
    : FaultsWithin whole (many next limit t) := by
  induction limit generalizing t with
  | zero => exact .ok _
  | succ limit ih =>
      refine (within t inside).bind (traced t) inside ?_
      rintro (_ | ⟨item, rest⟩) left
      · exact .ok _
      · exact (ih left).map _

/-- Items in a row have their faults in the text when each one has, as each leaves a suffix. -/
theorem faultsWithin_oneOrMore (tracedNext : ∀ t, Traced leftIfAny t (next t))
    (traced : ∀ t, Traced Prod.snd t (item t))
    (withinNext : ∀ t, t <:+ whole → FaultsWithin whole (next t))
    (within : ∀ t, t <:+ whole → FaultsWithin whole (item t)) (limit : Nat) {t : Text}
    (inside : t <:+ whole)
    : FaultsWithin whole (oneOrMore next item limit t) := by
  refine (within t inside).bind (traced t) inside ?_
  rintro ⟨first, rest⟩ left
  exact (faultsWithin_many tracedNext withinNext limit left).map _

/-- Behind a comma the next item is read in the same text. -/
theorem faultsWithin_afterComma (within : ∀ t, t <:+ whole → FaultsWithin whole (item t))
    (t : Text) (inside : t <:+ whole)
    : FaultsWithin whole (afterComma item t) := by
  unfold afterComma
  split
  next eq => exact (within _ (suffix_of_cons (suffix_of_skipBlanks inside eq))).map _
  next => exact .ok _

theorem faultsWithin_afterOperator (operator : Char)
    (within : ∀ t, t <:+ whole → FaultsWithin whole (item t)) (t : Text)
    (inside : t <:+ whole)
    : FaultsWithin whole (afterOperator operator item t) := by
  unfold afterOperator
  split
  next eq =>
    split
    next =>
      have behind := suffix_of_cons (suffix_of_cons (suffix_of_skipBlanks inside eq))
      exact (within _ (suffix_skipBlanks behind)).map _
    next => exact .ok _
  next => exact .ok _

end Repetition

/-- An expression that is no test is told at the given mark. -/
theorem faultsWithin_checkTest (e : Expression) {mark : Text} (marked : mark <:+ whole)
    : FaultsWithin whole (checkTest e mark) := by
  unfold checkTest
  split
  next => exact .fail marked
  split
  next => exact .fail marked
  next => exact .ok _

theorem faultsWithin_checkComparable (e : Expression) {mark : Text} (marked : mark <:+ whole)
    : FaultsWithin whole (checkComparable e mark) := by
  unfold checkComparable
  split
  next => exact .fail marked
  split
  next => exact .fail marked
  next => exact .ok _

/-- Arguments are checked at the places where they start, by induction on them. -/
theorem faultsWithin_checkArguments (name : Text) {found : List (Expression × Text)}
    (marked : ∀ argument ∈ found, argument.2 <:+ whole) (kinds : List Kind)
    : FaultsWithin whole (checkArguments name found kinds) := by
  induction found generalizing kinds with
  | nil => exact .ok _
  | cons first found ih =>
      obtain ⟨markedFirst, marked⟩ := List.forall_mem_cons.mp marked
      cases kinds with
      | nil => exact .ok _
      | cons kind kinds =>
          rw [checkArguments]
          split
          next => exact ih marked kinds
          next => exact .fail markedFirst

/-- Faults of a call stand at its name or at one of its arguments. -/
theorem faultsWithin_checkCall (name : Text) {start : Text} {found : List (Expression × Text)}
    (marked : start <:+ whole) (markedArguments : ∀ argument ∈ found, argument.2 <:+ whole)
    : FaultsWithin whole (checkCall name start found) := by
  unfold checkCall
  split
  next => exact .ok _
  next =>
    dsimp only
    split
    next => exact .fail marked
    next => exact faultsWithin_checkArguments name markedArguments _

/-- Operands that are no tests are told at the mark they share, by induction on the operands.
-/
theorem faultsWithin_forM_checkTest (es : List Expression) {mark : Text}
    (marked : mark <:+ whole)
    : FaultsWithin whole (es.forM fun e => checkTest e mark) := by
  induction es with
  | nil => exact .ok _
  | cons e es ih => exact (faultsWithin_checkTest e marked).check ih

-----------------------------------------------------------------------------------------
-- Selectors and segments
-----------------------------------------------------------------------------------------

/-- Faults of a bound stand where its integer starts. -/
theorem faultsWithin_bound (ends : List Char) {t : Text} (inside : t <:+ whole)
    : FaultsWithin whole (indexOrSlice.bound ends t) := by
  unfold indexOrSlice.bound
  split
  next => exact .ok _
  next =>
    split
    next => exact .ok _
    next => exact (faultsWithin_integer inside).map _

/-- Faults of a slice stand at its second bound or its step. -/
theorem faultsWithin_slice (start : Option Int) {t : Text} (inside : t <:+ whole)
    : FaultsWithin whole (indexOrSlice.slice start t) := by
  have begins := suffix_skipBlanks inside
  refine (faultsWithin_bound _ begins).bind (traced_bound _ _) begins ?_
  rintro ⟨stop, afterStop⟩ left
  dsimp only
  have left : (if stop.isSome then Text.skipBlanks afterStop else afterStop) <:+ whole := by
    split
    next => exact suffix_skipBlanks left
    next => exact left
  generalize (if stop.isSome then Text.skipBlanks afterStop else afterStop) = middle at left
  split
  next => exact (faultsWithin_bound _ (suffix_skipBlanks (suffix_of_cons left))).map _
  next => exact .ok _

/-- Faults of an index or a slice stand in its numbers. -/
theorem faultsWithin_indexOrSlice {t : Text} (inside : t <:+ whole)
    : FaultsWithin whole (indexOrSlice t) := by
  unfold indexOrSlice
  split
  next => exact faultsWithin_slice none (suffix_of_cons inside)
  next =>
    refine (faultsWithin_integer inside).bind (traced_integer t) inside ?_
    rintro ⟨start, rest⟩ left
    dsimp only
    split
    next eq => exact faultsWithin_slice _ (suffix_of_cons (suffix_of_skipBlanks left eq))
    next => exact .ok _

section Nesting

variable {limit : Nat} {nested : Text → Except Fault (Expression × Text)}
  (tracedNested : ∀ t, Traced Prod.snd t (nested t))
  (withinNested : ∀ t, t <:+ whole → FaultsWithin whole (nested t))

include tracedNested withinNested

theorem faultsWithin_selector (t : Text) (inside : t <:+ whole)
    : FaultsWithin whole (selector limit nested t) := by
  unfold selector
  split
  next => exact .fail inside
  next c rest =>
    have behind := suffix_of_cons inside
    split
    next => exact (faultsWithin_stringRest c limit inside behind).map _
    split
    next => exact .ok _
    split
    next =>
      have start := suffix_skipBlanks behind
      refine (withinNested _ start).bind (tracedNested _) start ?_
      rintro ⟨test, after⟩ _
      exact (faultsWithin_checkTest test start).check (.ok _)
    split
    next => exact faultsWithin_indexOrSlice inside
    split
    next => exact .fail inside
    next => exact .fail inside

/-- A missing selector is told at the bracket, and other faults stand in the selector. -/
theorem faultsWithin_item {start : Text} (marked : start <:+ whole) (t : Text)
    (inside : t <:+ whole)
    : FaultsWithin whole (bracketed.item limit nested start t) := by
  unfold bracketed.item
  split
  next => exact .fail marked
  next => exact faultsWithin_selector tracedNested withinNested _ (suffix_skipBlanks inside)

/-- A selection has its faults at its bracket, in its selectors or behind them. -/
theorem faultsWithin_bracketed {start t : Text} (marked : start <:+ whole)
    (inside : t <:+ whole)
    : FaultsWithin whole (bracketed limit nested start t) := by
  have traced : ∀ t, Traced Prod.snd t (bracketed.item limit nested start t) :=
    traced_item tracedNested start
  have within : ∀ t, t <:+ whole → FaultsWithin whole (bracketed.item limit nested start t) :=
    faultsWithin_item tracedNested withinNested marked
  refine (faultsWithin_oneOrMore (traced_afterComma traced) traced
    (faultsWithin_afterComma within) within limit inside).bind
    (traced_oneOrMore (traced_afterComma traced) traced limit t) inside ?_
  rintro ⟨selectors, rest⟩ left
  dsimp only
  split
  next => exact .fail marked
  next => exact .ok _
  next eq => exact .fail (suffix_of_skipBlanks left eq)

/-- A segment has its faults behind the dots or in its brackets. -/
theorem faultsWithin_segment (t : Text) (inside : t <:+ whole)
    : FaultsWithin whole (segment limit nested t) := by
  have start := suffix_skipBlanks inside
  unfold segment
  split
  next eq =>
    have marked := suffix_of_cons (suffix_of_cons (suffix_of_skipBlanks inside eq))
    exact (faultsWithin_bracketed tracedNested withinNested marked
      (suffix_of_cons marked)).map _
  next eq =>
    have behind := suffix_of_cons (suffix_of_cons (suffix_of_skipBlanks inside eq))
    exact (faultsWithin_dotted true start behind).map _
  next eq =>
    have behind := suffix_of_cons (suffix_of_skipBlanks inside eq)
    exact (faultsWithin_dotted false start behind).map _
  next eq =>
    have marked := suffix_of_skipBlanks inside eq
    exact (faultsWithin_bracketed tracedNested withinNested marked
      (suffix_of_cons marked)).map _
  next => exact .ok _

theorem faultsWithin_segments {t : Text} (inside : t <:+ whole)
    : FaultsWithin whole (segments limit nested t) :=
  (faultsWithin_many (traced_segment tracedNested)
    (faultsWithin_segment tracedNested withinNested) limit inside).map _

-----------------------------------------------------------------------------------------
-- Expressions
-----------------------------------------------------------------------------------------

omit tracedNested withinNested in
/-- Arguments start at places of the text they are read from, by induction on the list. -/
theorem suffix_of_listed {t rest : Text} {found : List (Expression × Text)}
    (h : Listed (fun t argument rest => argument.2 = t ∧ rest <:+ t) t found rest)
    : ∀ argument ∈ found, argument.2 <:+ t := by
  induction h with
  | one before spelling _ =>
      rw [List.forall_mem_singleton, spelling.1]
      exact IsLocal.isSuffix isLocal_blanks before
  | @more t start _ stop afterComma _ _ before spelling after _ ih =>
      obtain ⟨rfl, left⟩ := spelling
      have first := IsLocal.isSuffix isLocal_blanks before
      have comma : afterComma <:+ t :=
        (suffix_of_cons (IsLocal.isSuffix isLocal_blanks after)).trans (left.trans first)
      exact List.forall_mem_cons.mpr ⟨first, fun other member => (ih other member).trans comma⟩

omit withinNested in
/-- What is left behind each argument is a suffix, as arguments are a list in the text. -/
theorem suffix_of_arguments {t stop : Text} {found : List (Expression × Text)}
    (h : oneOrMore (afterComma (argument nested)) (argument nested) limit t = .ok (found, stop))
    : ∀ argument ∈ found, argument.2 <:+ t := by
  have sound (t : Text) (found : Expression × Text) (rest : Text)
      (h : argument nested t = .ok (found, rest))
      : Padded (fun t argument rest => argument.2 = t ∧ rest <:+ t) t (id found) rest := by
    obtain ⟨⟨e, after⟩, read, result⟩ := Outcome.bind_eq_ok.mp h
    obtain ⟨rfl, rfl⟩ := Prod.mk.inj (Outcome.pure_eq_ok.mp result)
    exact .mk (blanks_skipBlanks t) ⟨rfl, Traced.isSuffix (tracedNested _) read⟩ .none
  have listed := listed_sound sound h .none
  rw [List.map_id] at listed
  exact suffix_of_listed listed

omit tracedNested in
theorem faultsWithin_argument (t : Text) (inside : t <:+ whole)
    : FaultsWithin whole (argument nested t) :=
  (withinNested _ (suffix_skipBlanks inside)).map _

/-- The arguments stand in the whole text as well, where they can be checked later. -/
theorem faultsWithin_arguments (name : Text) {start t : Text} (marked : start <:+ whole)
    (inside : t <:+ whole)
    : FaultsWithin whole (arguments limit nested name start t)
      ∧ ∀ found rest,
        arguments limit nested name start t = .ok (found, rest)
        → ∀ argument ∈ found, argument.2 <:+ whole := by
  have traced := traced_argument tracedNested
  have within := faultsWithin_argument withinNested
  have begins := suffix_skipBlanks inside
  unfold arguments
  split
  next =>
    refine ⟨.ok _, fun found rest h => ?_⟩
    obtain ⟨rfl, -⟩ := Prod.mk.inj (Outcome.pure_eq_ok.mp h)
    exact List.forall_mem_nil _
  next =>
    constructor
    · refine (faultsWithin_oneOrMore (traced_afterComma traced) traced
        (faultsWithin_afterComma within) within limit begins).bind
        (traced_oneOrMore (traced_afterComma traced) traced limit _) begins ?_
      rintro ⟨found, rest⟩ left
      dsimp only
      split
      next => exact .fail marked
      next => exact .ok _
      next eq => exact .fail (suffix_of_skipBlanks left eq)
    · intro found rest h
      obtain ⟨⟨found', after⟩, read, h⟩ := Outcome.bind_eq_ok.mp h
      dsimp only at h
      split at h
      next => cases h
      next =>
        obtain ⟨rfl, -⟩ := Prod.mk.inj (Outcome.pure_eq_ok.mp h)
        intro argument member
        exact (suffix_of_arguments tracedNested read argument member).trans begins
      next => cases h

/-- An unknown word is told where it stands, and a call has its faults at its name or behind
it.
-/
theorem faultsWithin_callOrWord {t : Text} (inside : t <:+ whole)
    : FaultsWithin whole (callOrWord limit nested t) := by
  have invalid : FaultsWithin whole (callOrWord.invalid t) := by
    unfold callOrWord.invalid
    split
    next => exact .fail inside
    next => exact .fail inside
  unfold callOrWord
  split
  next name rest found =>
    obtain ⟨rfl, _⟩ := word_sound found
    split
    next => exact invalid
    next =>
      have behind : rest <:+ whole :=
        suffix_of_cons ((List.suffix_append name _).trans inside)
      refine (faultsWithin_arguments tracedNested withinNested name inside behind).1.bind_of_ok ?_
      rintro ⟨found, after⟩ read
      have marked :=
        (faultsWithin_arguments tracedNested withinNested name inside behind).2 found after read
      exact (faultsWithin_checkCall name inside marked).check (.ok _)
  next name rest _ found =>
    split
    next => exact .ok _
    next => exact invalid

/-- Operands have their faults in the text, by cases on the first character. -/
theorem faultsWithin_primary (t : Text) (inside : t <:+ whole)
    : FaultsWithin whole (primary limit nested t) := by
  unfold primary
  split
  next => exact .fail inside
  next c rest =>
    have behind := suffix_of_cons inside
    split
    next => exact (faultsWithin_segments tracedNested withinNested behind).map _
    split
    next => exact (faultsWithin_segments tracedNested withinNested behind).map _
    split
    next => exact (faultsWithin_stringRest c limit inside behind).map _
    split
    next => exact (faultsWithin_number inside).map _
    next => exact faultsWithin_callOrWord tracedNested withinNested inside

/-- A parenthesis that is not closed is told where it was opened, other faults stand behind it.
-/
theorem faultsWithin_parenthesis {start t : Text} (marked : start <:+ whole)
    (inside : t <:+ whole)
    : FaultsWithin whole (parenthesis nested start t) := by
  have begins := suffix_skipBlanks inside
  refine (withinNested _ begins).bind (tracedNested _) begins ?_
  rintro ⟨e, rest⟩ left
  refine (faultsWithin_checkTest e inside).check ?_
  split
  next => exact .fail marked
  next => exact .ok _
  next eq => exact .fail (suffix_of_skipBlanks left eq)

/-- Behind a negation the faults stand in its operand or at it. -/
theorem faultsWithin_negated {t : Text} (inside : t <:+ whole)
    : FaultsWithin whole (negated limit nested t) := by
  have checked (read : Expression × Text) : FaultsWithin whole (negated.checked t read) :=
    (faultsWithin_checkTest read.1 inside).check (.ok _)
  unfold negated
  split
  next =>
    have within := faultsWithin_parenthesis tracedNested withinNested inside
      (suffix_of_cons inside)
    exact within.bind_of_ok fun read _ => checked read
  next =>
    refine (faultsWithin_primary tracedNested withinNested t inside).bind_of_ok ?_
    rintro ⟨operand, rest⟩ _
    dsimp only
    split
    next => exact checked _
    next => exact .fail inside

/-- A comparison has its faults in one of its sides, or at a side that cannot be compared. -/
theorem faultsWithin_comparison {t : Text} (inside : t <:+ whole)
    : FaultsWithin whole (comparison limit nested t) := by
  have within : ∀ t, t <:+ whole → FaultsWithin whole (primary limit nested t) :=
    faultsWithin_primary tracedNested withinNested
  have traced : ∀ t, Traced Prod.snd t (primary limit nested t) := traced_primary tracedNested
  refine (within t inside).bind (traced t) inside ?_
  rintro ⟨left, rest⟩ behind
  dsimp only
  split
  next => exact .ok _
  next comparator after found =>
    have operator : after <:+ Text.skipBlanks rest := ⟨_, (comparator?_sound found).symm⟩
    have start := suffix_skipBlanks (operator.trans (suffix_skipBlanks behind))
    refine (within _ start).bind_of_ok ?_
    rintro ⟨right, end_⟩ _
    refine (faultsWithin_checkComparable left inside).check ?_
    exact (faultsWithin_checkComparable right start).check (.ok _)

theorem faultsWithin_basic (t : Text) (inside : t <:+ whole)
    : FaultsWithin whole (basic limit nested t) := by
  unfold basic
  split
  next => exact faultsWithin_comparison tracedNested withinNested inside
  next =>
    have begins := suffix_skipBlanks (suffix_of_cons inside)
    exact faultsWithin_negated tracedNested withinNested begins
  next =>
    exact faultsWithin_parenthesis tracedNested withinNested inside (suffix_of_cons inside)
  next => exact faultsWithin_comparison tracedNested withinNested inside

omit tracedNested withinNested in
/-- Operands in a row have their faults in the text when each one has, or at the first one. -/
theorem faultsWithin_operands {operator : Char}
    {operand : Text → Except Fault (Expression × Text)}
    (traced : ∀ t, Traced Prod.snd t (operand t))
    (within : ∀ t, t <:+ whole → FaultsWithin whole (operand t)) {t : Text}
    (inside : t <:+ whole)
    : FaultsWithin whole (operands limit operator operand t) := by
  refine (faultsWithin_oneOrMore (traced_afterOperator operator traced) traced
    (faultsWithin_afterOperator operator within) within limit inside).bind_of_ok ?_
  rintro ⟨found, rest⟩ _
  dsimp only
  split
  next => exact .ok _
  next => exact (faultsWithin_forM_checkTest found inside).check (.ok _)

/-- Conjunctions have their faults in the text, as operands in a row. -/
theorem faultsWithin_conjunction (t : Text) (inside : t <:+ whole)
    : FaultsWithin whole (conjunction limit nested t) :=
  (faultsWithin_operands (traced_basic tracedNested)
    (faultsWithin_basic tracedNested withinNested) inside).map _

theorem faultsWithin_disjunction {t : Text} (inside : t <:+ whole)
    : FaultsWithin whole (disjunction limit nested t) :=
  (faultsWithin_operands (traced_conjunction tracedNested)
    (faultsWithin_conjunction tracedNested withinNested) inside).map _

end Nesting

/-- Faults stand in the text at every level of nesting, by induction on it. -/
theorem faultsWithin_logical (limit depth : Nat) (t : Text) (inside : t <:+ whole)
    : FaultsWithin whole (logical limit depth t) := by
  induction depth generalizing t with
  | zero => exact .fail inside
  | succ depth ih => exact faultsWithin_disjunction (traced_logical limit depth) ih inside

end Readers

-----------------------------------------------------------------------------------------
-- Whole texts
-----------------------------------------------------------------------------------------

/-- Every fault of a query stands in its text. -/
theorem faultsWithin_query (depth : Nat) (t : Text) : FaultsWithin t (query depth t) := by
  unfold query
  split
  next => exact .fail List.suffix_rfl
  next rest =>
    have nested := traced_logical (CodePoint.char '$' :: rest).length depth
    have behind : rest <:+ .char '$' :: rest := List.suffix_cons _ rest
    refine (faultsWithin_segments nested (faultsWithin_logical _ depth) behind).bind
      (traced_segments nested rest) behind ?_
    rintro ⟨found, after⟩ left
    dsimp only
    split
    next => exact .ok _
    next =>
      split
      next => exact .fail left
      next => exact .fail left
  next => exact .fail List.suffix_rfl

/-- Faults of the body of a filter stand in the text it is a suffix of. -/
theorem faultsWithin_filterFrom {whole : Text} (limit depth : Nat) {start : Text}
    (inside : start <:+ whole)
    : FaultsWithin whole (filterFrom limit depth start) := by
  unfold filterFrom
  split
  next => exact .fail inside
  next =>
    refine (faultsWithin_logical limit depth start inside).bind
      (traced_logical limit depth start) inside ?_
    rintro ⟨e, rest⟩ left
    refine (faultsWithin_checkTest e inside).check ?_
    split
    next => exact .ok _
    next eq => exact .fail (suffix_of_skipBlanks left eq)

/-- Every fault of a filter stands in its text, behind a question mark or not. -/
theorem faultsWithin_filter (depth : Nat) (t : Text) : FaultsWithin t (filter depth t) := by
  unfold filter
  split
  next eq =>
    have mark := suffix_of_skipBlanks List.suffix_rfl eq
    exact faultsWithin_filterFrom _ depth (suffix_skipBlanks (suffix_of_cons mark))
  next => exact faultsWithin_filterFrom _ depth (suffix_skipBlanks List.suffix_rfl)

end JsonPath.Syntax
