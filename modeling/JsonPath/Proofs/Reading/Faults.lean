import JsonPath.Proofs.Grammar.Locality
import JsonPath.Proofs.Reading.Soundness

/-! What faults of the readers say about the text. All are syntax errors but one, which
stands for an integer of too many digits, and a reader only has this fault when the digits
are in the text. Every reader goes on to a suffix of its text, so that what a later reader
finds is in the text as well.
-/

namespace JsonPath

/-- Whether the cause is an integer of too many digits. -/
def SyntaxCause.isOversized : SyntaxCause → Bool
  | oversizedInteger _ => true
  | _ => false

namespace Syntax

open Grammar

/-- An integer part of this many digits stands in the text, and these are too many. -/
def HasOversized (t : Text) (count : Nat) : Prop :=
  ∃ before digits after,
    t = before ++ (digits ++ after)
    ∧ Whole digits
    ∧ digits.length = count
    ∧ Numeral.longest < count

/-- An integer part at the end of a text stands in the whole text. -/
theorem HasOversized.of_isSuffix {t rest : Text} {count : Nat} (h : HasOversized rest count)
    (suffix : rest <:+ t)
    : HasOversized t count := by
  obtain ⟨before, digits, after, rfl, whole, length, long⟩ := h
  obtain ⟨front, rfl⟩ := suffix
  exact ⟨front ++ before, digits, after, by simp, whole, length, long⟩

/-- A reading of the text that leaves a suffix of it, or has a fault that is explained by it.
What a result leaves is told by `left`.
-/
def Traced {α : Type} (left : α → Text) (t : Text) (reading : Except Fault α) : Prop :=
  match reading with
  | .ok result => left result <:+ t
  | .error fault => ∀ count, fault.cause = .oversizedInteger count → HasOversized t count

/-- Nothing is left by checks of what has been read, and by readers of whole texts. -/
def nothingLeft {α : Type} (_ : α) : Text :=
  []

/-- What is left when an item may have been read. -/
def leftIfAny {α : Type} (found : Option (α × Text)) : Text :=
  found.elim [] Prod.snd

namespace Traced

variable {α β : Type} {left : α → Text} {left' : β → Text} {t rest : Text}

/-- A result is traced when it leaves a suffix of the text. -/
theorem ok {result : α} (suffix : left result <:+ t) : Traced left t (.ok result) := suffix

theorem fail {cause : SyntaxCause} (isOther : cause.isOversized = false)
    : Traced left t (fail cause rest) := by
  rintro count ⟨rfl⟩
  cases isOther

/-- What is traced from a suffix is traced from the whole text. -/
theorem of_isSuffix {reading : Except Fault α} (h : Traced left rest reading)
    (suffix : rest <:+ t)
    : Traced left t reading := by
  cases reading with
  | ok _ => exact h.trans suffix
  | error _ => exact fun count eq => (h count eq).of_isSuffix suffix

/-- Readings compose: the second one reads what the first one leaves. -/
theorem bind {reading : Except Fault α} {f : α → Except Fault β} (first : Traced left t reading)
    (second : ∀ result, left result <:+ t → Traced left' t (f result))
    : Traced left' t (reading >>= f) := by
  cases reading with
  | ok result => exact second result first
  | error _ => exact first

/-- Mapping a result keeps it traced when the same text is left. -/
theorem map {reading : Except Fault α} {f : α → β} (h : Traced left t reading)
    (same : ∀ result, left' (f result) = left result)
    : Traced left' t (f <$> reading) :=
  h.bind fun result suffix => ok ((same result).symm ▸ suffix)

end Traced

theorem skipBlanks_isSuffix (t : Text) : Text.skipBlanks t <:+ t :=
  List.dropWhile_suffix _

/-- What stands behind the next character, once blanks are skipped. -/
theorem isSuffix_of_skipBlanks {t rest : Text} {c : CodePoint}
    (h : Text.skipBlanks t = c :: rest)
    : rest <:+ t :=
  (List.suffix_cons c rest).trans (h ▸ skipBlanks_isSuffix t)

-----------------------------------------------------------------------------------------
-- Tokens
-----------------------------------------------------------------------------------------

/-- A code unit is four digits at the start of the text. -/
theorem traced_codeUnit (mark t : Text) : Traced Prod.snd t (codeUnit mark t) := by
  unfold codeUnit
  split
  next a b c d rest =>
    split
    next => exact .ok (List.suffix_append [a, b, c, d] rest)
    next => exact .fail rfl
  next => exact .fail rfl

theorem traced_unicodeEscape (start t : Text) : Traced Prod.snd t (unicodeEscape start t) := by
  refine (traced_codeUnit start t).bind ?_
  rintro ⟨unit, rest⟩ suffix
  dsimp only
  split
  next => exact .fail rfl
  split
  next =>
    split
    next second =>
      have after : second <:+ t := (List.suffix_append [_, _] second).trans suffix
      refine ((traced_codeUnit _ second).of_isSuffix after).bind ?_
      rintro ⟨low, afterLow⟩ suffix
      dsimp only
      split
      next => exact .ok suffix
      next => exact .fail rfl
    next => exact .fail rfl
  next => exact .ok suffix

theorem traced_escape (quote : CodePoint) (start t : Text)
    : Traced Prod.snd t (escape quote start t) := by
  unfold escape
  split
  next => exact .fail rfl
  next c rest =>
    have suffix : rest <:+ c :: rest := List.suffix_cons c rest
    split
    next => exact .ok suffix
    split
    next => exact .ok suffix
    split
    next => exact (traced_unicodeEscape start rest).of_isSuffix suffix
    next => exact .fail rfl

/-- The rest of a string is traced, by recursion on its characters. -/
theorem traced_stringRest (quote : CodePoint) (start : Text) (limit : Nat) (t : Text)
    : Traced Prod.snd t (stringRest quote start limit t) := by
  induction limit generalizing t with
  | zero => exact .fail rfl
  | succ limit ih =>
      cases t with
      | nil => exact .fail rfl
      | cons c rest =>
          have suffix : rest <:+ c :: rest := List.suffix_cons c rest
          rw [stringRest]
          split
          next => exact .ok suffix
          split
          next => exact .fail rfl
          split
          next =>
            refine ((traced_escape quote (c :: rest) rest).of_isSuffix suffix).bind ?_
            rintro ⟨d, after⟩ suffix
            exact ((ih after).of_isSuffix suffix).map fun _ => rfl
          next => exact ((ih rest).of_isSuffix suffix).map fun _ => rfl

/-- Digits behind an optional minus stand in the text. -/
theorem hasOversized_of_minus {t digits rest : Text} {negative : Bool}
    (sign : Minus t negative (digits ++ rest)) (whole : Whole digits)
    (long : Numeral.longest < digits.length)
    : HasOversized t digits.length := by
  obtain ⟨before, rfl, _⟩ := isLocal_minus negative sign
  exact ⟨before, digits, rest, rfl, whole, rfl, long⟩

/-- The digits behind the sign are what is too long, if an integer is. -/
theorem traced_integer (t : Text) : Traced Prod.snd t (integer t) := by
  unfold integer
  split
  next negative unsigned sign =>
    split
    next => exact .fail rfl
    next digits rest scanned =>
      obtain ⟨whole, rfl⟩ := scanWhole?_sound scanned
      have signed := scanMinus_sound sign
      dsimp only
      split
      next => exact .fail rfl
      split
      next => exact .fail rfl
      split
      next long =>
        rintro count ⟨rfl⟩
        exact hasOversized_of_minus signed whole long
      split
      next => exact .fail rfl
      next =>
        have suffix : rest <:+ digits ++ rest := List.suffix_append digits rest
        exact .ok (suffix.trans (IsLocal.isSuffix (isLocal_minus negative) signed))

/-- Digits that are too many are a fault wherever an integer stands. -/
theorem integer_oversized {digits rest : Text} (whole : Whole digits)
    (long : Numeral.longest < digits.length) (ends : Avoids CodePoint.isNumericDigit rest)
    : integer (digits ++ rest) = fail (.oversizedInteger digits.length) (digits ++ rest) := by
  have noDigit : Avoids CodePoint.isDigit rest := ends.mono fun _ => isNumericDigit_of_isDigit
  have unsigned := scanMinus_complete (t := digits ++ rest) .absent whole
  simp only [integer, unsigned, scanWhole?_complete whole noDigit,
    startsWithDigit_eq_false ends, Bool.false_eq_true, false_and, if_false, if_pos long]

/-- The digits in front of the fraction are what is too long, if a number is. -/
theorem traced_number (t : Text) : Traced Prod.snd t (number t) := by
  unfold number
  split
  next => exact .fail rfl
  next literal rest scanned =>
    have spelling := scan?_sound scanned
    split
    next => exact .fail rfl
    next =>
      have suffix : rest <:+ t := IsLocal.isSuffix (isLocal_numeric literal) spelling
      cases value : literal.number with
      | ok n => exact .ok suffix
      | error count =>
          rintro _ ⟨rfl⟩
          unfold NumberLiteral.number at value
          split at value
          next long =>
            obtain rfl := Except.error.inj value
            obtain ⟨sign, whole, _, _⟩ := spelling
            exact hasOversized_of_minus sign whole long.2
          next => cases value

theorem traced_dotted (start : Text) (afterDescent : Bool) (t : Text)
    : Traced Prod.snd t (dotted start afterDescent t) := by
  have isOther
      : (if afterDescent then SyntaxCause.missingAfterDescent else .invalidName).isOversized
        = false := by
    cases afterDescent <;> rfl
  unfold dotted
  split
  next => exact .fail isOther
  next c rest =>
    split
    next => exact .ok (List.suffix_cons c rest)
    split
    next =>
      split
      next name after spanned =>
        obtain ⟨eq, _⟩ := of_span_eq spanned
        exact .ok ⟨name, eq.symm⟩
    split
    next => exact .fail rfl
    next => exact .fail isOther

-----------------------------------------------------------------------------------------
-- Repetition and checks
-----------------------------------------------------------------------------------------

/-- Reading items in a row is traced when reading one is, by recursion on their number. -/
theorem traced_many {α : Type} {next : Text → Except Fault (Option (α × Text))}
    (traced : ∀ t, Traced leftIfAny t (next t)) (limit : Nat) (t : Text)
    : Traced Prod.snd t (many next limit t) := by
  induction limit generalizing t with
  | zero => exact .ok List.suffix_rfl
  | succ limit ih =>
      refine (traced t).bind ?_
      rintro (_ | ⟨item, rest⟩) suffix
      · exact .ok List.suffix_rfl
      · exact ((ih rest).of_isSuffix suffix).map fun _ => rfl

/-- Reading one item and others behind it is traced when reading each of them is. -/
theorem traced_oneOrMore {α : Type} {next : Text → Except Fault (Option (α × Text))}
    {item : Text → Except Fault (α × Text)} (tracedNext : ∀ t, Traced leftIfAny t (next t))
    (traced : ∀ t, Traced Prod.snd t (item t)) (limit : Nat) (t : Text)
    : Traced Prod.snd t (oneOrMore next item limit t) := by
  refine (traced t).bind ?_
  rintro ⟨first, rest⟩ suffix
  exact ((traced_many tracedNext limit rest).of_isSuffix suffix).map fun _ => rfl

/-- The comma and the blanks around it are passed before the item. -/
theorem traced_afterComma {α : Type} {item : Text → Except Fault (α × Text)}
    (traced : ∀ t, Traced Prod.snd t (item t)) (t : Text)
    : Traced leftIfAny t (afterComma item t) := by
  unfold afterComma
  split
  next rest eq => exact ((traced rest).of_isSuffix (isSuffix_of_skipBlanks eq)).map fun _ => rfl
  next => exact .ok List.nil_suffix

theorem traced_afterOperator {α : Type} (operator : Char) {item : Text → Except Fault (α × Text)}
    (traced : ∀ t, Traced Prod.snd t (item t)) (t : Text)
    : Traced leftIfAny t (afterOperator operator item t) := by
  unfold afterOperator
  split
  next c d rest eq =>
    split
    next =>
      have suffix : Text.skipBlanks rest <:+ t :=
        (skipBlanks_isSuffix rest).trans
          ((List.suffix_cons _ rest).trans (isSuffix_of_skipBlanks eq))
      exact ((traced _).of_isSuffix suffix).map fun _ => rfl
    next => exact .ok List.nil_suffix
  next => exact .ok List.nil_suffix

/-- The check of a test has faults of its own kind only. -/
theorem traced_checkTest (e : Expression) (rest t : Text)
    : Traced nothingLeft t (checkTest e rest) := by
  unfold checkTest
  split
  next => exact .fail rfl
  split
  next => exact .fail rfl
  next => exact .ok List.nil_suffix

theorem traced_checkComparable (e : Expression) (rest t : Text)
    : Traced nothingLeft t (checkComparable e rest) := by
  unfold checkComparable
  split
  next => exact .fail rfl
  split
  next => exact .fail rfl
  next => exact .ok List.nil_suffix

/-- The checks of arguments have faults of their own kind, by recursion on the arguments. -/
theorem traced_checkArguments (name : Text) (found : List (Expression × Text))
    (kinds : List Kind) (t : Text)
    : Traced nothingLeft t (checkArguments name found kinds) := by
  induction found generalizing kinds with
  | nil => exact .ok List.nil_suffix
  | cons first found ih =>
      cases kinds with
      | nil => exact .ok List.nil_suffix
      | cons kind kinds =>
          rw [checkArguments]
          split
          next => exact ih kinds
          next => exact .fail rfl

/-- A wrong number or a wrong kind of arguments is no oversized integer. -/
theorem traced_checkCall (name start : Text) (found : List (Expression × Text)) (t : Text)
    : Traced nothingLeft t (checkCall name start found) := by
  unfold checkCall
  split
  next => exact .ok List.nil_suffix
  next =>
    dsimp only
    split
    next => exact .fail rfl
    next => exact traced_checkArguments name found _ t

/-- Checking the operands one after the other is traced, by induction on them. -/
theorem traced_forM_checkTest (es : List Expression) (rest t : Text)
    : Traced nothingLeft t (es.forM fun e => checkTest e rest) := by
  induction es with
  | nil => exact .ok List.nil_suffix
  | cons e es ih => exact (traced_checkTest e rest t).bind fun _ _ => ih

-----------------------------------------------------------------------------------------
-- Selectors and segments
-----------------------------------------------------------------------------------------

/-- A bound that is left out leaves all of the text, any other one is an integer. -/
theorem traced_bound (ends : List Char) (t : Text)
    : Traced Prod.snd t (indexOrSlice.bound ends t) := by
  unfold indexOrSlice.bound
  split
  next => exact .ok List.suffix_rfl
  next =>
    split
    next => exact .ok List.suffix_rfl
    next => exact (traced_integer _).map fun _ => rfl

/-- The bounds and the step of a slice are traced one behind the other. -/
theorem traced_slice (start : Option Int) (t : Text)
    : Traced Prod.snd t (indexOrSlice.slice start t) := by
  refine ((traced_bound _ _).of_isSuffix (skipBlanks_isSuffix t)).bind ?_
  rintro ⟨stop, afterStop⟩ suffix
  dsimp only
  have suffix : (if stop.isSome then Text.skipBlanks afterStop else afterStop) <:+ t := by
    split
    next => exact (skipBlanks_isSuffix afterStop).trans suffix
    next => exact suffix
  generalize (if stop.isSome then Text.skipBlanks afterStop else afterStop) = middle at suffix
  split
  next rest =>
    have suffix : Text.skipBlanks rest <:+ t :=
      (skipBlanks_isSuffix rest).trans ((List.suffix_cons _ rest).trans suffix)
    exact ((traced_bound _ _).of_isSuffix suffix).map fun _ => rfl
  next => exact .ok suffix

/-- An integer is read first, and a slice if a colon follows it. -/
theorem traced_indexOrSlice (t : Text) : Traced Prod.snd t (indexOrSlice t) := by
  unfold indexOrSlice
  split
  next rest => exact (traced_slice none rest).of_isSuffix (List.suffix_cons _ rest)
  next =>
    refine (traced_integer t).bind ?_
    rintro ⟨start, rest⟩ suffix
    dsimp only
    split
    next after eq =>
      exact (traced_slice _ after).of_isSuffix ((isSuffix_of_skipBlanks eq).trans suffix)
    next => exact .ok ((skipBlanks_isSuffix rest).trans suffix)

section Nesting

variable {limit : Nat} {nested : Text → Except Fault (Expression × Text)}
  (tracedNested : ∀ t, Traced Prod.snd t (nested t))

include tracedNested

/-- Selectors are traced when the filters nested in them are. -/
theorem traced_selector (t : Text) : Traced Prod.snd t (selector limit nested t) := by
  unfold selector
  split
  next => exact .fail rfl
  next c rest =>
    have suffix : rest <:+ c :: rest := List.suffix_cons c rest
    split
    next => exact ((traced_stringRest c _ limit rest).of_isSuffix suffix).map fun _ => rfl
    split
    next => exact .ok suffix
    split
    next =>
      refine ((tracedNested _).of_isSuffix ((skipBlanks_isSuffix rest).trans suffix)).bind ?_
      rintro ⟨test, after⟩ suffix
      exact (traced_checkTest test _ _).bind fun _ _ => .ok suffix
    split
    next => exact traced_indexOrSlice _
    split
    next => exact .fail rfl
    next => exact .fail rfl

theorem traced_item (start t : Text) : Traced Prod.snd t (bracketed.item limit nested start t) := by
  unfold bracketed.item
  split
  next => exact .fail rfl
  next => exact (traced_selector tracedNested _).of_isSuffix (skipBlanks_isSuffix t)

/-- A selection in brackets is traced as a list of selectors up to the bracket. -/
theorem traced_bracketed (start t : Text)
    : Traced Prod.snd t (bracketed limit nested start t) := by
  have item : ∀ t, Traced Prod.snd t (bracketed.item limit nested start t) :=
    traced_item tracedNested start
  refine (traced_oneOrMore (traced_afterComma item) item limit t).bind ?_
  rintro ⟨selectors, rest⟩ suffix
  dsimp only
  split
  next => exact .fail rfl
  next after eq => exact .ok ((isSuffix_of_skipBlanks eq).trans suffix)
  next => exact .fail rfl

/-- A segment is traced, behind a dot, a descent or a bracket. -/
theorem traced_segment (t : Text) : Traced leftIfAny t (segment limit nested t) := by
  unfold segment
  split
  next rest eq =>
    have suffix : rest <:+ t :=
      (List.suffix_append [_, _] rest).trans (isSuffix_of_skipBlanks eq)
    exact ((traced_bracketed tracedNested _ rest).of_isSuffix suffix).map fun _ => rfl
  next rest _ eq =>
    have suffix : rest <:+ t := (List.suffix_cons _ rest).trans (isSuffix_of_skipBlanks eq)
    exact ((traced_dotted _ true rest).of_isSuffix suffix).map fun _ => rfl
  next rest _ _ eq =>
    exact ((traced_dotted _ false rest).of_isSuffix (isSuffix_of_skipBlanks eq)).map fun _ => rfl
  next rest eq =>
    have suffix := isSuffix_of_skipBlanks eq
    exact ((traced_bracketed tracedNested _ rest).of_isSuffix suffix).map fun _ => rfl
  next => exact .ok List.nil_suffix

theorem traced_segments (t : Text) : Traced Prod.snd t (segments limit nested t) :=
  (traced_many (traced_segment tracedNested) limit t).map fun _ => rfl

-----------------------------------------------------------------------------------------
-- Expressions
-----------------------------------------------------------------------------------------

theorem traced_argument (t : Text) : Traced Prod.snd t (argument nested t) :=
  ((tracedNested _).of_isSuffix (skipBlanks_isSuffix t)).map fun _ => rfl

theorem traced_arguments (name start t : Text)
    : Traced Prod.snd t (arguments limit nested name start t) := by
  unfold arguments
  split
  next rest eq => exact .ok (isSuffix_of_skipBlanks eq)
  next =>
    have argument := traced_argument tracedNested
    have list := traced_oneOrMore (traced_afterComma argument) argument limit (Text.skipBlanks t)
    refine (list.of_isSuffix (skipBlanks_isSuffix t)).bind ?_
    rintro ⟨found, rest⟩ suffix
    dsimp only
    split
    next => exact .fail rfl
    next after eq => exact .ok ((isSuffix_of_skipBlanks eq).trans suffix)
    next => exact .fail rfl

/-- A word is a constant or the name of the function whose arguments follow. -/
theorem traced_callOrWord (t : Text) : Traced Prod.snd t (callOrWord limit nested t) := by
  have invalid : Traced Prod.snd t (callOrWord.invalid t) := by
    unfold callOrWord.invalid
    split
    next => exact .fail rfl
    next => exact .fail rfl
  unfold callOrWord
  split
  next name rest found =>
    obtain ⟨rfl, _⟩ := word_sound found
    split
    next => exact invalid
    next =>
      have suffix : rest <:+ name ++ .char '(' :: rest :=
        (List.suffix_cons _ rest).trans (List.suffix_append name _)
      refine ((traced_arguments tracedNested name _ rest).of_isSuffix suffix).bind ?_
      rintro ⟨found, after⟩ suffix
      exact (traced_checkCall name _ found _).bind fun _ _ => .ok suffix
  next name rest _ found =>
    obtain ⟨rfl, _⟩ := word_sound found
    split
    next => exact .ok (List.suffix_append name rest)
    next => exact invalid

/-- Operands are traced, by cases on the first character. -/
theorem traced_primary (t : Text) : Traced Prod.snd t (primary limit nested t) := by
  unfold primary
  split
  next => exact .fail rfl
  next c rest =>
    have suffix : rest <:+ c :: rest := List.suffix_cons c rest
    split
    next => exact ((traced_segments tracedNested rest).of_isSuffix suffix).map fun _ => rfl
    split
    next => exact ((traced_segments tracedNested rest).of_isSuffix suffix).map fun _ => rfl
    split
    next => exact ((traced_stringRest c _ limit rest).of_isSuffix suffix).map fun _ => rfl
    split
    next => exact (traced_number _).map fun _ => rfl
    next => exact traced_callOrWord tracedNested _

theorem traced_parenthesis (start t : Text) : Traced Prod.snd t (parenthesis nested start t) := by
  refine ((tracedNested _).of_isSuffix (skipBlanks_isSuffix t)).bind ?_
  rintro ⟨e, rest⟩ suffix
  refine (traced_checkTest e t t).bind fun _ _ => ?_
  split
  next => exact .fail rfl
  next after eq => exact .ok ((isSuffix_of_skipBlanks eq).trans suffix)
  next => exact .fail rfl

theorem traced_negated (t : Text) : Traced Prod.snd t (negated limit nested t) := by
  have checked {start : Text} (read : Expression × Text) (suffix : read.2 <:+ t)
      : Traced Prod.snd t (negated.checked start read) :=
    (traced_checkTest read.1 start t).bind fun _ _ => .ok suffix
  unfold negated
  split
  next rest =>
    have parenthesis := traced_parenthesis tracedNested (.char '(' :: rest) rest
    exact (parenthesis.of_isSuffix (List.suffix_cons _ rest)).bind checked
  next =>
    refine (traced_primary tracedNested t).bind ?_
    rintro ⟨operand, rest⟩ suffix
    dsimp only
    split
    next => exact checked _ suffix
    next => exact .fail rfl

/-- An operand is traced with the operator and the other operand, if these follow. -/
theorem traced_comparison (t : Text) : Traced Prod.snd t (comparison limit nested t) := by
  refine (traced_primary tracedNested t).bind ?_
  rintro ⟨left, rest⟩ suffix
  dsimp only
  split
  next => exact .ok suffix
  next comparator after found =>
    have suffix : Text.skipBlanks after <:+ t := by
      have operator : after <:+ Text.skipBlanks rest := ⟨_, (comparator?_sound found).symm⟩
      exact (skipBlanks_isSuffix after).trans
        (operator.trans ((skipBlanks_isSuffix rest).trans suffix))
    refine ((traced_primary tracedNested _).of_isSuffix suffix).bind ?_
    rintro ⟨right, end_⟩ suffix
    refine (traced_checkComparable left t t).bind fun _ _ => ?_
    exact (traced_checkComparable right _ t).bind fun _ _ => .ok suffix

theorem traced_basic (t : Text) : Traced Prod.snd t (basic limit nested t) := by
  unfold basic
  split
  next => exact traced_comparison tracedNested _
  next rest _ =>
    have suffix := (skipBlanks_isSuffix rest).trans (List.suffix_cons (.char '!') rest)
    exact (traced_negated tracedNested _).of_isSuffix suffix
  next rest => exact (traced_parenthesis tracedNested _ rest).of_isSuffix (List.suffix_cons _ rest)
  next => exact traced_comparison tracedNested t

omit tracedNested in
/-- Operands in a row are traced when each one is, and the checks of them change nothing. -/
theorem traced_operands {operator : Char} {operand : Text → Except Fault (Expression × Text)}
    (traced : ∀ t, Traced Prod.snd t (operand t)) (t : Text)
    : Traced Prod.snd t (operands limit operator operand t) := by
  refine (traced_oneOrMore (traced_afterOperator operator traced) traced limit t).bind ?_
  rintro ⟨found, rest⟩ suffix
  dsimp only
  split
  next => exact .ok suffix
  next => exact (traced_forM_checkTest found t t).bind fun _ _ => .ok suffix

/-- Conjunctions are traced as basic expressions in a row. -/
theorem traced_conjunction (t : Text) : Traced Prod.snd t (conjunction limit nested t) :=
  (traced_operands (traced_basic tracedNested) t).map fun _ => rfl

theorem traced_disjunction (t : Text) : Traced Prod.snd t (disjunction limit nested t) :=
  (traced_operands (traced_conjunction tracedNested) t).map fun _ => rfl

end Nesting

/-- Logical expressions are traced at every level of nesting, by induction on it. -/
theorem traced_logical (limit depth : Nat) (t : Text)
    : Traced Prod.snd t (logical limit depth t) := by
  induction depth generalizing t with
  | zero => exact .fail rfl
  | succ depth ih => exact traced_disjunction ih t

-----------------------------------------------------------------------------------------
-- Whole texts
-----------------------------------------------------------------------------------------

/-- An integer for whose length reading a query fails stands in the text. -/
theorem traced_query (depth : Nat) (t : Text) : Traced nothingLeft t (query depth t) := by
  unfold query
  split
  next => exact .fail rfl
  next rest =>
    have nested := traced_logical (CodePoint.char '$' :: rest).length depth
    refine ((traced_segments nested rest).of_isSuffix (List.suffix_cons _ rest)).bind ?_
    rintro ⟨found, after⟩ suffix
    dsimp only
    split
    next => exact .ok List.nil_suffix
    next =>
      split
      next => exact .fail rfl
      next => exact .fail rfl
  next => exact .fail rfl

/-- An integer for whose length reading the body of a filter fails stands in the text. -/
theorem traced_filterFrom (limit depth : Nat) (start : Text)
    : Traced nothingLeft start (filterFrom limit depth start) := by
  unfold filterFrom
  split
  next => exact .fail rfl
  next =>
    refine (traced_logical limit depth start).bind ?_
    rintro ⟨e, rest⟩ suffix
    refine (traced_checkTest e start start).bind fun _ _ => ?_
    split
    next => exact .ok List.nil_suffix
    next => exact .fail rfl

/-- The same of a filter, with a question mark in front of it or not. -/
theorem traced_filter (depth : Nat) (t : Text) : Traced nothingLeft t (filter depth t) := by
  unfold filter
  split
  next rest eq =>
    have suffix := (skipBlanks_isSuffix rest).trans (isSuffix_of_skipBlanks eq)
    exact (traced_filterFrom _ depth _).of_isSuffix suffix
  next => exact (traced_filterFrom _ depth _).of_isSuffix (skipBlanks_isSuffix t)

end Syntax

end JsonPath
