import JsonPath.Proofs.Number.Numerals
import JsonPath.Proofs.Text.CodePoints
import JsonPath.Proofs.Value.Places
import JsonPath.Proofs.Value.Scalars

/-! Where constants stand that are no JSON. Reading stops at a constant, and its place is
looked up afterwards, by a pass of its own over the whole text. Both go over the same string
literals and pass no constant outside of them, so the place that is found is where reading
has stopped: at the first constant that stands outside of string literals.
-/

namespace JsonPath.Document

open Grammar Outcome

/-- From inside a string literal to behind its closing quote. A backslash takes the
character behind it along, so that one does not close the string.
-/
inductive ClosesString : Text → Text → Prop
  | close {rest} : ClosesString (.char '"' :: rest) rest
  | escape {c t rest} (others : ClosesString t rest) : ClosesString (.char '\\' :: c :: t) rest
  | plain {c t rest} (notQuote : c ≠ .char '"') (notBackslash : c ≠ .char '\\')
    (others : ClosesString t rest)
    : ClosesString (c :: t) rest

/-- From `t` to `rest`, no constant begins outside of string literals. A sign in front of
`NaN` makes no constant, but would be looked up as one, and does not stand there either.
-/
inductive WithoutConstant : Text → Text → Prop
  | none {t} : WithoutConstant t t
  | string {inside t rest} (closes : ClosesString inside t) (others : WithoutConstant t rest)
    : WithoutConstant (.char '"' :: inside) rest
  | character {c t rest} (notQuote : c ≠ .char '"')
    (noConstant : ∀ name ∈ constants, ¬ name <+: c :: t) (noSign : ¬ ("-NaN" : Text) <+: c :: t)
    (others : WithoutConstant t rest)
    : WithoutConstant (c :: t) rest

-----------------------------------------------------------------------------------------
-- Texts without constants
-----------------------------------------------------------------------------------------

/-- What follows a string is a suffix of the text. -/
theorem closesString_isSuffix {t rest : Text} (h : ClosesString t rest) : rest <:+ t := by
  induction h with
  | close => exact List.suffix_cons _ _
  | escape _ ih => exact ih.trans (List.suffix_append [_, _] _)
  | plain _ _ _ ih => exact ih.trans (List.suffix_cons _ _)

theorem ne_of_class {p : CodePoint → Bool} {c : CodePoint} {others : List Char} (h : p c)
    (outside : ∀ d ∈ others, p (.char d) = false)
    : ∀ d ∈ others, c ≠ .char d := by
  rintro d member rfl
  simp [outside d member] at h

namespace WithoutConstant

variable {t mid rest : Text}

theorem isSuffix (h : WithoutConstant t rest) : rest <:+ t := by
  induction h with
  | none => exact List.suffix_rfl
  | string closes _ ih =>
      exact (ih.trans (closesString_isSuffix closes)).trans (List.suffix_cons _ _)
  | character _ _ _ _ ih => exact ih.trans (List.suffix_cons _ _)

/-- Parts without constants one behind the other have none. -/
theorem trans (first : WithoutConstant t mid) (second : WithoutConstant mid rest)
    : WithoutConstant t rest := by
  induction first with
  | none => exact second
  | string closes _ ih => exact .string closes (ih second)
  | character notQuote noConstant noSign _ ih =>
      exact .character notQuote noConstant noSign (ih second)

/-- The characters with which a string literal or a constant can begin. -/
def starts : List Char :=
  ['"', 'N', 'I', '-']

/-- A character that starts neither a string nor a constant is passed. -/
theorem plain {c : CodePoint} (isPlain : ∀ d ∈ starts, c ≠ .char d)
    (others : WithoutConstant t rest)
    : WithoutConstant (c :: t) rest := by
  simp only [starts, List.mem_cons, List.not_mem_nil, or_false, forall_eq_or_imp, forall_eq]
    at isPlain
  obtain ⟨notQuote, notN, notI, notMinus⟩ := isPlain
  refine .character notQuote ?_ ?_ others
  · simp [constants, Text.ofString, List.cons_prefix_cons, notN.symm, notI.symm, notMinus.symm]
  · simp [Text.ofString, List.cons_prefix_cons, notMinus.symm]

/-- Characters that start neither strings nor constants are passed, by induction on the word.
-/
theorem plains {word : Text} (arePlain : ∀ c ∈ word, ∀ d ∈ starts, c ≠ CodePoint.char d)
    (rest : Text)
    : WithoutConstant (word ++ rest) rest := by
  induction word with
  | nil => exact .none
  | cons c word ih =>
      obtain ⟨first, others⟩ := List.forall_mem_cons.mp arePlain
      exact .plain first (ih others)

/-- A minus sign begins a constant only in front of a letter. -/
theorem minus {c : CodePoint} (isDigit : c.isDigit) (others : WithoutConstant (c :: t) rest)
    : WithoutConstant (.char '-' :: c :: t) rest := by
  have notLetter : ∀ d ∈ ['N', 'I'], c ≠ .char d := ne_of_class isDigit (by decide)
  simp only [List.mem_cons, List.not_mem_nil, or_false, forall_eq_or_imp, forall_eq]
    at notLetter
  refine .character (by decide) ?_ ?_ others
  · simp [constants, Text.ofString, List.cons_prefix_cons, notLetter.2.symm]
  · simp [Text.ofString, List.cons_prefix_cons, notLetter.1.symm]

/-- Blanks have no constants. -/
theorem of_blanks (h : Blanks t rest) : WithoutConstant t rest := by
  induction h with
  | none => exact .none
  | more blank _ ih => exact .plain (ne_of_class blank (by decide)) ih

/-- Skipping blanks passes no constant. -/
theorem skipBlanks (t : Text) : WithoutConstant t (Text.skipBlanks t) :=
  of_blanks (Syntax.blanks_skipBlanks t)

/-- A character behind blanks is passed when it starts nothing. -/
theorem punctuation {d : Char} (h : Text.skipBlanks t = .char d :: rest) (isPlain : d ∉ starts)
    : WithoutConstant t rest := by
  refine (skipBlanks t).trans (h ▸ .plain ?_ .none)
  rintro e member eq
  obtain rfl := CodePoint.char.inj eq
  exact isPlain member

theorem digits {digits : Text} (areDigits : ∀ c ∈ digits, CodePoint.isDigit c) (rest : Text)
    : WithoutConstant (digits ++ rest) rest :=
  plains (fun c member => ne_of_class (areDigits c member) (by decide)) rest

/-- A minus in front of a digit is no start of a constant. -/
theorem of_minus {negative : Bool} {whole : Text} (h : Minus t negative (whole ++ mid))
    (isWhole : Whole whole)
    : WithoutConstant t mid := by
  have passes := digits (isDigits_of_whole isWhole).2 mid
  obtain ⟨c, after, eq, isDigit⟩ := Syntax.head_of_whole isWhole mid
  generalize whole ++ mid = behind at h eq passes
  subst eq
  cases h with
  | absent => exact passes
  | present => exact minus isDigit passes

theorem of_fraction {fraction : Text} (h : Fraction t fraction rest)
    : WithoutConstant t rest := by
  cases h with
  | absent => exact .none
  | digits isDigits => exact .plain (by decide) (digits isDigits.2 rest)

theorem of_exponent {exponent : Option (Bool × Text)} (h : Exponent t exponent rest)
    : WithoutConstant t rest := by
  cases h with
  | absent => exact .none
  | @digits letter sign negative ds rest isLetter hasSign isDigits =>
      have passes := digits isDigits.2 rest
      have signed : WithoutConstant (sign ++ ds ++ rest) rest := by
        cases hasSign with
        | absent => exact passes
        | plus => exact .plain (by decide) passes
        | minus =>
            obtain ⟨c, cs, rfl⟩ := List.exists_cons_of_ne_nil isDigits.1
            exact .minus (isDigits.2 c (by simp)) passes
      rcases isLetter with rfl | rfl
      all_goals exact .plain (by decide) signed

/-- A number has no constants, part by part. -/
theorem of_numeric {literal : NumberLiteral} (h : Numeric t literal rest)
    : WithoutConstant t rest := by
  obtain ⟨sign, isWhole, hasFraction, hasExponent⟩ := h
  exact ((of_minus sign isWhole).trans (of_fraction hasFraction)).trans (of_exponent hasExponent)

end WithoutConstant

-----------------------------------------------------------------------------------------
-- Looking up the place
-----------------------------------------------------------------------------------------

/-- The scan arrives behind the quote that closes the string. -/
theorem afterString?_of_closesString {t rest : Text} (h : ClosesString t rest)
    : afterString? t = some rest := by
  induction h with
  | close => rfl
  | escape _ ih => exact ih
  | plain notQuote notBackslash _ ih =>
      unfold afterString?
      split
      next eq => cases eq
      next eq => exact absurd (List.cons.inj eq).1 notQuote
      next eq => exact absurd (List.cons.inj eq).1 notBackslash
      next eq => exact absurd (List.cons.inj eq).1 notBackslash
      next eq =>
        obtain ⟨-, rfl⟩ := List.cons.inj eq
        exact ih

/-- A word can be passed exactly when it is a prefix. -/
theorem isSome_after? {word t : Text} : (Text.after? word t).isSome ↔ word <+: t := by
  rw [Option.isSome_iff_exists]
  refine exists_congr fun rest => ?_
  rw [Syntax.after?_eq_some, eq_comm]

/-- The scan stops at the constants and at one look-alike. -/
theorem startsWithConstant_iff {t : Text}
    : startsWithConstant t ↔ (∃ name ∈ constants, name <+: t) ∨ ("-NaN" : Text) <+: t := by
  unfold startsWithConstant
  split
  next rest =>
    simp only [Bool.or_eq_true, isSome_after?]
    simp [constants, Text.ofString, List.cons_prefix_cons, or_comm]
  next notMinus =>
    simp only [Bool.or_eq_true, isSome_after?]
    have noMinus (word : Text) : ¬ .char '-' :: word <+: t := by
      rintro ⟨rest, rfl⟩
      exact notMinus _ rfl
    simp [constants, Text.ofString, noMinus]

/-- The scan goes on behind a character where no constant starts. -/
theorem firstConstant?_cons {c : CodePoint} (notQuote : c ≠ .char '"') (limit : Nat) (t : Text)
    : firstConstant? (limit + 1) (c :: t)
      = if startsWithConstant (c :: t) then some (c :: t) else firstConstant? limit t := by
  rw [firstConstant?]
  exact notQuote

theorem firstConstant?_of_startsWithConstant {t : Text} (starts : startsWithConstant t)
    (limit : Nat)
    : firstConstant? (limit + 1) t = some t := by
  cases t with
  | nil => cases starts
  | cons c t =>
      have notQuote : c ≠ .char '"' := by
        rintro rfl
        cases starts
      rw [firstConstant?_cons notQuote, if_pos starts]

/-- The first constant is found, by induction on what stands before it. -/
theorem firstConstant?_of_withoutConstant {limit : Nat} {name t rest : Text}
    (h : WithoutConstant t rest) (isConstant : name ∈ constants) (begins : name <+: rest)
    (bound : t.length < limit)
    : firstConstant? limit t = some rest := by
  induction h generalizing limit with
  | none =>
      obtain ⟨limit, rfl⟩ : ∃ n, limit = n + 1 := ⟨limit - 1, by omega⟩
      exact firstConstant?_of_startsWithConstant
        (startsWithConstant_iff.mpr (.inl ⟨name, isConstant, begins⟩)) limit
  | string closes _ ih =>
      obtain ⟨limit, rfl⟩ : ∃ n, limit = n + 1 := ⟨limit - 1, by omega⟩
      have shorter := (closesString_isSuffix closes).length_le
      rw [List.length_cons] at bound
      rw [firstConstant?, afterString?_of_closesString closes]
      exact ih begins (by omega)
  | @character c t _ notQuote noConstant noSign _ ih =>
      obtain ⟨limit, rfl⟩ : ∃ n, limit = n + 1 := ⟨limit - 1, by omega⟩
      have notFound : ¬ startsWithConstant (c :: t) := by
        rw [startsWithConstant_iff]
        rintro (⟨name, isConstant, begins⟩ | sign)
        · exact noConstant name isConstant begins
        · exact noSign sign
      rw [firstConstant?_cons notQuote, if_neg notFound]
      exact ih begins (by simpa using bound)

-----------------------------------------------------------------------------------------
-- Strings
-----------------------------------------------------------------------------------------

/-- The reading can fail, but not at a constant. -/
def NeverConstant {α : Type} (reading : Except Fault α) : Prop :=
  ∀ fault, reading = .error fault → ∀ name, fault.cause ≠ .constant name

namespace NeverConstant

variable {α β : Type}

/-- A result stops at no constant when what is read has none. -/
theorem ok (result : α) : NeverConstant (.ok result) := nofun

theorem fail {cause : Malformation} {rest : Text} (other : ∀ name, cause ≠ .constant name)
    : NeverConstant (fail cause rest : Except Fault α) := by
  rintro _ ⟨rfl⟩
  exact other

theorem bind {reading : Except Fault α} {f : α → Except Fault β} (first : NeverConstant reading)
    (second : ∀ result, NeverConstant (f result))
    : NeverConstant (reading >>= f) := by
  intro fault h
  rcases bind_eq_error.mp h with failed | ⟨result, -, failed⟩
  · exact first fault failed
  · exact second result fault failed

end NeverConstant

/-- Code units never stop at a constant. -/
theorem neverConstant_codeUnit (mark t : Text) : NeverConstant (codeUnit mark t) := by
  unfold codeUnit
  split
  next =>
    split
    next => exact .ok _
    next => exact .fail nofun
  next => exact .fail nofun

theorem neverConstant_escape (start t : Text) : NeverConstant (escape start t) := by
  unfold escape
  split
  next => exact .fail nofun
  next rest =>
    refine (neverConstant_codeUnit _ rest).bind ?_
    rintro ⟨unit, rest⟩
    dsimp only
    split
    next second _ =>
      refine (neverConstant_codeUnit _ second).bind ?_
      rintro ⟨low, after⟩
      dsimp only
      split
      next => exact .ok _
      next => exact .ok _
    next => exact .ok _
  next =>
    split
    next => exact .ok _
    next => exact .fail nofun

/-- By induction on the limit. -/
theorem neverConstant_stringRest (start : Text) (limit : Nat) (t : Text)
    : NeverConstant (stringRest start limit t) := by
  induction limit generalizing t with
  | zero => exact .fail nofun
  | succ limit ih =>
      unfold stringRest
      split
      next => exact .fail nofun
      next => exact .ok _
      next rest =>
        exact (neverConstant_escape start rest).bind fun _ => (ih _).bind fun _ => .ok _
      next =>
        split
        next => exact .fail nofun
        next => exact (ih _).bind fun _ => .ok _

/-- A hexadecimal digit inside of a string does not close it. -/
theorem ClosesString.hexDigit {c : CodePoint} {t rest : Text} (h : c.hexDigit?.isSome)
    (closes : ClosesString t rest)
    : ClosesString (c :: t) rest := by
  refine .plain ?_ ?_ closes
  all_goals
    rintro rfl
    cases h

/-- The string is closed behind the digits of a code unit. -/
theorem closesString_of_codeUnit {mark t rest stop : Text} {unit : Nat}
    (h : codeUnit mark t = .ok (unit, rest)) (closes : ClosesString rest stop)
    : ClosesString t stop := by
  unfold codeUnit at h
  split at h
  next a b c d e after =>
    split at h
    next value =>
      obtain ⟨-, rfl⟩ := Prod.mk.inj (Except.ok.inj h)
      have digits := (Numeral.of_hexToNat?_eq_some value).1
      simp only [List.mem_cons, List.not_mem_nil, or_false, forall_eq_or_imp, forall_eq] at digits
      obtain ⟨first, second, third, fourth⟩ := digits
      exact .hexDigit first (.hexDigit second (.hexDigit third (.hexDigit fourth closes)))
    next => cases h
  next => cases h

/-- An escape reaches as far as the backslash takes the text along, or further over digits
and a second escape.
-/
theorem closesString_of_escape {start t rest stop : Text} {c : CodePoint}
    (h : escape start t = .ok (c, rest)) (closes : ClosesString rest stop)
    : ClosesString (.char '\\' :: t) stop := by
  unfold escape at h
  split at h
  next => cases h
  next digits =>
    obtain ⟨⟨unit, after⟩, isRead, h⟩ := bind_eq_ok.mp h
    refine .escape (closesString_of_codeUnit isRead ?_)
    dsimp only at h
    split at h
    next =>
      obtain ⟨⟨low, afterLow⟩, isRead, h⟩ := bind_eq_ok.mp h
      dsimp only at h
      split at h
      next =>
        obtain ⟨-, rfl⟩ := Prod.mk.inj (pure_eq_ok.mp h)
        exact .escape (closesString_of_codeUnit isRead closes)
      next =>
        obtain ⟨-, rfl⟩ := Prod.mk.inj (pure_eq_ok.mp h)
        exact closes
    next =>
      obtain ⟨-, rfl⟩ := Prod.mk.inj (pure_eq_ok.mp h)
      exact closes
  next =>
    split at h
    next =>
      obtain ⟨-, rfl⟩ := Prod.mk.inj (Except.ok.inj h)
      exact .escape closes
    next => cases h

/-- A string that is read ends at its closing quote, by induction on the limit. -/
theorem closesString_of_stringRest {start t content rest : Text} {limit : Nat}
    (h : stringRest start limit t = .ok (content, rest))
    : ClosesString t rest := by
  induction limit generalizing t content with
  | zero => cases h
  | succ limit ih =>
      unfold stringRest at h
      split at h
      next => cases h
      next =>
        obtain ⟨-, rfl⟩ := Prod.mk.inj (Except.ok.inj h)
        exact .close
      next =>
        obtain ⟨_, isEscape, h⟩ := bind_eq_ok.mp h
        obtain ⟨_, isRead, h⟩ := bind_eq_ok.mp h
        obtain ⟨-, rfl⟩ := Prod.mk.inj (pure_eq_ok.mp h)
        exact closesString_of_escape isEscape (ih isRead)
      next notQuote notBackslash =>
        split at h
        next => cases h
        next =>
          obtain ⟨_, isRead, h⟩ := bind_eq_ok.mp h
          obtain ⟨-, rfl⟩ := Prod.mk.inj (pure_eq_ok.mp h)
          exact .plain notQuote notBackslash (ih isRead)

-----------------------------------------------------------------------------------------
-- Values
-----------------------------------------------------------------------------------------

/-- A reading passes no constant, and when it stops at one, it stands there. -/
structure StopsAtConstants {α : Type} (t : Text) (reading : Except Fault (α × Text)) : Prop where
  passes {result : α} {rest : Text} (read : reading = .ok (result, rest))
    : WithoutConstant t rest
  stops {name rest : Text} (failed : reading = .error ⟨.constant name, rest⟩)
    : WithoutConstant t rest ∧ name ∈ constants ∧ name <+: rest

namespace StopsAtConstants

variable {α β : Type} {t mid rest : Text}

theorem ok {result : α} (passes : WithoutConstant t rest)
    : StopsAtConstants t (.ok (result, rest)) where
  passes read := by
    obtain ⟨-, rfl⟩ := Prod.mk.inj (Except.ok.inj read)
    exact passes
  stops := nofun

theorem fail {cause : Malformation} (other : ∀ name, cause ≠ .constant name)
    : StopsAtConstants t (fail cause rest : Except Fault (α × Text)) where
  passes := nofun
  stops failed := absurd (congrArg Fault.cause (Except.error.inj failed)) (other _)

/-- Readings compose: the second one starts where the first one has left off. -/
theorem bind {reading : Except Fault (α × Text)} {f : α × Text → Except Fault (β × Text)}
    (first : StopsAtConstants t reading)
    (second : ∀ result rest, StopsAtConstants rest (f (result, rest)))
    : StopsAtConstants t (reading >>= f) where
  passes read := by
    obtain ⟨⟨result, mid⟩, isFirst, isSecond⟩ := bind_eq_ok.mp read
    exact (first.passes isFirst).trans ((second result mid).passes isSecond)
  stops failed := by
    rcases bind_eq_error.mp failed with failed | ⟨⟨result, mid⟩, isFirst, failed⟩
    · exact first.stops failed
    · obtain ⟨passes, found⟩ := (second result mid).stops failed
      exact ⟨(first.passes isFirst).trans passes, found⟩

/-- A reading that begins behind something without constants. -/
theorem behind {reading : Except Fault (α × Text)} (passes : WithoutConstant t mid)
    (h : StopsAtConstants mid reading)
    : StopsAtConstants t reading where
  passes read := passes.trans (h.passes read)
  stops failed := (h.stops failed).imp_left passes.trans

end StopsAtConstants

/-- From its opening quote on, a string is passed as a whole. -/
theorem stopsAtConstants_string (start : Text) (limit : Nat) (t : Text)
    : StopsAtConstants (.char '"' :: t) (stringRest start limit t) where
  passes read := .string (closesString_of_stringRest read) .none
  stops failed := absurd rfl (neverConstant_stringRest start limit t _ failed _)

/-- Scalars are read up to the first constant, by cases on the first character. -/
theorem stopsAtConstants_scalar (t : Text) : StopsAtConstants t (scalar t) := by
  unfold scalar
  split
  next reading found =>
    obtain ⟨⟨word, value⟩, member, isWord⟩ := List.exists_of_findSome?_eq_some found
    obtain ⟨after, isRead, rfl⟩ := Option.map_eq_some_iff.mp isWord
    obtain rfl := Syntax.after?_eq_some.mp isRead
    have arePlain : ∀ word ∈ words.map Prod.fst, ∀ c ∈ word, ∀ d ∈ WithoutConstant.starts,
        c ≠ .char d := by
      decide
    exact .ok (.plains (arePlain word (List.mem_map_of_mem member)) after)
  next =>
    split
    next name found =>
      refine ⟨nofun, fun failed => ?_⟩
      cases failed
      have begins : (Text.after? name t).isSome := by simpa using List.find?_some found
      exact ⟨.none, List.mem_of_find?_eq_some found, isSome_after?.mp begins⟩
    next =>
      split
      next => exact .fail nofun
      next scanned =>
        split
        next => exact .ok (.of_numeric (Syntax.scan?_sound scanned))
        next => exact .fail nofun

section Parts

variable {nested : Text → Except Fault (Value × Text)}
  (inside : ∀ t, StopsAtConstants t (nested t))

include inside

/-- By induction on the limit. -/
theorem stopsAtConstants_elements (limit : Nat) (t : Text)
    : StopsAtConstants t (elements nested limit t) := by
  induction limit generalizing t with
  | zero => exact .fail nofun
  | succ limit ih =>
      refine (inside t).bind fun value rest => ?_
      dsimp only
      split
      next isBracket => exact .ok (.punctuation isBracket (by decide))
      next after isComma =>
        have passes := (WithoutConstant.punctuation isComma (by decide)).trans (.skipBlanks after)
        exact .behind passes ((ih _).bind fun _ _ => .ok .none)
      next => exact .fail nofun

/-- By induction on the limit. -/
theorem stopsAtConstants_members (limit : Nat) (t : Text)
    : StopsAtConstants t (members nested limit t) := by
  induction limit generalizing t with
  | zero => exact .fail nofun
  | succ limit ih =>
      unfold members
      split
      next rest =>
        refine (stopsAtConstants_string _ limit rest).bind fun name rest => ?_
        dsimp only
        split
        next afterColon isColon =>
          have passes :=
            (WithoutConstant.punctuation isColon (by decide)).trans (.skipBlanks afterColon)
          refine .behind passes ((inside _).bind fun value rest => ?_)
          dsimp only
          split
          next isBrace => exact .ok (.punctuation isBrace (by decide))
          next after isComma =>
            have passes :=
              (WithoutConstant.punctuation isComma (by decide)).trans (.skipBlanks after)
            exact .behind passes ((ih _).bind fun _ _ => .ok .none)
          next => exact .fail nofun
        next => exact .fail nofun
      next => exact .fail nofun

/-- Values are read up to the first constant when nested ones are. -/
theorem stopsAtConstants_valueWith (limit : Nat) (t : Text)
    : StopsAtConstants t (valueWith limit nested t) := by
  unfold valueWith
  split
  next rest => exact (stopsAtConstants_string _ limit rest).bind fun _ _ => .ok .none
  next rest =>
    have bracket : WithoutConstant (.char '[' :: rest) rest := .plain (by decide) .none
    refine .behind bracket ?_
    split
    next isBracket => exact .ok (.punctuation isBracket (by decide))
    next =>
      refine .behind (.skipBlanks rest) ?_
      exact (stopsAtConstants_elements inside limit _).bind fun _ _ => .ok .none
  next rest =>
    have brace : WithoutConstant (.char '\x7b' :: rest) rest := .plain (by decide) .none
    refine .behind brace ?_
    split
    next isBrace => exact .ok (.punctuation isBrace (by decide))
    next =>
      refine .behind (.skipBlanks rest) ?_
      exact (stopsAtConstants_members inside limit _).bind fun _ _ => .ok .none
  next => exact stopsAtConstants_scalar _

end Parts

/-- By induction on the depth. -/
theorem stopsAtConstants_value (limit depth : Nat) (t : Text)
    : StopsAtConstants t (value limit depth t) := by
  induction depth generalizing t with
  | zero => exact .fail nofun
  | succ depth ih => exact stopsAtConstants_valueWith ih limit t

/-- Reading a document that stops at a constant has passed none before. -/
theorem withoutConstant_of_read {depth : Nat} {document name rest : Text}
    (h : read depth document = .error ⟨.constant name, rest⟩)
    : WithoutConstant document rest ∧ name ∈ constants ∧ name <+: rest := by
  unfold read at h
  split at h
  next => cases h
  next =>
    have reading := StopsAtConstants.behind (.skipBlanks document)
      (stopsAtConstants_value (document.length + 1) depth (Text.skipBlanks document))
    rcases bind_eq_error.mp h with failed | ⟨⟨found, after⟩, -, failed⟩
    · exact reading.stops failed
    · dsimp only at failed
      split at failed
      next => cases failed
      next => cases failed

/-- Reading that stops at a constant is reported at its place, and the constant there is the
first one outside of string literals.
-/
theorem position_of_constant {depth : Nat} {document name rest : Text}
    (h : read depth document = .error ⟨.constant name, rest⟩)
    : ∃ before after, document = before ++ rest ∧ rest = name ++ after ∧ name ∈ constants
      ∧ WithoutConstant document rest
      ∧ ∃ error, decodeWithin depth document = .error error ∧ error.cause = .constant name
        ∧ error.IsBehind before := by
  obtain ⟨without, isConstant, begins⟩ := withoutConstant_of_read h
  obtain ⟨before, rfl⟩ := without.isSuffix
  have found := firstConstant?_of_withoutConstant without isConstant begins (Nat.lt_add_one _)
  have position : Fault.position ⟨.constant name, rest⟩ (before ++ rest) = before.length := by
    simp only [Fault.position, found]
    simp
  have decoded : decodeWithin depth (before ++ rest)
      = .error (.located (.constant name) (before ++ rest) before.length) := by
    rw [decodeWithin, h, ← position]
    rfl
  obtain ⟨after, rfl⟩ := begins
  have inside : before.length ≤ (before ++ (name ++ after)).length := by simp
  have behind := MalformedJson.isBehind_located (.constant name) inside
  rw [List.take_left] at behind
  exact ⟨before, after, rfl, rfl, isConstant, without, _, decoded, rfl, behind⟩

deriving instance DecidableEq for Fault

instance decidableEqError {ε α : Type} [DecidableEq ε] (reading : Except ε α) (error : ε)
    : Decidable (reading = .error error) :=
  match reading with
  | .ok _ => isFalse nofun
  | .error other => decidable_of_iff (other = error) ⟨congrArg _, Except.error.inj⟩

/-- An object with a look-alike in a name, behind an escaped quote, and one after the
constant.
-/
def lookAlikes : Text :=
  "\x7b\"a\\\"NaN\":\n[\"\\\\\", -Infinity, NaN"

/-- The look-alike in the name is passed, and the one behind the constant is not reached. -/
theorem position_of_constant_lookAlikes
    : read maxDepth lookAlikes = .error ⟨.constant "-Infinity", "-Infinity, NaN"⟩
      ∧ ∃ error, decode lookAlikes = .error error ∧ error.position = 18 ∧ error.line = 2 := by
  have stops : read maxDepth lookAlikes = .error ⟨.constant "-Infinity", "-Infinity, NaN"⟩ := by
    decide +kernel
  obtain ⟨before, _, split, -, -, -, error, decoded, -, position, line, -⟩ :=
    position_of_constant stops
  have front : lookAlikes = lookAlikes.take 18 ++ "-Infinity, NaN" := by decide
  obtain rfl := List.append_cancel_right (split.symm.trans front)
  exact ⟨stops, error, decoded, position, line⟩

end JsonPath.Document
