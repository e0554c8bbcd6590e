import JsonPath.Proofs.Reading.Shape
import JsonPath.Value.Reader

/-! Strings and numbers of documents are spelled as the literals of queries are: strings in
double quotes, numbers by the same rules. Every value that is read without parts is spelled
as a literal, but for strings with a surrogate on its own.
-/

namespace JsonPath.Document

open Grammar Outcome

-----------------------------------------------------------------------------------------
-- Strings
-----------------------------------------------------------------------------------------

/-- The digits of an escape are read when something follows them. -/
theorem codeUnit_of_digits (mark : Text) {t rest : Text} {unit : Nat}
    (h : CodeUnit t unit rest) (more : rest ≠ [])
    : codeUnit mark t = .ok (unit, rest) := by
  obtain ⟨value⟩ := h
  cases rest with
  | nil => exact absurd rfl more
  | cons _ _ => simp only [codeUnit, value]

theorem escape_of_simpleEscape {c d : CodePoint} (start rest : Text)
    (h : Syntax.simpleEscape? c = some d)
    : escape start (c :: rest) = .ok (d, rest) := by
  unfold Syntax.simpleEscape? at h
  split at h
  all_goals cases h
  all_goals rfl

/-- An escape is read as it is spelled, when something follows it. -/
theorem escape_complete {c : CodePoint} (start : Text) {t t' rest : Text}
    (h : StringCharacter (.char '"') t' c rest) (isEscape : t' = .char '\\' :: t)
    (more : rest ≠ [])
    : escape start t = .ok (c, rest) := by
  cases h with
  | plain _ notBackslash _ => exact absurd (List.cons.inj isEscape).1 notBackslash
  | quote =>
      obtain ⟨-, rfl⟩ := List.cons.inj isEscape
      rfl
  | simple value =>
      obtain ⟨-, rfl⟩ := List.cons.inj isEscape
      exact escape_of_simpleEscape start rest value
  | unit digits _ notHigh =>
      obtain ⟨-, rfl⟩ := List.cons.inj isEscape
      simp [escape, unicodeEscape, codeUnit_of_digits _ digits more, ok_bind, notHigh, pure_eq_ok]
  | pair first isHigh digits isLow =>
      obtain ⟨-, rfl⟩ := List.cons.inj isEscape
      simp [escape, unicodeEscape, codeUnit_of_digits _ first, codeUnit_of_digits _ digits more,
        ok_bind, isHigh, isLow, pure_eq_ok]

/-- What is spelled in double quotes is read, by induction on the characters. -/
theorem stringRest_complete (start : Text) {t content stop rest : Text} {limit : Nat}
    (h : Repeated (StringCharacter (.char '"')) t content stop) (atEnd : stop = .char '"' :: rest)
    (bound : t.length ≤ limit)
    : stringRest start limit t = .ok (content, rest) := by
  induction h generalizing limit with
  | none =>
      subst atEnd
      cases limit with
      | zero => simp at bound
      | succ limit => rfl
  | @more t c mid content stop first others ih =>
      have shorter := Syntax.length_lt_of_stringCharacter first
      have longer := Syntax.length_le_of_repeated Syntax.length_lt_of_stringCharacter others
      have more : mid ≠ [] := by
        rintro rfl
        simp [atEnd] at longer
      cases limit with
      | zero => omega
      | succ limit =>
          have tail : stringRest start limit mid = .ok (content, rest) := ih atEnd (by omega)
          by_cases isEscape : ∃ after, t = .char '\\' :: after
          · obtain ⟨after, rfl⟩ := isEscape
            simp [stringRest, escape_complete start first rfl more, tail, ok_bind]
          · cases first with
            | plain notQuote notBackslash notControl =>
                unfold stringRest
                split
                next => contradiction
                next eq => exact absurd (List.cons.inj eq).1 notQuote
                next eq => exact absurd (List.cons.inj eq).1 notBackslash
                next eq =>
                  obtain ⟨rfl, rfl⟩ := List.cons.inj eq
                  rw [if_neg (Nat.not_lt.mpr notControl), tail]
                  rfl
            | quote => exact absurd ⟨_, rfl⟩ isEscape
            | simple _ => exact absurd ⟨_, rfl⟩ isEscape
            | unit _ _ _ => exact absurd ⟨_, rfl⟩ isEscape
            | pair _ _ _ _ => exact absurd ⟨_, rfl⟩ isEscape

-----------------------------------------------------------------------------------------
-- Numbers and words
-----------------------------------------------------------------------------------------

/-- A number starts with a digit, possibly behind a minus sign. -/
theorem head_of_numeric {t rest : Text} {literal : NumberLiteral} (h : Numeric t literal rest)
    : ∃ c after, c.isDigit ∧ (t = c :: after ∨ t = .char '-' :: c :: after) := by
  obtain ⟨sign, isWhole, _, _⟩ := h
  obtain ⟨c, after, eq, isDigit⟩ := Syntax.head_of_whole isWhole _
  cases sign with
  | absent => exact ⟨c, after, isDigit, .inl eq⟩
  | present => exact ⟨c, after, isDigit, .inr (by rw [eq])⟩

/-- No word and no constant starts with a digit, or with a minus sign and a digit. -/
theorem after?_of_head {c : CodePoint} (isDigit : c.isDigit) {t after : Text}
    (head : t = c :: after ∨ t = .char '-' :: c :: after)
    : ∀ word ∈ words.map Prod.fst ++ constants, Text.after? word t = none := by
  have noLetter : ∀ d ∈ ['n', 't', 'f', 'N', 'I', '-'], CodePoint.char d ≠ c := by
    have noDigit : ∀ d ∈ ['n', 't', 'f', 'N', 'I', '-'], (CodePoint.char d).isDigit = false := by
      decide
    rintro d member rfl
    simp [noDigit d member] at isDigit
  simp only [List.mem_cons, List.not_mem_nil, or_false, forall_eq_or_imp, forall_eq] at noLetter
  obtain ⟨notNull, notTrue, notFalse, notNaN, notInfinity, notMinus⟩ := noLetter
  rcases head with rfl | rfl
  · simp [words, constants, Text.after?, Text.ofString, *]
  · simp [words, constants, Text.after?, Text.ofString, notInfinity]

/-- Numbers are read as they are spelled, as far as they reach. -/
theorem scalar_of_numeric {t rest : Text} {literal : NumberLiteral}
    (h : Numeric t literal rest) (short : (Value.number literal.value).isWritable)
    (ends : Syntax.Avoids Syntax.isNumberPart rest)
    : scalar t = .ok (.number literal.value, rest) := by
  obtain ⟨c, after, isDigit, head⟩ := head_of_numeric h
  have none := after?_of_head isDigit head
  have noWord : ∀ word ∈ words, Text.after? word.1 t = .none := by
    intro word member
    exact none word.1 (List.mem_append_left _ (List.mem_map_of_mem member))
  have noConstant : constants.find? (fun name => (Text.after? name t).isSome) = .none := by
    rw [List.find?_eq_none]
    intro name member
    simp [none name (List.mem_append_right _ member)]
  unfold scalar
  split
  next reading found =>
    obtain ⟨word, member, isRead⟩ := List.exists_of_findSome?_eq_some found
    simp only [noWord word member] at isRead
    cases isRead
  next =>
    simp only [noConstant, Syntax.scan?_complete h ends, Syntax.number_of_numeric h, if_pos short]

/-- What is read without parts, and is no string, is spelled as a literal. -/
theorem shortLiteral_of_scalar {t rest : Text} {value : Value}
    (h : scalar t = .ok (value, rest))
    : ShortLiteral t value rest := by
  unfold scalar at h
  split at h
  next reading found =>
    obtain rfl := Except.ok.inj h
    obtain ⟨⟨word, value⟩, member, isWord⟩ := List.exists_of_findSome?_eq_some found
    obtain ⟨after, isRead, same⟩ := Option.map_eq_some_iff.mp isWord
    obtain ⟨rfl, rfl⟩ := Prod.mk.inj same
    obtain rfl := Syntax.after?_eq_some.mp isRead
    simp only [words, List.mem_cons, Prod.mk.injEq, List.not_mem_nil, or_false] at member
    obtain ⟨rfl, rfl⟩ | ⟨rfl, rfl⟩ | ⟨rfl, rfl⟩ := member
    · exact .mk .null rfl
    · exact .mk .true rfl
    · exact .mk .false rfl
  next =>
    split at h
    next => cases h
    next =>
      split at h
      next => cases h
      next scanned =>
        split at h
        next value =>
          obtain ⟨rfl, rfl⟩ := Prod.mk.inj (Except.ok.inj h)
          exact Syntax.shortLiteral_of_number (Syntax.scan?_sound scanned) value
        next => cases h

end JsonPath.Document
