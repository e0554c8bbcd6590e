import JsonPath.Proofs.Reading.Basic

/-! Quoted strings are read exactly as they are spelled, escapes and surrogate pairs
included.
-/

namespace JsonPath.Syntax

open Grammar Outcome

/-- A code unit is read exactly when four hexadecimal digits spell it. -/
theorem codeUnit_eq_ok {mark t rest : Text} {unit : Nat}
    : codeUnit mark t = .ok (unit, rest) ↔ CodeUnit t unit rest := by
  constructor
  · intro h
    unfold codeUnit at h
    split at h
    next a b c d after =>
      split at h
      next value found =>
        obtain ⟨rfl, rfl⟩ := Prod.mk.inj (Except.ok.inj h)
        exact .digits found
      next => simp [fail] at h
    next => simp [fail] at h
  · rintro ⟨value⟩
    simp only [codeUnit, value]

/-- A numeric escape gives one unit that is no surrogate, or joins a pair of them. -/
theorem unicodeEscape_sound {quote c : CodePoint} {start t rest : Text}
    (h : unicodeEscape start t = .ok (c, rest))
    : StringCharacter quote (.char '\\' :: .char 'u' :: t) c rest := by
  simp only [unicodeEscape, bind_eq_ok] at h
  obtain ⟨⟨unit, afterUnit⟩, digits, h⟩ := h
  have digits := codeUnit_eq_ok.mp digits
  dsimp only at h
  split at h
  next => simp [fail] at h
  next notLow =>
    split at h
    next isHigh =>
      split at h
      next second =>
        simp only [bind_eq_ok] at h
        obtain ⟨⟨low, after⟩, lowDigits, h⟩ := h
        have lowDigits := codeUnit_eq_ok.mp lowDigits
        dsimp only at h
        split at h
        next isLow =>
          obtain ⟨rfl, rfl⟩ := Prod.mk.inj (pure_eq_ok.mp h)
          exact .pair digits isHigh lowDigits isLow
        next => simp [fail] at h
      next => simp [fail] at h
    next notHigh =>
      obtain ⟨rfl, rfl⟩ := Prod.mk.inj (pure_eq_ok.mp h)
      exact .unit digits (by simpa using notLow) (by simpa using notHigh)

/-- A character that is read from an escape is spelled by it. -/
theorem escape_sound {quote c : CodePoint} {start t rest : Text}
    (h : escape quote start t = .ok (c, rest))
    : StringCharacter quote (.char '\\' :: t) c rest := by
  unfold escape at h
  split at h
  next => simp [fail] at h
  next d after =>
    split at h
    next isQuote =>
      obtain ⟨rfl, rfl⟩ := Prod.mk.inj (Except.ok.inj h)
      subst isQuote
      exact .quote
    next =>
      split at h
      next value =>
        obtain ⟨rfl, rfl⟩ := Prod.mk.inj (Except.ok.inj h)
        exact .simple value
      next =>
        split at h
        next isNumeric =>
          subst isNumeric
          exact unicodeEscape_sound h
        next => simp [fail] at h

/-- The unit in front of a low surrogate is no low surrogate itself. -/
theorem isLow_of_isHigh {unit : Nat} (isHigh : Surrogate.isHigh unit)
    : Surrogate.isLow unit = false := by
  simp only [Surrogate.isHigh, Surrogate.isLow, Bool.and_eq_true, decide_eq_true_eq,
    Bool.and_eq_false_iff, decide_eq_false_iff_not] at isHigh ⊢
  omega

/-- An escape is read as it is spelled. The quotes are no letters of other escapes, so that
the order in which the reader tries these does not matter.
-/
theorem escape_complete {quote c : CodePoint} (start : Text) {t t' rest : Text}
    (isQuote : IsQuote quote) (h : StringCharacter quote t' c rest)
    (isEscape : t' = .char '\\' :: t)
    : escape quote start t = .ok (c, rest) := by
  have noLetter : CodePoint.char 'u' ≠ quote := by
    rintro rfl
    rcases isQuote with h | h <;> cases h
  cases h with
  | plain _ notBackslash _ => exact absurd (List.cons.inj isEscape).1 notBackslash
  | quote =>
      obtain ⟨-, rfl⟩ := List.cons.inj isEscape
      simp [escape]
  | @simple d e _ value =>
      obtain ⟨-, rfl⟩ := List.cons.inj isEscape
      by_cases isEscapedQuote : d = quote
      · subst d
        rcases isQuote with rfl | rfl <;> simp [simpleEscape?] at value
      · simp [escape, isEscapedQuote, value]
  | unit digits notLow notHigh =>
      obtain ⟨-, rfl⟩ := List.cons.inj isEscape
      simp [escape, noLetter, simpleEscape?, unicodeEscape, codeUnit_eq_ok.mpr digits, ok_bind,
        notLow, notHigh, pure_eq_ok]
  | pair first isHigh digits isLow =>
      obtain ⟨-, rfl⟩ := List.cons.inj isEscape
      simp [escape, noLetter, simpleEscape?, unicodeEscape, codeUnit_eq_ok.mpr first,
        codeUnit_eq_ok.mpr digits, ok_bind, isLow_of_isHigh isHigh, isHigh, isLow, pure_eq_ok]

/-- A character of a string takes at least one code point. -/
theorem length_lt_of_stringCharacter {quote c : CodePoint} {t rest : Text}
    (h : StringCharacter quote t c rest)
    : rest.length < t.length := by
  cases h with
  | plain _ _ _ => simp
  | quote =>
      simp only [List.length_cons]
      omega
  | simple _ =>
      simp only [List.length_cons]
      omega
  | unit digits _ _ =>
      cases digits
      simp only [List.length_cons]
      omega
  | pair first _ digits _ =>
      cases first
      cases digits
      simp only [List.length_cons]
      omega

/-- What the reader returns is spelled, by induction on the steps it takes. -/
theorem stringRest_sound {quote : CodePoint} {start t content rest : Text} {limit : Nat}
    (h : stringRest quote start limit t = .ok (content, rest))
    : Repeated (StringCharacter quote) t content (quote :: rest) := by
  induction limit generalizing t content with
  | zero => simp [stringRest, fail] at h
  | succ limit ih =>
      cases t with
      | nil => simp [stringRest, fail] at h
      | cons c t =>
          unfold stringRest at h
          split at h
          next isEnd =>
            obtain ⟨rfl, rfl⟩ := Prod.mk.inj (Except.ok.inj h)
            subst isEnd
            exact .none
          next notQuote =>
            split at h
            next => simp [fail] at h
            next notControl =>
              split at h
              next isEscape =>
                subst isEscape
                simp only [bind_eq_ok, pure_eq_ok] at h
                obtain ⟨⟨d, afterEscape⟩, escaped, ⟨others, end_⟩, tail, result⟩ := h
                obtain ⟨rfl, rfl⟩ := Prod.mk.inj result
                exact .more (escape_sound escaped) (ih tail)
              next notBackslash =>
                simp only [bind_eq_ok, pure_eq_ok] at h
                obtain ⟨⟨others, end_⟩, tail, result⟩ := h
                obtain ⟨rfl, rfl⟩ := Prod.mk.inj result
                exact .more (.plain notQuote notBackslash (by omega)) (ih tail)

/-- What is spelled is read, by induction on the characters. -/
theorem stringRest_complete {quote : CodePoint} (start : Text) {t content stop rest : Text}
    {limit : Nat} (isQuote : IsQuote quote)
    (h : Repeated (StringCharacter quote) t content stop) (atEnd : stop = quote :: rest)
    (bound : t.length ≤ limit)
    : stringRest quote start limit t = .ok (content, rest) := by
  induction h generalizing limit with
  | none =>
      subst atEnd
      cases limit with
      | zero => simp at bound
      | succ limit => simp [stringRest]
  | @more t c mid others stop first _ ih =>
      have shorter := length_lt_of_stringCharacter first
      cases limit with
      | zero => omega
      | succ limit =>
          have tail : stringRest quote start limit mid = .ok (others, rest) :=
            ih atEnd (by omega)
          by_cases isEscape : ∃ after, t = .char '\\' :: after
          · obtain ⟨after, rfl⟩ := isEscape
            have notQuote : CodePoint.char '\\' ≠ quote := by
              rintro rfl
              rcases isQuote with h | h <;> cases h
            have escaped := escape_complete (.char '\\' :: after) isQuote first rfl
            have notControl : ¬(CodePoint.char '\\').toNat < 0x20 := by decide
            simp [stringRest, notQuote, notControl, escaped, tail, ok_bind]
          · cases first with
            | plain notQuote notBackslash notControl =>
                simp [stringRest, notQuote, notBackslash, Nat.not_lt.mpr notControl, tail]
            | quote => exact absurd ⟨_, rfl⟩ isEscape
            | simple _ => exact absurd ⟨_, rfl⟩ isEscape
            | unit _ _ _ => exact absurd ⟨_, rfl⟩ isEscape
            | pair _ _ _ _ => exact absurd ⟨_, rfl⟩ isEscape

end JsonPath.Syntax
