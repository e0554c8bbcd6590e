import JsonPath.Proofs.Grammar.Regrouping
import JsonPath.Proofs.Parsing
import JsonPath.Proofs.Value.Equality
import JsonPath.Proofs.Value.RoundTrip

/-! Literals of filters denote the values that they denote as documents. Every document
without parts is a literal, unless a numeric escape in it stands for a surrogate on its own.
The other way round every literal is a document but for strings in single quotes.
-/

namespace JsonPath

namespace Grammar

/-- Every numeric escape of a surrogate in the text is one of a pair: a high surrogate and a
low one right behind it. Escapes are told apart from the left, so that a backslash that is
escaped itself starts none.
-/
inductive PairedEscapes : Text → Prop
  | nil : PairedEscapes []
  | plain {c t} (notBackslash : c ≠ .char '\\') (others : PairedEscapes t)
    : PairedEscapes (c :: t)
  | simple {c t} (notNumeric : c ≠ .char 'u') (others : PairedEscapes t)
    : PairedEscapes (.char '\\' :: c :: t)
  | unit {t unit rest} (digits : CodeUnit t unit rest) (notLow : Surrogate.isLow unit = false)
    (notHigh : Surrogate.isHigh unit = false) (others : PairedEscapes rest)
    : PairedEscapes (.char '\\' :: .char 'u' :: t)
  | pair {t high second low rest}
    (first : CodeUnit t high (.char '\\' :: .char 'u' :: second)) (isHigh : Surrogate.isHigh high)
    (digits : CodeUnit second low rest) (isLow : Surrogate.isLow low)
    (others : PairedEscapes rest)
    : PairedEscapes (.char '\\' :: .char 'u' :: t)

namespace PairedEscapes

/-- Escapes stay paired behind a character that is no backslash. -/
theorem tail {c : CodePoint} {t : Text} (h : PairedEscapes (c :: t)) (plain : c ≠ .char '\\')
    : PairedEscapes t := by
  cases h with
  | plain _ others => exact others
  | simple _ _ => exact absurd rfl plain
  | unit _ _ _ _ => exact absurd rfl plain
  | pair _ _ _ _ _ => exact absurd rfl plain

theorem of_blanks {t rest : Text} (blanks : Blanks t rest) (h : PairedEscapes t)
    : PairedEscapes rest := by
  induction blanks with
  | none => exact h
  | more blank _ ih =>
      refine ih (h.tail ?_)
      rintro rfl
      cases blank

end PairedEscapes

end Grammar

namespace Document

open Grammar Outcome

-----------------------------------------------------------------------------------------
-- Strings
-----------------------------------------------------------------------------------------

/-- A code unit that is read is the one that the grammar spells. -/
theorem codeUnit_sound {mark t rest rest' : Text} {unit unit' : Nat}
    (h : codeUnit mark t = .ok (unit', rest')) (digits : CodeUnit t unit rest)
    : unit' = unit ∧ rest' = rest := by
  obtain ⟨value⟩ := digits
  cases rest with
  | nil => cases h
  | cons _ _ =>
      simp only [codeUnit, value] at h
      obtain ⟨rfl, rfl⟩ := Prod.mk.inj (Except.ok.inj h)
      exact ⟨rfl, rfl⟩

/-- An escape that has a character of its own in documents is the quote or has the same one
in filters.
-/
theorem stringCharacter_of_simpleEscape {c d : CodePoint} (rest : Text)
    (h : simpleEscape? c = some d)
    : StringCharacter (.char '"') (.char '\\' :: c :: rest) d rest := by
  unfold simpleEscape? at h
  split at h
  all_goals cases h
  · exact .quote
  all_goals exact .simple rfl

/-- With surrogates in pairs, an escape of a document is spelled as one of filters. -/
theorem escape_sound {start t rest : Text} {c : CodePoint}
    (paired : PairedEscapes (.char '\\' :: t)) (h : escape start t = .ok (c, rest))
    : StringCharacter (.char '"') (.char '\\' :: t) c rest ∧ PairedEscapes rest := by
  cases paired with
  | plain notBackslash _ => exact absurd rfl notBackslash
  | @simple d after notNumeric others =>
      unfold escape at h
      split at h
      next => cases h
      next eq => exact absurd (List.cons.inj eq).1 notNumeric
      next eq =>
        obtain ⟨rfl, rfl⟩ := List.cons.inj eq
        split at h
        next value =>
          obtain ⟨rfl, rfl⟩ := Prod.mk.inj (Except.ok.inj h)
          exact ⟨stringCharacter_of_simpleEscape _ value, others⟩
        next => cases h
  | unit digits notLow notHigh others =>
      simp only [escape, unicodeEscape, bind_eq_ok] at h
      obtain ⟨⟨unit, after⟩, isRead, h⟩ := h
      obtain ⟨rfl, rfl⟩ := codeUnit_sound isRead digits
      simp only [notHigh] at h
      obtain ⟨rfl, rfl⟩ := Prod.mk.inj (pure_eq_ok.mp h)
      exact ⟨.unit digits notLow notHigh, others⟩
  | pair first isHigh digits isLow others =>
      simp only [escape, unicodeEscape, bind_eq_ok] at h
      obtain ⟨⟨high, after⟩, isRead, h⟩ := h
      obtain ⟨rfl, rfl⟩ := codeUnit_sound isRead first
      simp only [isHigh, bind_eq_ok] at h
      obtain ⟨⟨low, afterLow⟩, isRead, h⟩ := h
      obtain ⟨rfl, rfl⟩ := codeUnit_sound isRead digits
      simp only [isLow, if_true] at h
      obtain ⟨rfl, rfl⟩ := Prod.mk.inj (pure_eq_ok.mp h)
      exact ⟨.pair first isHigh digits isLow, others⟩

/-- With surrogates in pairs, the characters of a string that is read are spelled in double
quotes, by induction on the limit.
-/
theorem stringRest_sound {start t content rest : Text} {limit : Nat} (paired : PairedEscapes t)
    (h : stringRest start limit t = .ok (content, rest))
    : Repeated (StringCharacter (.char '"')) t content (.char '"' :: rest) := by
  induction limit generalizing t content with
  | zero => cases h
  | succ limit ih =>
      unfold stringRest at h
      split at h
      next => cases h
      next =>
        obtain ⟨rfl, rfl⟩ := Prod.mk.inj (Except.ok.inj h)
        exact .none
      next =>
        obtain ⟨⟨c, after⟩, isEscape, h⟩ := bind_eq_ok.mp h
        obtain ⟨⟨others, _⟩, isRead, h⟩ := bind_eq_ok.mp h
        obtain ⟨rfl, rfl⟩ := Prod.mk.inj (pure_eq_ok.mp h)
        obtain ⟨spelling, paired⟩ := escape_sound paired isEscape
        exact .more spelling (ih paired isRead)
      next c after notQuote notBackslash =>
        split at h
        next => cases h
        next notControl =>
          obtain ⟨⟨others, _⟩, isRead, h⟩ := bind_eq_ok.mp h
          obtain ⟨rfl, rfl⟩ := Prod.mk.inj (pure_eq_ok.mp h)
          exact .more (.plain notQuote notBackslash (Nat.le_of_not_lt notControl))
            (ih (paired.tail notBackslash) isRead)

-----------------------------------------------------------------------------------------
-- Documents without parts
-----------------------------------------------------------------------------------------

/-- The whole text is a literal with blanks on both sides. -/
inductive IsPaddedLiteral : Text → Value → Prop
  | mk {t start value rest} (before : Blanks t start) (spelling : ShortLiteral start value rest)
    (after : Blanks rest [])
    : IsPaddedLiteral t value

/-- With surrogates in pairs, a value without parts is spelled as a literal. -/
theorem shortLiteral_of_value {limit depth : Nat} {t rest : Text} {found : Value}
    (paired : PairedEscapes t) (isScalar : found.isScalar)
    (h : value limit depth t = .ok (found, rest))
    : ShortLiteral t found rest := by
  cases depth with
  | zero => cases h
  | succ depth =>
      unfold value valueWith at h
      split at h
      next =>
        obtain ⟨⟨content, after⟩, isRead, h⟩ := bind_eq_ok.mp h
        obtain ⟨rfl, rfl⟩ := Prod.mk.inj (pure_eq_ok.mp h)
        have characters := stringRest_sound (paired.tail (by decide)) isRead
        exact .mk (.string (.mk (.inl rfl) characters)) rfl
      next =>
        split at h
        next =>
          obtain ⟨rfl, -⟩ := Prod.mk.inj (Except.ok.inj h)
          cases isScalar
        next =>
          obtain ⟨_, _, h⟩ := bind_eq_ok.mp h
          obtain ⟨rfl, -⟩ := Prod.mk.inj (pure_eq_ok.mp h)
          cases isScalar
      next =>
        split at h
        next =>
          obtain ⟨rfl, -⟩ := Prod.mk.inj (Except.ok.inj h)
          cases isScalar
        next =>
          obtain ⟨_, _, h⟩ := bind_eq_ok.mp h
          obtain ⟨rfl, -⟩ := Prod.mk.inj (pure_eq_ok.mp h)
          cases isScalar
      next => exact shortLiteral_of_scalar h

/-- With surrogates in pairs, documents without parts are literals. -/
theorem isPaddedLiteral_of_decode {depth : Nat} {t : Text} {found : Value}
    (paired : PairedEscapes t) (isScalar : found.isScalar) (h : decodeWithin depth t = .ok found)
    : IsPaddedLiteral t found := by
  rw [decodeWithin, mapError_eq_ok] at h
  unfold read at h
  split at h
  next => cases h
  next =>
    obtain ⟨⟨value, rest⟩, isRead, h⟩ := bind_eq_ok.mp h
    dsimp only at h
    split at h
    next atEnd =>
      obtain rfl := pure_eq_ok.mp h
      have before := Syntax.blanks_skipBlanks t
      have after := Syntax.blanks_skipBlanks rest
      rw [atEnd] at after
      exact .mk before (shortLiteral_of_value (paired.of_blanks before) isScalar isRead) after
    next => cases h

/-- What is spelled as a literal, but not in single quotes, is read up to the end. -/
theorem value_of_literal {limit depth : Nat} {t rest : Text} {found : Value}
    (spelling : ShortLiteral t found rest) (notSingle : ∀ after, t ≠ .char '\'' :: after)
    (bound : t.length ≤ limit) (ends : Syntax.EndsAt valueStops rest)
    : value limit (depth + 1) t = .ok (found, rest) := by
  rw [value]
  obtain ⟨spelling, short⟩ := spelling
  cases spelling with
  | string spelling =>
      obtain ⟨rfl | rfl, characters⟩ := spelling
      · rw [valueWith, stringRest_complete _ characters rfl (Nat.le_of_succ_le bound)]
        rfl
      · exact absurd rfl (notSingle _)
  | number spelling => exact valueWith_number spelling short ends
  | true => rfl
  | false => rfl
  | null => rfl

/-- Literals that are not in single quotes are documents. -/
theorem decode_of_isPaddedLiteral {t : Text} {found : Value} (h : IsPaddedLiteral t found)
    (notSingle : ∀ after, Text.skipBlanks t ≠ .char '\'' :: after) (depth : Nat)
    : decodeWithin (depth + 1) t = .ok found := by
  obtain ⟨before, spelling, after⟩ := h
  rename_i start rest
  have starts : Syntax.StartsOff ['\uFEFF'] start := by
    obtain ⟨spelling, _⟩ := spelling
    exact Syntax.starts_of_literal spelling (by decide) (by decide)
  have atStart := Syntax.skipBlanks_eq before starts.isSolid
  have noMark : ∀ behind, t ≠ .char '\uFEFF' :: behind := by
    rintro behind rfl
    rw [Syntax.isSolid_cons rfl] at atStart
    exact absurd (List.mem_singleton.mpr rfl) (starts.ne atStart.symm)
  have bound := Nat.le_succ_of_le (Syntax.length_le_of_blanks before)
  have isRead : value (t.length + 1) (depth + 1) _ = .ok (found, _) :=
    value_of_literal spelling (atStart ▸ notSingle) bound (.of_blanks after (.nil _))
  rw [decodeWithin, mapError_eq_ok]
  unfold read
  split
  next => exact absurd rfl (noMark _)
  next =>
    have atEnd : Text.skipBlanks _ = [] := Syntax.skipBlanks_eq after Syntax.isSolid_nil
    rw [atStart]
    refine bind_eq_ok.mpr ⟨_, isRead, ?_⟩
    simp only [atEnd]
    rfl

end Document

-----------------------------------------------------------------------------------------
-- Filters that compare with a literal
-----------------------------------------------------------------------------------------

namespace Grammar

open Syntax

variable {Nested : Production Expression} {comparator : Comparator} {left right : Expression}

/-- A comparison is spelled without operators around it. -/
theorem basic_of_logical {depth : Nat} {t rest : Text}
    (h : Logical ShortLiteral depth t (.comparison comparator left right) rest)
    : ∃ depth,
        Basic ShortLiteral (Logical ShortLiteral depth) t (.comparison comparator left right) rest := by
  cases depth with
  | zero => cases h
  | succ depth =>
      cases h with
      | one conjunction =>
          cases conjunction with
          | one basic => exact ⟨depth, basic⟩

/-- Without segments there is nothing to spell. -/
theorem eq_of_segments_nil {t rest : Text} (h : Segments Nested t [] rest) : t = rest := by
  generalize none : ([] : List Segment) = query at h
  obtain ⟨spelling⟩ := h
  cases spelling with
  | none => rfl
  | more first _ =>
      exact absurd (List.append_eq_nil_iff.mp none.symm).1 (ne_nil_of_spacedGroup first)

/-- The right side of a comparison of the tested value with a literal is this literal. -/
theorem literal_of_basic {t rest : Text} {value : Value}
    (h : Basic ShortLiteral Nested
      (.char '@' :: .char ' ' :: .char '=' :: .char '=' :: .char ' ' :: t)
      (.comparison .equal (.current []) (.literal value)) rest)
    : ∃ start, ShortLiteral start value rest ∧ Blanks t start := by
  generalize text : CodePoint.char '@' :: _ = whole at h
  cases h with
  | parentheses spelling =>
      obtain ⟨_, rfl⟩ := head_of_parentheses spelling
      cases text
  | primary spelling => cases spelling
  | comparison hasLeft before after hasRight _ _ =>
      cases hasLeft with
      | current spelling =>
          obtain ⟨-, rfl⟩ := List.cons.inj text
          obtain rfl := eq_of_segments_nil spelling
          have operator : .char '=' :: .char '=' :: .char ' ' :: t
              = .char '=' :: .char '=' :: _ :=
            skipBlanks_eq before (isSolid_cons rfl)
          obtain ⟨-, operator⟩ := List.cons.inj operator
          obtain ⟨-, rfl⟩ := List.cons.inj operator
          cases hasRight with
          | literal spelling =>
              cases after with
              | none =>
                  obtain ⟨_, _, blank, notBlank, _⟩ := isProper_shortLiteral.starts spelling
                  obtain ⟨rfl, -⟩ := List.cons.inj blank
                  cases notBlank
              | more _ after => exact ⟨_, spelling, after⟩

/-- The text `@ == ` in front of another one compares the tested value with the literal that
the other one spells, if it spells one at all.
-/
theorem isPaddedLiteral_of_isFilter {depth : Nat} {t : Text} {value : Value}
    (h : IsFilter ShortLiteral depth ("@ == " ++ t)
      (.comparison .equal (.current []) (.literal value)))
    : Document.IsPaddedLiteral t value := by
  have text : ("@ == " : Text) ++ t
      = .char '@' :: .char ' ' :: .char '=' :: .char '=' :: .char ' ' :: t := rfl
  rw [text] at h
  obtain ⟨start, stop, before, spelling, after⟩ : ∃ start stop,
      Blanks t start ∧ ShortLiteral start value stop ∧ Blanks stop [] := by
    cases h with
    | marked before _ _ _ _ =>
        cases before with
        | more blank _ => cases blank
    | plain before spelling _ after =>
        cases before with
        | more blank _ => cases blank
        | none =>
            obtain ⟨_, spelling⟩ := basic_of_logical spelling
            obtain ⟨start, spelling, before⟩ := literal_of_basic spelling
            exact ⟨start, _, before, spelling, after⟩
  exact .mk before spelling after

/-- A comparison with a literal that is spelled is a filter. -/
theorem isFilter_of_isPaddedLiteral {t : Text} {value : Value}
    (h : Document.IsPaddedLiteral t value) (depth : Nat)
    : IsFilter ShortLiteral (depth + 1) ("@ == " ++ t)
        (.comparison .equal (.current []) (.literal value)) := by
  obtain ⟨before, spelling, after⟩ := h
  have blanks : Blanks (.char ' ' :: .char '=' :: .char '=' :: .char ' ' :: t)
      (Comparator.text .equal ++ .char ' ' :: t) :=
    .more rfl .none
  have comparison : Basic ShortLiteral (Logical ShortLiteral depth) ("@ == " ++ t)
      (.comparison .equal (.current []) (.literal value)) _ :=
    .comparison (.current (.mk .none)) blanks (.more rfl before) (.literal spelling)
      ⟨fun _ same => Option.some.inj same ▸ rfl, nofun⟩ ⟨nofun, nofun⟩
  exact .plain .none (logical_of_basic comparison) ⟨rfl, nofun⟩ after

end Grammar

/-- A literal of a filter denotes what its text denotes as a document. Documents without parts
in which surrogates are escaped in pairs are literals of the same values, and literals that
are not in single quotes are documents of the same values. This holds at any bounds on the
nesting of expressions and of documents.
-/
theorem Expression.parseWithin_literal_iff_decode (t : Text) (value : Value) (depth levels : Nat)
    : (Document.decodeWithin levels t = .ok value → value.isScalar → Grammar.PairedEscapes t
        → parseWithin (depth + 1) ("@ == " ++ t)
          = .ok (.comparison .equal (.current []) (.literal value)))
      ∧ ((∀ rest, Text.skipBlanks t ≠ .char '\'' :: rest)
        → parseWithin depth ("@ == " ++ t)
          = .ok (.comparison .equal (.current []) (.literal value))
        → Document.decodeWithin (levels + 1) t = .ok value) := by
  constructor
  · intro decoded isScalar paired
    have literal := Document.isPaddedLiteral_of_decode paired isScalar decoded
    exact parseWithin_of_isFilter (Grammar.isFilter_of_isPaddedLiteral literal depth)
  · intro notSingle parsed
    have literal := Grammar.isPaddedLiteral_of_isFilter (isFilter_of_parseWithin parsed)
    exact Document.decode_of_isPaddedLiteral literal notSingle levels

/-- A face with a smile is one character, though its escape is one of two surrogates. -/
theorem Expression.parseWithin_literal_iff_decode_smile
    : Document.decode " \"\\ud83d\\ude00\"" = .ok (.string [.char '😀'])
      ∧ parseWithin 1 "@ ==  \"\\ud83d\\ude00\""
        = .ok (.comparison .equal (.current []) (.literal (.string [.char '😀']))) := by
  have notSingle : ∀ rest, Text.skipBlanks " \"\\ud83d\\ude00\"" ≠ .char '\'' :: rest := by
    intro rest same
    cases (List.cons.inj same).1
  have paired : Grammar.PairedEscapes " \"\\ud83d\\ude00\"" :=
    .plain (by decide) (.plain (by decide) (.pair (.digits rfl) (by decide) (.digits rfl)
      (by decide) (.plain (by decide) .nil)))
  have joined : Surrogate.join 0xD83D 0xDE00 = .char '😀' := by decide
  have character : Grammar.StringCharacter (.char '"') "\\ud83d\\ude00\"" (.char '😀') "\"" :=
    joined ▸ .pair (.digits rfl) (by decide) (.digits rfl) (by decide)
  have decoded : Document.decode " \"\\ud83d\\ude00\"" = .ok (.string [.char '😀']) :=
    Document.decode_of_isPaddedLiteral
      (.mk (.more rfl .none) (.mk (.string (.mk (.inl rfl) (.more character .none))) rfl) .none)
      notSingle 959
  have parsed := (parseWithin_literal_iff_decode _ _ 0 Document.maxDepth).1 decoded rfl paired
  exact ⟨(parseWithin_literal_iff_decode _ _ 1 959).2 notSingle parsed, parsed⟩

end JsonPath
