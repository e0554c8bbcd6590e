import JsonPath.Proofs.Grammar.Locality
import JsonPath.Proofs.Reading.Completeness
import JsonPath.Proofs.Reading.Soundness

/-! Parsing accepts exactly the texts that the grammar spells and returns what they spell, at
any bound on the nesting of expressions, with one exception: a text with an integer literal
of too many digits is spelled by the grammar, but fails with the number of these digits.
-/

namespace JsonPath

/-- The error is about an integer of more digits than can be read. -/
def QueryError.IsOversized (error : QueryError) : Prop :=
  ∃ digits, Numeral.longest < digits ∧ error = .oversizedInteger digits

/-- A fault about the length of an integer becomes an error about it. -/
theorem Syntax.Fault.isOversized_error {fault : Fault} (h : fault.IsOversized) (t : Text)
    : (fault.error t).IsOversized := by
  obtain ⟨digits, long, cause⟩ := h
  refine ⟨digits, long, ?_⟩
  rw [Fault.error, cause]

namespace Query

variable {depth : Nat} {t : Text} {query : Query}

/-- A text that parses spells the query, with short literals. -/
theorem isQuery_of_parseWithin (h : parseWithin depth t = .ok query)
    : Grammar.IsQuery Grammar.ShortLiteral depth t query := by
  rw [parseWithin, Outcome.mapError_eq_ok] at h
  exact Syntax.query_sound h

/-- A text that spells a query with short literals parses to it. -/
theorem parseWithin_of_isQuery (h : Grammar.IsQuery Grammar.ShortLiteral depth t query)
    : parseWithin depth t = .ok query := by
  rw [parseWithin, Outcome.mapError_eq_ok]
  have literals : Syntax.ReadsLiterals Syntax.Fault.IsSyntax _ _ := Syntax.readsLiterals_short
  have reads := Syntax.query_complete literals h
  rw [allLiterals_true] at reads
  exact reads.eq_ok

/-- A text of the grammar parses as what it spells if no literal in it is too long. -/
theorem yields_of_isQuery (h : Grammar.IsQuery Grammar.Literal depth t query)
    : Outcome.Yields QueryError.IsOversized (query.allLiterals Value.isWritable)
        (parseWithin depth t) query :=
  (Syntax.query_complete Syntax.readsLiterals h).mapError fun _ isOversized =>
    Syntax.Fault.isOversized_error isOversized t

/-- A text parses as a query exactly if the grammar derives the query from it and no integer
literal in it has too many digits.
-/
theorem parseWithin_eq_ok_iff
    : parseWithin depth t = .ok query
      ↔ Grammar.IsQuery Grammar.Literal depth t query ∧ query.allLiterals Value.isWritable := by
  constructor
  · intro parsed
    have derived := (isQuery_of_parseWithin parsed).of_short
    exact ⟨derived, (yields_of_isQuery derived).good_of_ok parsed⟩
  · rintro ⟨derived, short⟩
    exact (short ▸ yields_of_isQuery derived).eq_ok

/-- A text that spells a query with too long a literal parses to none. -/
theorem not_parseWithin_of_isQuery (h : Grammar.IsQuery Grammar.Literal depth t query)
    (tooLong : query.allLiterals Value.isWritable = false) (found : Query)
    : parseWithin depth t ≠ .ok found := by
  intro parsed
  rw [(yields_of_isQuery h).good_of_ok parsed] at tooLong
  cases tooLong

/-- Parsing decides the grammar but for integers of too many digits. A text parses as a query
exactly if the grammar derives the query from it and its integer literals are short enough to
be read. Where one of them is not, parsing fails with a number of digits beyond the limit.
-/
theorem parseWithin_iff_isQuery
    : (parseWithin depth t = .ok query
        ↔ Grammar.IsQuery Grammar.Literal depth t query
          ∧ query.allLiterals Value.isWritable)
      ∧ (Grammar.IsQuery Grammar.Literal depth t query
        → query.allLiterals Value.isWritable = false
        → ∃ digits, Numeral.longest < digits
          ∧ parseWithin depth t = .error (.oversizedInteger digits)) := by
  refine ⟨parseWithin_eq_ok_iff, fun derived tooLong => ?_⟩
  have yields := yields_of_isQuery derived
  rw [tooLong] at yields
  obtain ⟨_, failed, digits, long, rfl⟩ := yields.exists_error
  exact ⟨digits, long, failed⟩

end Query

namespace Expression

variable {depth : Nat} {t : Text} {e : Expression}

/-- A text that parses as a filter spells the expression, with short literals. -/
theorem isFilter_of_parseWithin (h : parseWithin depth t = .ok e)
    : Grammar.IsFilter Grammar.ShortLiteral depth t e := by
  rw [parseWithin, Outcome.mapError_eq_ok] at h
  exact Syntax.filter_sound h

/-- A text that spells a filter with short literals parses to it. -/
theorem parseWithin_of_isFilter (h : Grammar.IsFilter Grammar.ShortLiteral depth t e)
    : parseWithin depth t = .ok e := by
  rw [parseWithin, Outcome.mapError_eq_ok]
  have literals : Syntax.ReadsLiterals Syntax.Fault.IsSyntax _ _ := Syntax.readsLiterals_short
  have reads := Syntax.filter_complete literals h
  rw [allLiterals_true] at reads
  exact reads.eq_ok

/-- A text of the grammar parses as what it spells if no literal in it is too long. -/
theorem yields_of_isFilter (h : Grammar.IsFilter Grammar.Literal depth t e)
    : Outcome.Yields QueryError.IsOversized (e.allLiterals Value.isWritable)
        (parseWithin depth t) e :=
  (Syntax.filter_complete Syntax.readsLiterals h).mapError fun _ isOversized =>
    Syntax.Fault.isOversized_error isOversized t

/-- A text parses as a filter expression exactly if the grammar derives the expression from
it and no integer literal in it has too many digits.
-/
theorem parseWithin_eq_ok_iff
    : parseWithin depth t = .ok e
      ↔ Grammar.IsFilter Grammar.Literal depth t e ∧ e.allLiterals Value.isWritable := by
  constructor
  · intro parsed
    have derived := (isFilter_of_parseWithin parsed).of_short
    exact ⟨derived, (yields_of_isFilter derived).good_of_ok parsed⟩
  · rintro ⟨derived, short⟩
    exact (short ▸ yields_of_isFilter derived).eq_ok

end Expression

-----------------------------------------------------------------------------------------
-- A literal of too many digits
-----------------------------------------------------------------------------------------

open Grammar

/-- The numeral of this many ones. -/
def ones (count : Nat) : Text :=
  List.replicate count (.char '1')

/-- One or more ones are an integer part. -/
theorem whole_ones (fewer : Nat) : Whole (ones (fewer + 1)) := by
  rw [ones, List.replicate_succ]
  refine .digits rfl (by simp) fun d member => ?_
  rw [List.eq_of_mem_replicate member]
  rfl

/-- The ones as a literal. -/
def onesLiteral (count : Nat) : NumberLiteral :=
  ⟨false, ones count, [], none⟩

/-- The query `$[?@==1…1]` with this many ones. -/
def onesQuery (count : Nat) : Query :=
  [.filter (.comparison .equal (.current []) (.literal (.number (onesLiteral count).value)))]

/-- The grammar has literals of any number of digits. -/
theorem isQuery_ones (depth fewer : Nat)
    : IsQuery Literal (depth + 1) ("$[?@==" ++ ones (fewer + 1) ++ "]")
        (onesQuery (fewer + 1)) := by
  have numeric : Numeric (ones (fewer + 1) ++ [.char ']']) (onesLiteral (fewer + 1)) [.char ']'] :=
    .mk .absent (whole_ones fewer) .absent .absent
  have basic : Basic Literal (Logical Literal depth)
      (.char '@' :: .char '=' :: .char '=' :: (ones (fewer + 1) ++ [.char ']']))
      (.comparison .equal (.current []) (.literal (.number (onesLiteral (fewer + 1)).value)))
      [.char ']'] :=
    .comparison (.current (.mk .none)) .none .none (.literal (.number numeric))
      ⟨fun _ same => Option.some.inj same ▸ rfl, nofun⟩ ⟨nofun, nofun⟩
  have test : Disjunction Literal (Logical Literal depth) _ _ _ := .one (.one basic)
  have brackets : Brackets (Logical Literal (depth + 1)) _ _ [] :=
    .one (.one .none (.filter .none test ⟨rfl, nofun⟩) .none)
  exact .mk (.mk (.more (.mk .none (.brackets brackets)) .none))

/-- The literal of ones can be written unless it has more digits than are read. -/
theorem allLiterals_ones (fewer : Nat)
    : (onesQuery (fewer + 1)).allLiterals Value.isWritable
      ↔ fewer + 1 ≤ Numeral.longest := by
  have isInt : (onesLiteral (fewer + 1)).isInt := rfl
  have short := Syntax.isWritable_value_iff (whole_ones fewer) isInt
  have length : (onesLiteral (fewer + 1)).whole.length = fewer + 1 := List.length_replicate
  rw [length] at short
  simpa [onesQuery, Query.allLiterals, Segment.allLiterals, Expression.allLiterals,
    segmentsAllLiterals] using short

/-- With more ones than digits are read, the literal cannot be written. -/
theorem not_allLiterals_ones {fewer : Nat} (long : Numeral.longest < fewer + 1)
    : (onesQuery (fewer + 1)).allLiterals Value.isWritable = false := by
  rw [Bool.eq_false_iff]
  exact mt (allLiterals_ones fewer).mp (Nat.not_le.mpr long)

/-- The query with one digit is derived and parsed as it is derived. With 5000 digits it is
derived too, and reported by a number of digits.
-/
theorem Query.parseWithin_iff_isQuery_ones
    : parseWithin 1 ("$[?@==" ++ ones 1 ++ "]") = .ok (onesQuery 1)
      ∧ ∃ digits, Numeral.longest < digits
        ∧ parseWithin 1 ("$[?@==" ++ ones 5000 ++ "]") = .error (.oversizedInteger digits) :=
  ⟨parseWithin_iff_isQuery.1.mpr ⟨isQuery_ones 0 0, (allLiterals_ones 0).mpr (by decide)⟩,
    parseWithin_iff_isQuery.2 (isQuery_ones 0 4999) (not_allLiterals_ones (by decide))⟩

/-- The grammar derives a query from `$[?@==1…1]` with 4301 ones, but the text does not parse
as any query.
-/
theorem Query.not_parse_ones
    : IsQuery Literal Syntax.maxDepth ("$[?@==" ++ ones 4301 ++ "]") (onesQuery 4301)
      ∧ ∀ query, parse ("$[?@==" ++ ones 4301 ++ "]") ≠ .ok query := by
  have derived := isQuery_ones 199 4300
  exact ⟨derived, not_parseWithin_of_isQuery derived (not_allLiterals_ones (by decide))⟩

end JsonPath
