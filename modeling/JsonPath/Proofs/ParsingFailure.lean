import JsonPath.Proofs.Parsing
import JsonPath.Proofs.Reading.Faults

/-! How parsing fails. A text that cannot be parsed gives a syntax error with a position in
the text, unless an integer of too many digits stands in it: such an integer can also be
reported by itself, without the text and a position.
-/

namespace JsonPath

open Syntax

/-- What can come out of parsing a text. -/
inductive IsParsed {α : Type} (t : Text) : Except QueryError α → Prop
  | result {a} : IsParsed t (.ok a)
  | syntaxError {cause position} (inside : position ≤ t.length)
    : IsParsed t (.error (.syntaxError cause t position))
  | oversizedInteger {count} (present : HasOversized t count)
    : IsParsed t (.error (.oversizedInteger count))

/-- A reading whose oversized integers stand in the text parses it or tells why it cannot be
parsed.
-/
theorem isParsed_of_traced {α : Type} {t : Text} {reading : Except Fault α}
    (traced : Traced nothingLeft t reading)
    : IsParsed t (reading.mapError (·.error t)) := by
  cases reading with
  | ok _ => exact .result
  | error fault =>
      rw [Except.mapError, Fault.error]
      split
      next count isOversized => exact .oversizedInteger (traced count isOversized)
      next => exact .syntaxError (Nat.sub_le _ _)

/-- Parsing a query or a filter has a result, or it fails with a syntax error, or it fails
with an integer of too many digits that stands in the text. This holds at any bound on the
nesting of expressions.
-/
theorem isParsed_parseWithin (depth : Nat) (t : Text)
    : IsParsed t (Query.parseWithin depth t) ∧ IsParsed t (Expression.parseWithin depth t) :=
  ⟨isParsed_of_traced (traced_query depth t), isParsed_of_traced (traced_filter depth t)⟩

/-- The ones as an index are reported by themselves when they are too many. -/
theorem query_ones (depth : Nat) {fewer : Nat} (long : Numeral.longest < fewer + 1)
    : ∃ rest,
      query depth (("$[" : Text) ++ ones (fewer + 1) ++ ("]" : Text))
        = .error ⟨.oversizedInteger (fewer + 1), rest⟩ := by
  have atBracket : Avoids CodePoint.isNumericDigit [.char ']'] := by
    rintro c rest ⟨⟩
    rfl
  have length : (ones (fewer + 1)).length = fewer + 1 := List.length_replicate
  have read := integer_oversized (whole_ones fewer) (by rwa [length]) atBracket
  rw [length] at read
  let brackets := ones (fewer + 1) ++ [.char ']']
  let fault : Fault := ⟨.oversizedInteger (fewer + 1), brackets⟩
  -- The fault of the first reader in each of the readers around it is the fault of the latter.
  have index : indexOrSlice brackets = .error fault := by
    have isInteger : indexOrSlice brackets = integer brackets >>= _ := rfl
    rw [isInteger, read]
    rfl
  have group limit nested : segment limit nested (.char '[' :: brackets) = .error fault := by
    have isIndex : segment limit nested (.char '[' :: brackets)
        = ((indexOrSlice brackets >>= _) >>= _) >>= _ := rfl
    rw [isIndex, index]
    rfl
  have isGroup : query depth (("$[" : Text) ++ ones (fewer + 1) ++ ("]" : Text))
      = ((segment (brackets.length + 2) (logical (brackets.length + 2) depth)
          (.char '[' :: brackets) >>= _) >>= _) >>= _ := rfl
  rw [isGroup, group]
  exact ⟨brackets, rfl⟩

/-- A query whose index has 4301 digits fails without a syntax error. -/
theorem parse_ones
    : Query.parse (("$[" : Text) ++ ones 4301 ++ ("]" : Text))
      = .error (.oversizedInteger 4301) := by
  have long : Numeral.longest < 4300 + 1 := by simp [Numeral.longest]
  obtain ⟨rest, fault⟩ := query_ones maxDepth long
  rw [Query.parse, Query.parseWithin, fault]
  rfl

end JsonPath
