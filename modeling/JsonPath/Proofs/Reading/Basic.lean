import JsonPath.Proofs.Grammar.Query
import JsonPath.Proofs.Outcome
import Mathlib.Data.List.TakeDrop
import Mathlib.Data.List.TakeWhile

/-! What readers do in terms of productions. There are two kinds of faults: syntax errors and
integers of too many digits. Follow conditions name the characters that can stand behind a
spelling once blanks are skipped.
-/

namespace JsonPath

namespace Syntax

open Grammar

/-- The fault is a syntax error, as opposed to an integer of too many digits. -/
def Fault.IsSyntax (fault : Fault) : Prop :=
  ∀ digits, fault.cause ≠ .oversizedInteger digits

/-- The fault is an integer of more digits than can be read. -/
def Fault.IsOversized (fault : Fault) : Prop :=
  ∃ digits, Numeral.longest < digits ∧ fault.cause = .oversizedInteger digits

-----------------------------------------------------------------------------------------
-- Blanks and what follows them
-----------------------------------------------------------------------------------------

/-- Only blanks are skipped, by recursion on the text. -/
theorem blanks_skipBlanks (t : Text) : Blanks t (Text.skipBlanks t) := by
  induction t with
  | nil => exact .none
  | cons c t ih =>
      rw [Text.skipBlanks, List.dropWhile_cons]
      split
      next blank => exact .more blank ih
      next => exact .none

/-- Skipping does not depend on how many blanks have been passed before. -/
theorem skipBlanks_of_blanks {t rest : Text} (h : Blanks t rest)
    : Text.skipBlanks t = Text.skipBlanks rest := by
  induction h with
  | none => rfl
  | more blank _ ih =>
      rw [Text.skipBlanks, List.dropWhile_cons, if_pos blank]
      exact ih

/-- Skipped blanks are all of them. -/
theorem skipBlanks_skipBlanks (t : Text)
    : Text.skipBlanks (Text.skipBlanks t) = Text.skipBlanks t :=
  (skipBlanks_of_blanks (blanks_skipBlanks t)).symm

/-- Blanks behind blanks are blanks. -/
theorem blanks_trans {t mid rest : Text} (first : Blanks t mid) (second : Blanks mid rest)
    : Blanks t rest := by
  induction first with
  | none => exact second
  | more blank _ ih => exact .more blank (ih second)

/-- A list can also start behind blanks that are skipped first. -/
theorem listed_of_blanks {α : Type} {Item : Production α} {t start rest : Text}
    {items : List α} (blanks : Blanks t start) (h : Listed Item start items rest)
    : Listed Item t items rest := by
  cases h with
  | one before spelling after => exact .one (blanks_trans blanks before) spelling after
  | more before spelling after others =>
      exact .more (blanks_trans blanks before) spelling after others

/-- The text is its own beginning behind blanks. -/
def IsSolid (t : Text) : Prop :=
  Text.skipBlanks t = t

theorem isSolid_nil : IsSolid [] := rfl

theorem isSolid_cons {c : CodePoint} {t : Text} (h : c.isBlank = false)
    : IsSolid (c :: t) := by
  rw [IsSolid, Text.skipBlanks, List.dropWhile_cons, if_neg (by simp [h])]

/-- Skipping blanks in front of a solid text arrives at this text. -/
theorem skipBlanks_eq {t rest : Text} (h : Blanks t rest) (solid : IsSolid rest)
    : Text.skipBlanks t = rest :=
  (skipBlanks_of_blanks h).trans solid

theorem length_le_of_blanks {t rest : Text} (h : Blanks t rest)
    : rest.length ≤ t.length := by
  induction h with
  | none => exact le_rfl
  | more _ _ ih => exact ih.trans (Nat.le_succ _)

/-- The text does not start with a code point of the class. -/
def Avoids (p : CodePoint → Bool) (t : Text) : Prop :=
  ∀ c rest, t = c :: rest → p c = false

/-- Once blanks are skipped, the text is at its end or at one of the characters. -/
def EndsAt (stops : List Char) (t : Text) : Prop :=
  ∀ c rest, Text.skipBlanks t = c :: rest → ∃ d ∈ stops, c = .char d

namespace EndsAt

theorem nil (stops : List Char) : EndsAt stops [] :=
  fun _ _ h => nomatch h

/-- Blanks in front of an end do not matter. -/
theorem of_blanks {stops : List Char} {t rest : Text} (h : Blanks t rest)
    (ends : EndsAt stops rest)
    : EndsAt stops t := by
  intro c after eq
  exact ends c after ((skipBlanks_of_blanks h).symm.trans eq)

theorem cons {stops : List Char} {d : Char} {t : Text} (h : d ∈ stops)
    (notBlank : (CodePoint.char d).isBlank = false)
    : EndsAt stops (.char d :: t) := by
  intro c rest eq
  rw [isSolid_cons notBlank] at eq
  obtain ⟨rfl, -⟩ := List.cons.inj eq
  exact ⟨d, h, rfl⟩

theorem mono {stops others : List Char} {t : Text} (h : EndsAt stops t)
    (subset : ∀ d ∈ stops, d ∈ others)
    : EndsAt others t := by
  intro c rest eq
  obtain ⟨d, member, rfl⟩ := h c rest eq
  exact ⟨d, subset d member, rfl⟩

/-- The next character is one of those that the text can end at. -/
theorem mem {stops : List Char} {d : Char} {t rest : Text} (h : EndsAt stops t)
    (eq : Text.skipBlanks t = .char d :: rest)
    : d ∈ stops := by
  obtain ⟨e, member, eqChar⟩ := h _ _ eq
  obtain rfl := CodePoint.char.inj eqChar
  exact member

/-- The text itself starts with a blank or one of the characters, so with none of a class
that has neither.
-/
theorem avoids {stops : List Char} {t : Text} {p : CodePoint → Bool} (h : EndsAt stops t)
    (blanks : ∀ c, c.isBlank → p c = false) (others : ∀ d ∈ stops, p (.char d) = false)
    : Avoids p t := by
  rintro c rest rfl
  by_cases blank : c.isBlank
  · exact blanks c blank
  · obtain ⟨d, member, rfl⟩ := h c rest (isSolid_cons (by simpa using blank))
    exact others d member

end EndsAt

/-- A class that none of the four blanks belongs to. -/
theorem blank_avoids {p : CodePoint → Bool}
    (h : ∀ d ∈ [' ', '\t', '\n', '\r'], p (.char d) = false)
    (c : CodePoint) (blank : c.isBlank)
    : p c = false := by
  cases c with
  | char d => exact h d (by simpa [CodePoint.isBlank, or_assoc] using blank)
  | surrogate _ => simp [CodePoint.isBlank] at blank

/-- A word that avoids what follows is the longest one of its class. -/
theorem span_append {p : CodePoint → Bool} {word rest : Text} (all : ∀ c ∈ word, p c)
    (avoids : Avoids p rest)
    : (word ++ rest).span p = (word, rest) := by
  rw [List.span_eq_takeWhile_dropWhile, List.takeWhile_append_of_pos all,
    List.dropWhile_append_of_pos all]
  cases rest with
  | nil => simp
  | cons c rest =>
      have stop := avoids c rest rfl
      simp [stop]

/-- What is split off is a word of the class in front of the rest. -/
theorem of_span_eq {p : CodePoint → Bool} {t word rest : Text}
    (h : t.span p = (word, rest))
    : t = word ++ rest ∧ ∀ c ∈ word, p c := by
  rw [List.span_eq_takeWhile_dropWhile] at h
  obtain ⟨rfl, rfl⟩ := Prod.mk.inj h
  exact ⟨List.takeWhile_append_dropWhile.symm, fun c member => List.mem_takeWhile_imp member⟩

end Syntax

end JsonPath
