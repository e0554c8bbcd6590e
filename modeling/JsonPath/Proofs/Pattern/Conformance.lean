import JsonPath.Function.Builtin
import JsonPath.Proofs.Pattern.Reading

/-! The matching function implements I-Regexps, but for the marks that stand for conditions on
places in other regular expressions: these have to be escaped.
-/

namespace JsonPath

open Pattern IRegexp

/-- A text matches an I-Regexp exactly when it is a word of its language, for every I-Regexp
in which the marks `^` and `$` are escaped where they stand for themselves and groups are
nested no deeper than the host lets them be.
-/
theorem Builtin.fullMatch_iff_mem (host : Host) {pattern : Text} {L : Language CodePoint}
    (isRegexp : IsRegexp false (host.depth + 1) pattern L) (t : Text)
    : ∃ passes,
        testString (compileOn host) isMatch
            [.value (some (.string t)), .value (some (.string pattern))]
          = .ok passes
        ∧ (passes ↔ t ∈ L) := by
  obtain ⟨compiled, compiles, regular, unconditional, rfl⟩ := compileOn_of_isRegexp isRegexp
  refine ⟨compiled.isMatch t, ?_, isMatch_iff regular unconditional t⟩
  rw [testString, testPattern, compiles]

/-- A character of a set in front of a word is in the product of their languages. -/
theorem IRegexp.cons_mem_mul {set : CodePoint → Prop} {c : CodePoint} {w : Text}
    {L : Language CodePoint} (inSet : set c) (mem : w ∈ L)
    : c :: w ∈ singles set * L :=
  Language.mem_mul.mpr ⟨[c], ⟨c, inSet, rfl⟩, w, mem, rfl⟩

theorem Builtin.fullMatch_repeated_group
    : ∃ L, IsRegexp false (Host.standard.depth + 1) "(a|.)+[^b-d]" L
        ∧ ("xa" : Text) ∈ L
        ∧ testString (compileOn .standard) isMatch
            [.value (some (.string "xa")), .value (some (.string "(a|.)+[^b-d]"))]
          = .ok true := by
  obtain ⟨L, isRegexp, mem⟩
      : ∃ L, IsRegexp false (Host.standard.depth + 1) "(a|.)+[^b-d]" L ∧ ("xa" : Text) ∈ L := by
    have letter : Branch false (IsRegexp false 199) "a" _ :=
      .more (.once (.plain (by decide) (.inr (by decide)))) .none
    have dot : Branch false (IsRegexp false 199) "." _ := .more (.once .dot) .none
    have group : IsRegexp false 200 "a|." _ := Branches.more letter (.one dot)
    have content : ClassContent "b-d" _ :=
      .part (.range (.plain (by decide)) (.plain (by decide)) (by decide)) .none
    have others : Branch false (IsRegexp false 200) "[^b-d]" _ :=
      .more (.once (.charClass (.negative content))) .none
    refine ⟨_, Branches.one (.more (.repeated (.group group) .some) others), ?_⟩
    refine Language.mem_mul.mpr ⟨"x", ⟨1, Nat.le_refl 1, nofun, ?_⟩, "a", ?_, rfl⟩
    · rw [pow_one]
      exact .inr (cons_mem_mul (by decide) rfl)
    · exact cons_mem_mul (by decide) rfl
  obtain ⟨passes, eq, iff⟩ := fullMatch_iff_mem .standard isRegexp "xa"
  rw [iff.mpr mem] at eq
  exact ⟨L, isRegexp, mem, eq⟩

/-- An unescaped caret is a character of an I-Regexp, but a condition on the place here. -/
theorem Builtin.fullMatch_caret
    : IsRegexp true 1 "a^b" (singles (· = .char 'a')
          * (singles (· = .char '^') * (singles (· = .char 'b') * 1)))
      ∧ ("a^b" : Text) ∈ singles (· = .char 'a')
          * (singles (· = .char '^') * (singles (· = .char 'b') * 1))
      ∧ testString compile isMatch
            [.value (some (.string "a^b")), .value (some (.string "a^b"))]
          = .ok false := by
  refine ⟨?_, cons_mem_mul rfl (cons_mem_mul rfl (cons_mem_mul rfl rfl)), rfl⟩
  have letter {c : Char} (isPlain : c ∉ operators)
      : Piece true (IsRegexp true 0) [.char c] (singles (· = .char c)) :=
    .once (.plain isPlain (.inl rfl))
  exact Branches.one (.more (letter (by decide))
    (.more (letter (by decide)) (.more (letter (by decide)) .none)))

end JsonPath
