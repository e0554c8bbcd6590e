import JsonPath.Proofs.Evaluation.TypeSafety
import JsonPath.Proofs.Pattern.Classes
import JsonPath.Proofs.Pattern.Faults

/-! Which patterns the matching functions fail on. A failure is always explained by the text of
the pattern, since what expansion inserts neither holds large numbers nor groups.
-/

namespace JsonPath

open Pattern

namespace Pattern

/-- The text holds what goes beyond a limit of patterns: a large repeat count or a large code,
or what it is expanded to has groups nested deeper than the host lets them be.
-/
def ExceedsLimits (host : Host) (t : Text) : Prop :=
  HasOversizedCount t
  ∨ HasOversizedCode t
  ∨ ∃ expansion, expand t = some expansion ∧ host.depth < nesting expansion

-----------------------------------------------------------------------------------------
-- Inserted texts
-----------------------------------------------------------------------------------------

/-- Where the word stands in front of some text, it does not start inside of it. -/
def StartsBehind (w inserted : Text) : Prop :=
  ∀ t, w <:+ inserted ++ t → w <:+ t

section Insertions

variable {c : CodePoint} {w inserted inserted' digits after : Text} {n code : Nat}
  {name : List Char} {inClass negated : Bool}

namespace StartsBehind

theorem nil : StartsBehind w [] :=
  fun _ h => h

/-- Insertions one behind the other start as each of them does. -/
theorem append (first : StartsBehind w inserted) (second : StartsBehind w inserted')
    : StartsBehind w (inserted ++ inserted') := by
  intro t h
  rw [List.append_assoc] at h
  exact second t (first _ h)

theorem flatMap {α : Type} {f : α → Text} {items : List α}
    (each : ∀ item ∈ items, StartsBehind w (f item))
    : StartsBehind w (items.flatMap f) := by
  induction items with
  | nil => exact .nil
  | cons item items ih =>
      obtain ⟨first, others⟩ := List.forall_mem_cons.mp each
      rw [List.flatMap_cons]
      exact first.append (ih others)

/-- A word whose first character is not inserted starts in no insertion. -/
theorem of_notMem (notMem : c ∉ inserted) : StartsBehind (c :: w) inserted := by
  intro t h
  induction inserted with
  | nil => exact h
  | cons d inserted ih =>
      obtain ⟨different, notMem⟩ := not_or.mp (notMem ∘ List.mem_cons.mpr)
      obtain eq | within := List.suffix_cons_iff.mp h
      · exact absurd (List.cons.inj eq).1 different
      · exact ih notMem within

section Ranges

variable (ends : ∀ n < CodePoint.limit, StartsBehind (c :: w) (rangeEnd n))
  (noMark : c ∉ ['[', '-', ']'].map CodePoint.char)

include noMark

omit ends in
theorem mark {d : Char} (isMark : d ∈ ['[', '-', ']']) : StartsBehind (c :: w) [.char d] := by
  refine of_notMem fun mem => noMark ?_
  rw [List.mem_singleton.mp mem]
  exact List.mem_map_of_mem isMark

include ends

/-- Written ranges start no word that starts in one of them, by induction on the ranges. -/
theorem ranges {ranges : List (Nat × Nat)} (proper : Category.AreProper ranges)
    : StartsBehind (c :: w) (ranges.flatMap rangeText) := by
  refine flatMap fun range mem => ?_
  obtain ⟨order, within⟩ := proper range mem
  have first := ends range.1 (Nat.lt_of_le_of_lt order within)
  unfold rangeText
  split
  next => exact first
  next => exact first.append ((mark noMark (by simp)).append (ends range.2 within))

/-- What starts in no end of a range and with no mark of a class starts in no category. -/
theorem escapeExpansion : StartsBehind (c :: w) (escapeExpansion inClass name negated) := by
  have proper : Category.AreProper (Category.ranges name negated Category.runs.get) :=
    Category.areProper_ranges_runs
  rw [Pattern.escapeExpansion, categoryText]
  generalize Category.ranges name negated Category.runs.get = found at proper ⊢
  have content := ranges ends noMark proper
  have opening : StartsBehind (c :: w) [.char '['] := mark noMark (by simp)
  have closing : StartsBehind (c :: w) [.char ']'] := mark noMark (by simp)
  split
  next => exact content
  next =>
    rw [List.cons_append, ← List.singleton_append]
    exact opening.append (content.append closing)

end Ranges

end StartsBehind

/-- Hexadecimal digits are the only characters of a hexadecimal number. -/
theorem mem_hex {width : Nat} (h : c ∈ Numeral.hex width n)
    : ∃ digit < 16, c = .char (Nat.digitChar digit) := by
  induction width generalizing n with
  | zero => cases h
  | succ width ih =>
      obtain mem | mem := List.mem_append.mp h
      · exact ih mem
      · exact ⟨n % 16, Nat.mod_lt n (by decide), List.mem_singleton.mp mem⟩

/-- What is no hexadecimal digit is not in a hexadecimal number. -/
theorem notMem_hex {d : Char} (noDigit : ∀ digit < 16, d ≠ Nat.digitChar digit)
    {width : Nat}
    : .char d ∉ Numeral.hex width n := by
  intro mem
  obtain ⟨digit, small, eq⟩ := mem_hex mem
  exact noDigit digit small (CodePoint.char.inj eq)

section Characters

variable {d : Char} (noDigit : ∀ digit < 16, d ≠ Nat.digitChar digit)
  (noMark : d ∉ ['[', ']', '-', '\\', 'U'])

include noDigit noMark

theorem notMem_rangeEnd (n : Nat) : .char d ∉ rangeEnd n := by
  simp only [List.mem_cons, List.not_mem_nil, or_false, not_or] at noMark
  have spelled : Text.ofString "\\U" = [.char '\\', .char 'U'] := rfl
  intro mem
  obtain mem | mem := List.mem_append.mp mem
  · simp [spelled, noMark] at mem
  · exact notMem_hex noDigit mem

/-- A range is written in hexadecimal digits, with a dash and the marks of escapes. -/
theorem notMem_rangeText (range : Nat × Nat) : .char d ∉ rangeText range := by
  have first := notMem_rangeEnd noDigit noMark range.1
  have last := notMem_rangeEnd noDigit noMark range.2
  unfold rangeText
  split
  next => exact first
  next =>
    simp only [List.mem_cons, List.mem_append, not_or, CodePoint.char.injEq] at noMark ⊢
    exact ⟨first, noMark.2.2.1, last⟩

/-- Categories are spelled with the marks of classes and hexadecimal digits only. -/
theorem notMem_escapeExpansion (inClass : Bool) (name : List Char) (negated : Bool)
    : .char d ∉ escapeExpansion inClass name negated := by
  have content : .char d ∉ categoryText name negated := by
    intro mem
    rw [categoryText] at mem
    obtain ⟨range, -, mem⟩ := List.mem_flatMap.mp mem
    exact notMem_rangeText noDigit noMark range mem
  rw [escapeExpansion]
  generalize categoryText name negated = ranges at content ⊢
  split
  next => exact content
  next =>
    simp only [List.mem_append, List.mem_cons, List.not_mem_nil, or_false, not_or,
      CodePoint.char.injEq] at noMark ⊢
    exact ⟨⟨noMark.1, content⟩, noMark.2.1⟩

end Characters

/-- The codes that are inserted are those of code points. -/
theorem startsBehind_rangeEnd (length : digits.length = 8)
    (reads : Numeral.hexToNat? digits = some code) (large : maxCode ≤ code)
    (within : n < CodePoint.limit)
    : StartsBehind (.char '\\' :: .char 'U' :: (digits ++ after)) (rangeEnd n) := by
  intro t h
  obtain eq | h := List.suffix_cons_iff.mp h
  · have rest : digits ++ after = Numeral.hex 8 n ++ t := (List.cons.inj (List.cons.inj eq).2).2
    have sameLength : digits.length = (Numeral.hex 8 n).length := by
      rw [length, Numeral.length_hex]
    obtain ⟨rfl, -⟩ := List.append_inj rest sameLength
    have small : CodePoint.limit < maxCode := by decide
    have fits : n < 16 ^ 8 := Nat.lt_trans within (by decide)
    rw [Numeral.hexToNat?_hex fits] at reads
    obtain rfl := Option.some.inj reads
    omega
  · have noBackslash : CodePoint.char '\\' ∉ .char 'U' :: Numeral.hex 8 n := by
      intro mem
      obtain eq | mem := List.mem_cons.mp mem
      · cases eq
      · exact notMem_hex (by decide) mem
    exact StartsBehind.of_notMem noBackslash t h

end Insertions

-----------------------------------------------------------------------------------------
-- Words of expansions
-----------------------------------------------------------------------------------------

/-- The characters that expansion copies wherever they stand. -/
def ArePlain (w : Text) : Prop :=
  ∀ c ∈ w, c ∉ ['\\', '[', ']', '.'].map CodePoint.char

variable {inClass : Bool} {t rest w e after : Text} {c d : CodePoint}

/-- The expansion of a category starts with a backslash or a bracket. -/
theorem exists_escapeExpansion {name : List Char} (known : String.ofList name ∈ categoryNames)
    (inClass negated : Bool)
    : ∃ mark ∈ ['\\', '['], ∃ others,
        escapeExpansion inClass name negated = .char mark :: others := by
  obtain ⟨others, eq⟩ := List.head?_eq_some_iff.mp (head?_categoryText known negated)
  rw [escapeExpansion, eq]
  cases inClass with
  | false => exact ⟨'[', by simp, .char '\\' :: others ++ [.char ']'], rfl⟩
  | true => exact ⟨'\\', by simp, others, rfl⟩

/-- The expansion of a dot starts with a bracket, if it is not a dot. -/
theorem exists_dotExpansion (inClass : Bool)
    : ∃ mark ∈ ['[', '.'], ∃ others,
        Text.ofString (if inClass then "." else "[^\\n\\r]") = .char mark :: others := by
  cases inClass with
  | false => exact ⟨'[', by simp, "^\\n\\r]", rfl⟩
  | true => exact ⟨'.', by simp, [], rfl⟩

/-- Characters of a class without special ones are plain. -/
theorem arePlain_of_forall {p : CodePoint → Bool} (all : ∀ c ∈ w, p c)
    (special : ∀ c ∈ ['\\', '[', ']', '.'].map CodePoint.char, p c = false)
    : ArePlain w := by
  intro c mem isSpecial
  have holds := all c mem
  rw [special c isSpecial] at holds
  cases holds

/-- A plain word at the start of an expansion stands at the start of the text. -/
theorem Expanded.exists_append (h : Expanded inClass t (w ++ e)) (arePlain : ArePlain w)
    : ∃ rest, t = w ++ rest := by
  induction w generalizing t with
  | nil => exact ⟨t, rfl⟩
  | cons c w ih =>
      obtain ⟨isPlain, arePlain⟩ := List.forall_mem_cons.mp arePlain
      have starts {d : CodePoint} {e' : Text} (eq : c :: (w ++ e) = d :: e')
          : d ∉ ['\\', '[', ']', '.'].map CodePoint.char := by
        rwa [← (List.cons.inj eq).1]
      generalize expansion : c :: w ++ e = e' at h
      cases h with
      | nil => cases expansion
      | @category _ name negated _ _ known _ _ _ =>
          obtain ⟨mark, isMark, others, eq⟩ := exists_escapeExpansion known inClass negated
          rw [eq] at expansion
          exact absurd (by simp_all) (starts expansion)
      | escape => exact absurd (by simp) (starts expansion)
      | backslash => exact absurd (by simp) (starts expansion)
      | opening => exact absurd (by simp) (starts expansion)
      | closing => exact absurd (by simp) (starts expansion)
      | dot _ =>
          obtain ⟨mark, isMark, others, eq⟩ := exists_dotExpansion inClass
          rw [eq] at expansion
          exact absurd (by simp_all) (starts expansion)
      | plain _ others =>
          obtain ⟨rfl, rfl⟩ := List.cons.inj expansion
          obtain ⟨rest, rfl⟩ := ih others arePlain
          exact ⟨rest, rfl⟩

/-- The word starts in no text that expansion inserts. -/
structure IsCopied (w : Text) : Prop where
  category
    : ∀ inClass name negated, StartsBehind w (escapeExpansion inClass name negated)
  dot
    : ∀ inClass : Bool,
        StartsBehind w (Text.ofString (if inClass then "." else "[^\\n\\r]"))

/-- A plain word behind a character of the expansion stands in the text when it is not
inserted.
-/
theorem exists_suffix_cons (others : Expanded inClass rest e) (arePlain : ArePlain w)
    (suffix : c :: (w ++ after) <:+ d :: e)
    (within : c :: (w ++ after) <:+ e → ∃ after', c :: (w ++ after') <:+ rest)
    : ∃ after', c :: (w ++ after') <:+ d :: rest := by
  obtain eq | suffix := List.suffix_cons_iff.mp suffix
  · obtain ⟨rfl, rfl⟩ := List.cons.inj eq
    obtain ⟨after', rfl⟩ := others.exists_append arePlain
    exact ⟨after', List.suffix_rfl⟩
  · obtain ⟨after', suffix⟩ := within suffix
    exact ⟨after', suffix.trans (List.suffix_cons d rest)⟩

/-- A plain word behind a character is in the text if it is in the expansion, unless it comes
from an insertion. By induction on the expansion.
-/
theorem Expanded.exists_suffix (h : Expanded inClass t e) (arePlain : ArePlain w)
    (notEmpty : w ≠ []) (isCopied : IsCopied (c :: (w ++ after)))
    (suffix : c :: (w ++ after) <:+ e)
    : ∃ after', c :: (w ++ after') <:+ t := by
  induction h with
  | nil => cases List.suffix_nil.mp suffix
  | @category _ name negated rest _ _ _ _ _ ih =>
      obtain ⟨after', suffix⟩ := ih (isCopied.category _ name negated _ suffix)
      exact ⟨after', suffix.trans (List.suffix_append _ rest)⟩
  | @escape _ d rest e _ others ih =>
      obtain eq | suffix := List.suffix_cons_iff.mp suffix
      · obtain ⟨first, w, rfl⟩ := List.exists_cons_of_ne_nil notEmpty
        obtain ⟨rfl, copied⟩ := List.cons.inj eq
        obtain ⟨rfl, rfl⟩ := List.cons.inj copied
        obtain ⟨after', rfl⟩ := others.exists_append (List.forall_mem_cons.mp arePlain).2
        exact ⟨after', List.suffix_rfl⟩
      · obtain ⟨after', suffix⟩ := exists_suffix_cons others arePlain suffix ih
        exact ⟨after', suffix.trans (List.suffix_cons _ _)⟩
  | backslash =>
      obtain eq | suffix := List.suffix_cons_iff.mp suffix
      · obtain ⟨empty, -⟩ := List.append_eq_nil_iff.mp (List.cons.inj eq).2
        exact absurd empty notEmpty
      · cases List.suffix_nil.mp suffix
  | opening others ih => exact exists_suffix_cons others arePlain suffix ih
  | closing others ih => exact exists_suffix_cons others arePlain suffix ih
  | dot _ ih =>
      obtain ⟨after', suffix⟩ := ih (isCopied.dot _ _ suffix)
      exact ⟨after', suffix.trans (List.suffix_cons _ _)⟩
  | plain _ others ih => exact exists_suffix_cons others arePlain suffix ih

-----------------------------------------------------------------------------------------
-- Limits
-----------------------------------------------------------------------------------------

/-- The marks of repeat counts are not inserted. -/
theorem notMem_insertions {mark : Char} (isMark : mark ∈ ['\x7b', ','])
    : (∀ inClass name negated, .char mark ∉ escapeExpansion inClass name negated)
      ∧ ∀ inClass : Bool,
          .char mark ∉ Text.ofString (if inClass then "." else "[^\\n\\r]") := by
  have others : ∀ mark ∈ ['\x7b', ','],
      (∀ digit < 16, mark ≠ Nat.digitChar digit) ∧ mark ∉ ['[', ']', '-', '\\', 'U']
      ∧ ∀ inClass : Bool,
          .char mark ∉ Text.ofString (if inClass then "." else "[^\\n\\r]") := by
    decide
  obtain ⟨noDigit, noMark, notDot⟩ := others mark isMark
  exact ⟨notMem_escapeExpansion noDigit noMark, notDot⟩

/-- Words that start with a brace or a comma are copied from the text. -/
theorem isCopied_of_isMark {mark : Char} (isMark : mark ∈ ['\x7b', ','])
    : IsCopied (.char mark :: w) := by
  obtain ⟨notCategory, notDot⟩ := notMem_insertions isMark
  exact ⟨fun inClass name negated => .of_notMem (notCategory inClass name negated),
    fun inClass => .of_notMem (notDot inClass)⟩

/-- An oversized count of the expansion stands in the text. -/
theorem Expanded.hasOversizedCount (h : Expanded inClass t e) (count : HasOversizedCount e)
    : HasOversizedCount t := by
  obtain ⟨mark, digits, after, isMark, areDigits, large, within⟩ := count
  have notEmpty : digits ≠ [] := by
    rintro rfl
    exact absurd large (by decide)
  have isCopied : IsCopied (.char mark :: (digits ++ after)) := isCopied_of_isMark isMark
  obtain ⟨after', within⟩ :=
    h.exists_suffix (arePlain_of_forall areDigits (by decide)) notEmpty isCopied within
  exact ⟨mark, digits, after', isMark, areDigits, large, within⟩

/-- An oversized code of the expansion stands in the text. -/
theorem Expanded.hasOversizedCode (h : Expanded inClass t e) (code : HasOversizedCode e)
    : HasOversizedCode t := by
  obtain ⟨digits, code, after, length, reads, large, within⟩ := code
  have isCopied : IsCopied (.char '\\' :: (.char 'U' :: digits ++ after)) := by
    refine ⟨fun _ _ _ => ?_, fun inClass t h => ?_⟩
    · refine .escapeExpansion (fun n small => ?_) (by simp)
      exact startsBehind_rangeEnd length reads large small
    · cases inClass with
      | false =>
          have spelled : Text.ofString "[^\\n\\r]"
              = ['[', '^', '\\', 'n', '\\', 'r', ']'].map CodePoint.char := rfl
          simpa [spelled, List.suffix_cons_iff] using h
      | true => exact StartsBehind.of_notMem (by decide) t h
  have areDigits := (Numeral.of_hexToNat?_eq_some reads).1
  have arePlain : ArePlain (.char 'U' :: digits) :=
    List.forall_mem_cons.mpr ⟨by decide, arePlain_of_forall areDigits (by decide)⟩
  obtain ⟨after', within⟩ := h.exists_suffix arePlain nofun isCopied within
  exact ⟨digits, code, after', length, reads, large, within⟩

/-- Patterns beyond the limits have texts that exceed them. -/
theorem exceedsLimits_of_isBeyondLimits {host : Host}
    (h : IsBeyondLimits (compileOn host) t)
    : ExceedsLimits host t := by
  obtain ⟨fault, fails, notInvalid⟩ := h
  rw [compileOn] at fails
  split at fails
  next expansion expands =>
    have expanded := expand_eq_some_iff.mp expands
    have traced := traced_parse host expansion
    rw [fails] at traced
    cases fault with
    | invalid => exact absurd rfl notInvalid
    | oversizedNumber =>
        exact Or.imp expanded.hasOversizedCount (.inl ∘ expanded.hasOversizedCode) traced
    | tooDeep =>
        have deep : 0 + (host.depth + 1) ≤ nesting expansion := traced 0
        exact .inr (.inr ⟨expansion, expands, by omega⟩)
  next => exact absurd (Except.error.inj fails).symm notInvalid

end Pattern

-----------------------------------------------------------------------------------------
-- Calls and evaluations
-----------------------------------------------------------------------------------------

/-- How a test of arguments ends: it passes for a string and a valid pattern, it fails, or the
call raises for a string and a pattern whose text exceeds the limits of the host.
-/
inductive Builtin.TestEnds (host : Host) (test : Pattern → Text → Bool)
    (arguments : List Argument)
    : Prop
  | passed {content pattern compiled}
    (areStrings : arguments = [.value (some (.string content)), .value (some (.string pattern))])
    (compiles : compileOn host pattern = .ok compiled) (passes : test compiled content)
    (eq : testString (compileOn host) test arguments = .ok true)
  | failed (eq : testString (compileOn host) test arguments = .ok false)
  | raised {content pattern}
    (areStrings : arguments = [.value (some (.string content)), .value (some (.string pattern))])
    (exceeds : ExceedsLimits host pattern)
    (eq : testString (compileOn host) test arguments = .error .raised)

/-- A test of two texts ends with a result, unless the pattern is beyond the limits. -/
theorem Builtin.testEnds_of_strings (host : Host) (test : Pattern → Text → Bool)
    (content pattern : Text)
    : TestEnds host test
        [.value (some (.string content)), .value (some (.string pattern))] := by
  have eq : testString (compileOn host) test
        [.value (some (.string content)), .value (some (.string pattern))]
      = testPattern (compileOn host) test content pattern := rfl
  cases compiles : compileOn host pattern with
  | ok compiled =>
      rw [testPattern, compiles] at eq
      cases passes : test compiled content with
      | true => exact .passed rfl compiles passes (eq.trans (congrArg _ passes))
      | false => exact .failed (eq.trans (congrArg _ passes))
  | error fault =>
      rw [testPattern, compiles] at eq
      by_cases isInvalid : fault = .invalid
      · subst isInvalid
        exact .failed eq
      · have exceeds := exceedsLimits_of_isBeyondLimits ⟨fault, compiles, isInvalid⟩
        cases fault with
        | invalid => exact absurd rfl isInvalid
        | oversizedNumber => exact .raised rfl exceeds eq
        | tooDeep => exact .raised rfl exceeds eq

/-- A test of anything but two strings fails, and one of two strings ends by the pattern. -/
theorem Builtin.testEnds (host : Host) (test : Pattern → Text → Bool)
    (arguments : List Argument)
    : TestEnds host test arguments := by
  by_cases areStrings : ∃ content pattern,
      arguments = [.value (some (.string content)), .value (some (.string pattern))]
  · obtain ⟨content, pattern, rfl⟩ := areStrings
    exact testEnds_of_strings host test content pattern
  · refine .failed ?_
    unfold testString
    split
    next content pattern => exact absurd ⟨content, pattern, rfl⟩ areStrings
    next => rfl

/-- How an evaluation ends on a host: with a result, in a call of a function that nobody
registered, or in a call that receives a pattern whose text exceeds the limits of the host.
-/
inductive EndsByLimits {α : Type} (host : Host) (called : List Text) (evaluation : Evaluation α)
    : Prop
  | found {a} (eq : evaluation (compileOn host) = .ok a)
  | unknown {name} (isCalled : name ∈ called) (notBuiltin : Builtin.ofName? name = none)
    (eq : evaluation (compileOn host) = .error (.unknownFunction name))
  | raised {name pattern} (isReceived : evaluation.Reaches (compileOn host) pattern)
    (exceeds : ExceedsLimits host pattern)
    (eq : evaluation (compileOn host) = .error (.raised name))

/-- A sound evaluation only raises for the limits of the host. -/
theorem Evaluation.Sound.endsByLimits {α : Type} {host : Host} {called : List Text}
    {evaluation : Evaluation α} (h : evaluation.Sound (compileOn host) called)
    : EndsByLimits host called evaluation := by
  cases h with
  | found settles => exact .found settles.1
  | unknown isCalled notBuiltin settles => exact .unknown isCalled notBuiltin settles.1
  | @raised name pattern breaks =>
      have exceeds := exceedsLimits_of_isBeyondLimits breaks.beyond
      exact .raised ⟨name, breaks.reached⟩ exceeds breaks.fails

/-- Patterns make nothing fail unless they exceed the limits: no test of any arguments, and no
evaluation of a parsed query or filter expression, wherever it has its patterns from and
whatever the limits of the host are. To find and to evaluate is to do so on the standard host.
-/
theorem raises_only_beyond_limits (host : Host) (depth : Nat) (t : Text)
    : (∀ test arguments, Builtin.TestEnds host test arguments)
      ∧ (∀ query document,
          Query.parseWithin depth t = .ok query
          → EndsByLimits host query.calls (query.evaluation document)
            ∧ query.find document [] = query.evaluation document (compileOn .standard))
      ∧ ∀ e current root,
          Expression.parseWithin depth t = .ok e
          → EndsByLimits host e.calls (e.evaluation current root)
            ∧ e.evaluate current root = e.evaluation current root (compileOn .standard) := by
  refine ⟨Builtin.testEnds host, fun query document accepted => ?_,
    fun e current root accepted => ?_⟩
  · exact ⟨(Query.sound_of_parseWithin accepted document).endsByLimits,
      (query.evaluation_compile document).symm⟩
  · exact ⟨(Expression.sound_of_parseWithin accepted current root).endsByLimits,
      (e.evaluation_compile current root).symm⟩

/-- Spells the query of the elements that match an `a` when they are taken for patterns. -/
def patternText : Text :=
  [.char '$', .char '[', .char '?', .char 'm', .char 'a', .char 't', .char 'c', .char 'h',
    .char '(', .char '\'', .char 'a', .char '\'', .char ',', .char '@', .char ')', .char ']']

def patternQuery : Query :=
  [.filter (.call [.char 'm', .char 'a', .char 't', .char 'c', .char 'h']
    [.literal (.string [.char 'a']), .current []])]

/-- The only element takes the smallest count that is too large. -/
def largeCount : Value :=
  .array [.string "a\x7b4294967295\x7d"]

/-- The query fails on the document since it receives a pattern that exceeds the limits. -/
theorem exceeding_pattern_of_largeCount
    : ∃ pattern,
        ExceedsLimits .standard pattern
        ∧ (patternQuery.evaluation largeCount).Reaches compile pattern := by
  have parsed : Query.parseWithin 3 patternText = .ok patternQuery := rfl
  have fails : patternQuery.find largeCount [] = .error (.raised "match") := rfl
  obtain ⟨-, ends, -⟩ := raises_only_beyond_limits .standard 3 patternText
  obtain ⟨ends, find_eq⟩ := ends patternQuery largeCount parsed
  rw [fails] at find_eq
  cases ends with
  | found eq => cases find_eq.trans eq
  | unknown _ _ eq => cases find_eq.trans eq
  | raised isReceived exceeds _ => exact ⟨_, exceeds, isReceived⟩

/-- A count that is too large makes both tests fail, and so does a code. A query fails when its
arguments have the right types.
-/
theorem raises_beyond_limits
    : Builtin.testString compile isMatch
          [.value (some (.string "a")), .value (some (.string "a\x7b4294967295\x7d"))]
        = .error .raised
      ∧ Builtin.testString compile isFound
          [.value (some (.string "a")), .value (some (.string "\\Uffffffff"))]
        = .error .raised
      ∧ Query.parseWithin 3 patternText = .ok patternQuery
      ∧ patternQuery.find largeCount [] = .error (.raised "match") :=
  ⟨rfl, rfl, rfl, rfl⟩

end JsonPath
