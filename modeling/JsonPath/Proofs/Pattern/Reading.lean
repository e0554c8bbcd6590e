import JsonPath.Proofs.Pattern.Classes
import JsonPath.Proofs.Pattern.Language
import JsonPath.Proofs.Reading.Basic

/-! I-Regexps are read as patterns with the same language. Each production is expanded to a
text that the reader takes for one part of a pattern, in front of whatever can follow it.
-/

namespace JsonPath.Pattern

open IRegexp (singles between)

-----------------------------------------------------------------------------------------
-- Languages of parts
-----------------------------------------------------------------------------------------

/-- A class has the language of its characters. -/
theorem language_char {found : CharClass} {set : CodePoint → Prop}
    (contain : ∀ c, found.contains c ↔ set c)
    : (char found).language = singles set := by
  ext w
  simp [language, singles, contain]

theorem language_single (c : Char) : (char (.single c.toNat)).language = singles (· = .char c) := by
  refine language_char fun d => ?_
  refine Iff.trans ?_ (ClassItem.Contain.single (.char c) d)
  simp [CharClass.contains, CharClass.single, CodePoint.toNat]

/-- A repeated pattern has the powers of its language between the bounds. -/
theorem language_repeated {least : Nat} {most : Option Nat} (order : ∀ bound ∈ most, least ≤ bound)
    (greedy : Bool) (body : Pattern)
    : (repeated greedy least most body).language = between least most body.language := by
  ext w
  constructor
  · rintro ⟨more, allowed, mem⟩
    refine ⟨least + more, Nat.le_add_right _ _, fun bound isMost => ?_, mem⟩
    have := order bound isMost
    have := allowed (bound - least) (by simp_all)
    omega
  · rintro ⟨count, enough, allowed, mem⟩
    obtain ⟨more, rfl⟩ := Nat.exists_eq_add_of_le enough
    refine ⟨more, fun less isLess => ?_, mem⟩
    obtain ⟨bound, isMost, rfl⟩ := Option.map_eq_some_iff.mp isLess
    have := allowed bound isMost
    omega

/-- An item behind others is the last part of their sequence. -/
theorem ofItems_append (items : List Item) (item : Item)
    : ofItems (items ++ [item]) = .sequence item.pattern (ofItems items) := by
  rw [ofItems, List.foldl_append]
  rfl

-----------------------------------------------------------------------------------------
-- Quantifiers
-----------------------------------------------------------------------------------------

/-- The text cannot change what a quantifier in front of it means. -/
def Follows (t : Text) : Prop :=
  (∀ c rest, t = c :: rest → c ≠ .char '?' ∧ c ≠ .char '+') ∧ t ≠ [.char '\\']

variable {host : Host} {nested : List (Option Text) → Text → Except Fault (Pattern × Text)}
variable {w e rest : Text} {L : Language CodePoint} {limit : Nat} {groups : List (Option Text)}
variable {items : List Item} {least : Nat} {most : Option Nat}

/-- The characters that something other than a quantifier or a plain character starts with. -/
def openers : List CodePoint :=
  ['|', ')', '(', '[', '\\', '.', '^', '$'].map .char

/-- A count within the limit is read as its number. -/
theorem repeatCount_of_isCount {digits : Text} {count : Nat}
    (isCount : IRegexp.IsCount digits count) (noBackslash : rest ≠ [.char '\\'])
    : repeatCount digits rest none = .ok (some count) := by
  have notEmpty : digits.isEmpty = false := by simpa using isCount.notEmpty
  have notLong := isCount.notLong
  have inRange := isCount.inRange
  rw [repeatCount, notEmpty, isCount.value]
  simp [noBackslash, Nat.not_lt.mpr notLong, Nat.not_le.mpr inRange]

/-- Digits are split off up to what is no digit. -/
theorem span_digits {digits : Text} {stop : Char} (areDigits : ∀ c ∈ digits, CodePoint.isDigit c)
    (stops : stop.isDigit = false)
    : (digits ++ .char stop :: rest).span CodePoint.isDigit = (digits, .char stop :: rest) := by
  refine Syntax.span_append areDigits ?_
  rintro c after ⟨⟩
  exact stops

/-- Braces with digits, and either nothing more or a comma and digits that can be absent. -/
theorem braces_eq {t low middle high : Text} (noBrace : t.head? ≠ some (.char '\x7d'))
    (span : t.span CodePoint.isDigit = (low, middle))
    (upper : middle = .char '\x7d' :: rest ∧ high = low
      ∨ ∃ afterComma, middle = .char ',' :: afterComma
          ∧ afterComma.span CodePoint.isDigit = (high, .char '\x7d' :: rest))
    (lowCount : repeatCount low rest none = .ok (some least))
    (highCount : repeatCount high rest none = .ok most) (order : ∀ bound ∈ most, least ≤ bound)
    : braces t = .ok (some (least, most, rest)) := by
  have inOrder : most.any (· < least) = false := by
    cases most with
    | none => rfl
    | some bound => simpa using order bound rfl
  rw [braces, span]
  obtain ⟨rfl, rfl⟩ | ⟨afterComma, rfl, span'⟩ := upper
  · obtain rfl := Except.ok.inj (lowCount.symm.trans highCount)
    simp only [List.cons.injEq, CodePoint.char.injEq, Char.reduceEq, false_and, imp_self,
      implies_true]
    split
    next => exact absurd rfl noBrace
    next eq =>
      obtain ⟨-, rfl⟩ := List.cons.inj eq
      simp [lowCount, bind, Except.bind, pure, Except.pure]
    next noEnd => exact absurd rfl (noEnd _)
  · simp only [span']
    split
    next => exact absurd rfl noBrace
    next eq =>
      obtain ⟨-, rfl⟩ := List.cons.inj eq
      simp [lowCount, highCount, inOrder, bind, Except.bind, pure, Except.pure]
    next noEnd => exact absurd rfl (noEnd _)

/-- A count does not start with the closing brace. -/
theorem head?_of_isCount {digits : Text} {count : Nat} (isCount : IRegexp.IsCount digits count)
    : (digits ++ rest).head? ≠ some (.char '\x7d') := by
  obtain ⟨d, ds, rfl⟩ := List.exists_cons_of_ne_nil isCount.notEmpty
  have isDigit := isCount.areDigits d List.mem_cons_self
  rintro ⟨⟩
  cases isDigit

/-- A quantifier is copied, and read as its bounds. -/
structure QuantifierReading (w : Text) (least : Nat) (most : Option Nat) : Prop where
  expands : Expands false w w false
  notEmpty : w ≠ []
  order : ∀ bound ∈ most, least ≤ bound
  reads : ∀ rest, rest ≠ [.char '\\'] → quantifier? (w ++ rest) = .ok (some (least, most, rest))
  isOther : ∀ c ∈ w.head?, c ∉ openers

/-- Bounds in braces are read as a quantifier when they are in order. -/
theorem quantifierReading_of_braces {w : Text} (order : ∀ bound ∈ most, least ≤ bound)
    (arePlain : ∀ c ∈ w, CodePoint.isDigit c ∨ c = .char ',')
    (reads : ∀ rest, rest ≠ [.char '\\']
      → braces (w ++ .char '\x7d' :: rest) = .ok (some (least, most, rest)))
    : QuantifierReading (.char '\x7b' :: w ++ [.char '\x7d']) least most where
  expands := by
    refine .copy fun c mem special => ?_
    have notDigits : ∀ c ∈ ['\\', '[', ']', '.'].map CodePoint.char,
        c.isDigit = false ∧ c ≠ .char ',' ∧ c ≠ .char '\x7b' ∧ c ≠ .char '\x7d' := by
      decide
    obtain ⟨noDigit, noComma, noOpening, noClosing⟩ := notDigits c special
    obtain mem | mem := List.mem_append.mp mem
    · obtain rfl | mem := List.mem_cons.mp mem
      · exact noOpening rfl
      · obtain isDigit | isComma := arePlain c mem
        · exact absurd isDigit (by simp [noDigit])
        · exact noComma isComma
    · exact noClosing (List.mem_singleton.mp mem)
  notEmpty := nofun
  order := order
  reads rest noBackslash := by
    rw [List.append_assoc]
    exact reads rest noBackslash
  isOther := by
    rintro c ⟨⟩
    decide

/-- Every quantifier of the grammar is read with its bounds, by cases on its form. -/
theorem quantifierReading {w : Text} (h : IRegexp.Quantifier w least most)
    : QuantifierReading w least most := by
  cases h with
  | any => exact ⟨.copy (by decide), nofun, nofun, fun _ _ => rfl, by rintro c ⟨⟩; decide⟩
  | some => exact ⟨.copy (by decide), nofun, nofun, fun _ _ => rfl, by rintro c ⟨⟩; decide⟩
  | optional => exact ⟨.copy (by decide), nofun, by simp, fun _ _ => rfl, by rintro c ⟨⟩; decide⟩
  | exactly isCount =>
      refine quantifierReading_of_braces (by simp) (fun c mem => .inl (isCount.areDigits c mem))
        fun rest noBackslash => ?_
      have counted := repeatCount_of_isCount isCount noBackslash
      exact braces_eq (head?_of_isCount isCount) (span_digits isCount.areDigits (by decide))
        (.inl ⟨rfl, rfl⟩) counted counted (by simp)
  | @atLeast digits _ isCount =>
      have spelled : .char '\x7b' :: digits ++ [.char ',', .char '\x7d']
          = .char '\x7b' :: (digits ++ [.char ',']) ++ [.char '\x7d'] := by simp
      rw [spelled]
      refine quantifierReading_of_braces nofun (fun c mem => ?_) fun rest noBackslash => ?_
      · obtain mem | mem := List.mem_append.mp mem
        · exact .inl (isCount.areDigits c mem)
        · exact .inr (List.mem_singleton.mp mem)
      · have counted := repeatCount_of_isCount isCount noBackslash
        rw [List.append_assoc]
        exact braces_eq (head?_of_isCount isCount) (span_digits isCount.areDigits (by decide))
          (.inr ⟨_, rfl, span_digits (List.forall_mem_nil _) (by decide)⟩) counted rfl nofun
  | @between low _ high _ isLeast isMost order =>
      have spelled : .char '\x7b' :: low ++ .char ',' :: high ++ [.char '\x7d']
          = .char '\x7b' :: (low ++ .char ',' :: high) ++ [.char '\x7d'] := by simp
      rw [spelled]
      refine quantifierReading_of_braces (by simpa using order) (fun c mem => ?_)
        fun rest noBackslash => ?_
      · obtain mem | mem := List.mem_append.mp mem
        · exact .inl (isLeast.areDigits c mem)
        · obtain rfl | mem := List.mem_cons.mp mem
          · exact .inr rfl
          · exact .inl (isMost.areDigits c mem)
      · have counted := repeatCount_of_isCount isLeast noBackslash
        have counted' := repeatCount_of_isCount isMost noBackslash
        rw [List.append_assoc]
        exact braces_eq (head?_of_isCount isLeast) (span_digits isLeast.areDigits (by decide))
          (.inr ⟨_, rfl, span_digits isMost.areDigits (by decide)⟩) counted counted'
          (by simpa using order)

/-- A character without a meaning of its own is an item. -/
theorem sequenceItems_plain {c : CodePoint} (isOther : c ∉ openers)
    (noQuantifier : quantifier? (c :: rest) = .ok none)
    : sequenceItems host nested (limit + 1) groups items (c :: rest)
      = sequenceItems host nested limit groups (⟨.char (.single c.toNat), .atom⟩ :: items)
          rest := by
  simp only [openers, List.map_cons, List.map_nil, List.mem_cons, List.not_mem_nil, or_false,
    not_or] at isOther
  rw [sequenceItems]
  · rw [noQuantifier]
    rfl
  all_goals simp_all

/-- A quantifier repeats the last of the items. -/
theorem sequenceItems_quantifier {c : CodePoint} {items' : List Item} {after after' : Text}
    (isOther : c ∉ openers) (quantifier : quantifier? (c :: rest) = .ok (some (least, most, after)))
    (repeats : repeatLast least most items after = .ok (items', after'))
    : sequenceItems host nested (limit + 1) groups items (c :: rest)
      = sequenceItems host nested limit groups items' after' := by
  simp only [openers, List.map_cons, List.map_nil, List.mem_cons, List.not_mem_nil, or_false,
    not_or] at isOther
  rw [sequenceItems]
  · simp only [quantifier, Outcome.ok_bind, repeats]
  all_goals simp_all

-----------------------------------------------------------------------------------------
-- Atoms
-----------------------------------------------------------------------------------------

/-- The text is at its end or at one of the characters. -/
def StopsAt (stops : List Char) (t : Text) : Prop :=
  ∀ c rest, t = c :: rest → ∃ d ∈ stops, c = .char d

/-- The pattern stands for the language, wherever it stands. -/
structure Denotes (pattern : Pattern) (L : Language CodePoint) : Prop where
  regular : pattern.isRegular
  unconditional : pattern.isUnconditional
  language_eq : pattern.language = L

namespace Denotes

variable {first second pattern : Pattern} {M : Language CodePoint}

theorem empty : Denotes .empty 1 :=
  ⟨rfl, rfl, rfl⟩

theorem char {found : CharClass} {set : CodePoint → Prop} (contain : ∀ c, found.contains c ↔ set c)
    : Denotes (.char found) (singles set) :=
  ⟨rfl, rfl, language_char contain⟩

theorem single (c : Char) : Denotes (.char (.single c.toNat)) (singles (· = .char c)) :=
  ⟨rfl, rfl, language_single c⟩

/-- A sequence denotes the product of the languages. -/
theorem sequence (h : Denotes first L) (h' : Denotes second M)
    : Denotes (.sequence first second) (L * M) where
  regular := Bool.and_eq_true_iff.mpr ⟨h.regular, h'.regular⟩
  unconditional := Bool.and_eq_true_iff.mpr ⟨h.unconditional, h'.unconditional⟩
  language_eq := congrArg₂ (· * ·) h.language_eq h'.language_eq

/-- Alternatives denote the sum of the languages. -/
theorem alternative (h : Denotes first L) (h' : Denotes second M)
    : Denotes (.alternative first second) (L + M) where
  regular := Bool.and_eq_true_iff.mpr ⟨h.regular, h'.regular⟩
  unconditional := Bool.and_eq_true_iff.mpr ⟨h.unconditional, h'.unconditional⟩
  language_eq := congrArg₂ (· + ·) h.language_eq h'.language_eq

theorem group (h : Denotes pattern L) (number : Nat) (name : Option Text)
    : Denotes (.group number name pattern) L :=
  ⟨h.regular, h.unconditional, h.language_eq⟩

/-- A repeated pattern denotes the powers of its language between the bounds. -/
theorem repeated (h : Denotes pattern L) (order : ∀ bound ∈ most, least ≤ bound)
    : Denotes (.repeated true least most pattern) (between least most L) where
  regular := h.regular
  unconditional := h.unconditional
  language_eq := h.language_eq ▸ language_repeated order true pattern

/-- No group matters where there are no conditions, by induction on the pattern. -/
theorem references_eq_nil (unconditional : pattern.isUnconditional)
    : pattern.references = [] := by
  induction pattern with
  | empty | char _ | anchor _ => rfl
  | sequence _ _ ih ih' | alternative _ _ ih ih' =>
      obtain ⟨unconditional, unconditional'⟩ := Bool.and_eq_true_iff.mp unconditional
      rw [references, ih unconditional, ih' unconditional', List.append_nil]
  | conditional _ _ _ => cases unconditional
  | group _ _ _ ih | repeated _ _ _ _ ih | atomic _ ih => exact ih unconditional

/-- Groups that nothing depends on can be left out, by induction on the pattern. -/
theorem withGroups (h : Denotes pattern L) (numbers : List Nat)
    : Denotes (pattern.withGroups numbers) L := by
  induction pattern generalizing L with
  | empty | char _ => exact h
  | anchor _ | atomic _ _ => cases h.regular
  | conditional _ _ _ => cases h.unconditional
  | sequence first second ih ih' =>
      obtain ⟨regular, regular'⟩ := Bool.and_eq_true_iff.mp h.regular
      obtain ⟨unconditional, unconditional'⟩ := Bool.and_eq_true_iff.mp h.unconditional
      exact h.language_eq ▸ (ih ⟨regular, unconditional, rfl⟩).sequence
        (ih' ⟨regular', unconditional', rfl⟩)
  | alternative first second ih ih' =>
      obtain ⟨regular, regular'⟩ := Bool.and_eq_true_iff.mp h.regular
      obtain ⟨unconditional, unconditional'⟩ := Bool.and_eq_true_iff.mp h.unconditional
      exact h.language_eq ▸ (ih ⟨regular, unconditional, rfl⟩).alternative
        (ih' ⟨regular', unconditional', rfl⟩)
  | group number name body ih =>
      have body : Denotes (body.withGroups numbers) L :=
        ih ⟨h.regular, h.unconditional, h.language_eq⟩
      rw [Pattern.withGroups]
      split
      next => exact body.group number name
      next => exact body
  | repeated greedy least most body ih =>
      have body := ih ⟨h.regular, h.unconditional, rfl⟩
      refine ⟨body.regular, body.unconditional, ?_⟩
      rw [← h.language_eq, Pattern.withGroups, language, body.language_eq]
      rfl

end Denotes

/-- The word is expanded to a text that is read as alternatives for the language, up to a
closing parenthesis. The groups that have opened only tell how those of the text are numbered.
-/
structure BranchesReading (nested : List (Option Text) → Text → Except Fault (Pattern × Text))
    (w : Text) (L : Language CodePoint) (e : Text)
    : Prop where
  expands : Expands false w e false
  follows : ∀ rest, StopsAt [')'] rest → Follows (e ++ rest)
  reads : ∀ limit groups rest, StopsAt [')'] rest → e.length < limit →
    ∃ pattern, Denotes pattern L
      ∧ alternatives nested limit groups (e ++ rest) = .ok (pattern, rest)

/-- The word is expanded to a text that is read as a pattern for the language and can have a
quantifier.
-/
structure AtomReading (host : Host)
    (nested : List (Option Text) → Text → Except Fault (Pattern × Text)) (w : Text)
    (L : Language CodePoint) (e : Text)
    : Prop where
  expands : Expands false w e false
  notEmpty : e ≠ []
  follows : ∀ rest, Follows (e ++ rest)
  reads : ∀ limit groups items rest, ∃ pattern, Denotes pattern L
    ∧ sequenceItems host nested (limit + 1) groups items (e ++ rest)
      = sequenceItems host nested limit (groups ++ pattern.groups) (⟨pattern, .atom⟩ :: items)
          rest

/-- Most characters can follow a quantifier without changing it. -/
theorem follows_cons {c : CodePoint} (noQuestion : c ≠ .char '?') (noPlus : c ≠ .char '+')
    (noBackslash : c ≠ .char '\\' ∨ rest ≠ [])
    : Follows (c :: rest) := by
  refine ⟨?_, ?_⟩
  · rintro d after ⟨⟩
    exact ⟨noQuestion, noPlus⟩
  · rintro ⟨⟩
    simp at noBackslash

/-- A class is an atom, in which no group opens. -/
theorem atomReading_of_class {set : CodePoint → Prop} {found : CharClass}
    (h : ClassReading w set e found)
    : AtomReading host nested w (singles set) (.char '[' :: e) where
  expands := h.expands
  notEmpty := nofun
  follows rest := follows_cons (by decide) (by decide) (.inl (by decide))
  reads limit groups items rest := by
    refine ⟨.char found, .char h.contain, ?_⟩
    have enough : (e ++ rest).length ≤ (.char '[' :: (e ++ rest) : Text).length := Nat.le_succ _
    rw [List.cons_append, sequenceItems, h.reads host rest _ enough, Pattern.groups,
      List.append_nil]
    rfl

/-- A dot becomes the class of all characters but the two line ends. -/
theorem classReading_dot
    : ClassReading [.char '.'] (fun c => c ≠ .char '\n' ∧ c ≠ .char '\r') "^\\n\\r]"
        ⟨true, [.range 0x0A 0x0A, .range 0x0D 0x0D]⟩ where
  expands := .dot
  contain c := by
    have lineEnds := (ClassItem.Contain.single (.char '\n')).append (.single (.char '\r'))
    refine (contains_iff lineEnds true c).trans ?_
    simp
  reads host rest limit enough := by
    have feed : SpellsCode [.char '\\', .char 'n'] '\n'.toNat := spellsCode_escape (by decide)
    have carriage : SpellsCode [.char '\\', .char 'r'] '\r'.toNat := spellsCode_escape (by decide)
    have closes := feed.closes (by rintro rest ⟨⟩)
      (carriage.closes (by rintro rest ⟨⟩) (closes_bracket rest))
    have items := (feed.classItems_eq host limit _).symm.trans
      (closes host limit (Nat.le_of_succ_le enough))
    show charClass host limit (.char '^' :: ([.char '\\', .char 'n'] ++ ([.char '\\', .char 'r']
      ++ .char ']' :: rest))) = _
    rw [charClass]
    simp only [items]
    rfl

/-- A character without a meaning of its own is read as itself. -/
theorem atomReading_plain {c : Char} (isPlain : c ∉ IRegexp.operators)
    (notMark : c ∉ IRegexp.marks)
    : AtomReading host nested [.char c] (singles (· = .char c)) [.char c] := by
  simp only [IRegexp.operators, IRegexp.marks, List.mem_cons, List.not_mem_nil, or_false,
    not_or] at isPlain notMark
  refine ⟨.outside ?_, List.cons_ne_nil _ _, fun rest => follows_cons ?_ ?_ (.inl ?_),
    fun limit groups items rest => ⟨_, .single c, ?_⟩⟩
  case refine_5 =>
    rw [Pattern.groups, List.append_nil]
    refine sequenceItems_plain ?_ ?_
    all_goals simp_all [openers, quantifier?]
  all_goals simp_all

/-- The escapes of the grammar are read as their characters. -/
theorem escape_of_isEscape {c d : Char} (isEscape : (c, d) ∈ IRegexp.escapes) (rest : Text)
    : escape host (.char c :: rest) = .ok (⟨.char (.single d.toNat), .atom⟩, rest) := by
  have all : ∀ entry ∈ IRegexp.escapes, escape host (.char entry.1 :: rest)
      = .ok (⟨.char (.single entry.2.toNat), .atom⟩, rest) := by
    simp only [IRegexp.escapes, List.forall_mem_cons, List.not_mem_nil, false_implies,
      implies_true, and_true]
    and_intros <;> rfl
  exact all (c, d) isEscape

/-- The escapes of the grammar are atoms that are copied. -/
theorem atomReading_escape {c d : Char} (isEscape : (c, d) ∈ IRegexp.escapes)
    : AtomReading host nested [.char '\\', .char c] (singles (· = .char d))
        [.char '\\', .char c] where
  expands := expands_escape isEscape
  notEmpty := List.cons_ne_nil _ _
  follows _ := follows_cons (by decide) (by decide) (.inr (List.cons_ne_nil _ _))
  reads limit groups items rest := by
    refine ⟨_, .single d, ?_⟩
    rw [List.cons_append, sequenceItems]
    simp only [List.cons_append, List.nil_append, escape_of_isEscape isEscape, Outcome.ok_bind,
      Pattern.groups, List.append_nil]

/-- What is nested is an atom in parentheses. It is captured and nothing else, since the
contents start with no question mark.
-/
theorem atomReading_group (h : BranchesReading nested w L e)
    : AtomReading host nested ([.char '('] ++ (w ++ [.char ')'])) L
        ([.char '('] ++ (e ++ [.char ')'])) where
  expands := by
    have opening : Expands false [.char '('] [.char '('] false := .outside (by decide)
    have closing : Expands false [.char ')'] [.char ')'] false := .outside (by decide)
    exact opening.append (h.expands.append closing)
  notEmpty := List.cons_ne_nil _ _
  follows _ := follows_cons (by decide) (by decide) (.inl (by decide))
  reads limit groups items rest := by
    have stops : StopsAt [')'] (.char ')' :: rest) := by
      rintro c rest ⟨⟩
      exact ⟨')', List.mem_singleton_self _, rfl⟩
    have enough : e.length < (e ++ .char ')' :: rest).length + 1 :=
      Nat.lt_succ_of_le (List.length_append ▸ Nat.le_add_right _ _)
    obtain ⟨body, denotes, reads⟩ := h.reads _ (groups ++ [none]) _ stops enough
    have noQuestion : ∀ after, e ++ .char ')' :: rest ≠ .char '?' :: after :=
      fun after eq => absurd rfl ((h.follows _ stops).1 _ _ eq).1
    have enclosed_eq : enclosed nested (groups ++ [none]) (e ++ .char ')' :: rest)
        = .ok (body, rest) := by
      rw [enclosed, reads]
      rfl
    have captures : parenthesized nested groups (e ++ .char ')' :: rest)
        = .ok (.group (groups.length + 1) none body, rest) := by
      rw [parenthesized]
      · rw [captured, enclosed_eq]
        rfl
      all_goals exact fun _ => noQuestion _
    refine ⟨_, denotes.group (groups.length + 1) none, ?_⟩
    rw [List.append_assoc, List.append_assoc]
    show sequenceItems host nested (limit + 1) groups items
      (.char '(' :: (e ++ .char ')' :: rest)) = _
    rw [sequenceItems]
    · simp only [captures, Outcome.ok_bind]
    · exact fun _ => noQuestion _

/-- Every atom of the grammar is read, when what is nested in it is. -/
theorem exists_atomReading {Nested : Text → Language CodePoint → Prop}
    (nest : ∀ w L, Nested w L → ∃ e, BranchesReading nested w L e)
    (h : IRegexp.Atom false Nested w L)
    : ∃ e, AtomReading host nested w L e := by
  cases h with
  | plain isPlain notMark => exact ⟨_, atomReading_plain isPlain (by simpa using notMark)⟩
  | dot => exact ⟨_, atomReading_of_class classReading_dot⟩
  | escape isEscape => exact ⟨_, atomReading_escape isEscape⟩
  | category spelling =>
      obtain ⟨e, found, reading⟩ := exists_classReading_category spelling
      exact ⟨_, atomReading_of_class reading⟩
  | charClass spelling =>
      obtain ⟨e, found, reading⟩ := exists_classReading spelling
      exact ⟨_, atomReading_of_class reading⟩
  | group spelling =>
      obtain ⟨e, reading⟩ := nest _ _ spelling
      exact ⟨_, atomReading_group reading⟩

-----------------------------------------------------------------------------------------
-- Pieces
-----------------------------------------------------------------------------------------

/-- The word is expanded to a text that is read as one part of a sequence. -/
structure PieceReading (host : Host)
    (nested : List (Option Text) → Text → Except Fault (Pattern × Text)) (w : Text)
    (L : Language CodePoint) (e : Text)
    : Prop where
  expands : Expands false w e false
  follows : ∀ rest, Follows (e ++ rest)
  reads : ∀ limit groups items rest, Follows rest → e.length ≤ limit →
    ∃ item limit', Denotes item.pattern L ∧ limit ≤ limit' + e.length
      ∧ sequenceItems host nested limit groups items (e ++ rest)
        = sequenceItems host nested limit' (groups ++ item.pattern.groups) (item :: items) rest

/-- An atom without a quantifier is a piece. -/
theorem AtomReading.piece (h : AtomReading host nested w L e)
    : PieceReading host nested w L e where
  expands := h.expands
  follows := h.follows
  reads limit groups items rest _ enough := by
    have := List.length_pos_iff.mpr h.notEmpty
    obtain ⟨limit, rfl⟩ : ∃ limit', limit = limit' + 1 := ⟨limit - 1, by omega⟩
    obtain ⟨pattern, denotes, eq⟩ := h.reads limit groups items rest
    exact ⟨⟨pattern, .atom⟩, limit, denotes, by omega, eq⟩

/-- A repetition is greedy unless a mark follows it. -/
theorem repeatLast_of_follows (follows : Follows rest) (body : Pattern)
    : repeatLast least most (⟨body, .atom⟩ :: items) rest
      = .ok (⟨.repeated true least most body, .repeated⟩ :: items, rest) := by
  rw [repeatLast]
  · exact fun after eq => absurd rfl (follows.1 _ after eq).1
  · exact fun after eq => absurd rfl (follows.1 _ after eq).2

/-- A quantifier behind an atom repeats it, and no group opens in the quantifier. -/
theorem AtomReading.piece_repeated {w' : Text} (h : AtomReading host nested w L e)
    (quantifier : QuantifierReading w' least most)
    : PieceReading host nested (w ++ w') (between least most L) (e ++ w') where
  expands := h.expands.append quantifier.expands
  follows rest := by
    rw [List.append_assoc]
    exact h.follows _
  reads limit groups items rest follows enough := by
    have := List.length_pos_iff.mpr h.notEmpty
    obtain ⟨c, others, rfl⟩ := List.exists_cons_of_ne_nil quantifier.notEmpty
    rw [List.length_append, List.length_cons] at enough
    obtain ⟨limit, rfl⟩ : ∃ limit', limit = limit' + 2 := ⟨limit - 2, by omega⟩
    obtain ⟨pattern, denotes, eq⟩ := h.reads (limit + 1) groups items (c :: others ++ rest)
    refine ⟨⟨.repeated true least most pattern, .repeated⟩, limit,
      denotes.repeated quantifier.order, by simp only [List.length_append, List.length_cons]; omega,
      ?_⟩
    rw [List.append_assoc, eq]
    exact sequenceItems_quantifier (quantifier.isOther c rfl) (quantifier.reads rest follows.2)
      (repeatLast_of_follows follows pattern)

/-- Every piece of the grammar is read, with its quantifier or without one. -/
theorem exists_pieceReading {Nested : Text → Language CodePoint → Prop}
    (nest : ∀ w L, Nested w L → ∃ e, BranchesReading nested w L e)
    (h : IRegexp.Piece false Nested w L)
    : ∃ e, PieceReading host nested w L e := by
  cases h with
  | once spelling =>
      obtain ⟨e, reading⟩ := exists_atomReading nest spelling
      exact ⟨e, reading.piece⟩
  | repeated spelling quantifier =>
      obtain ⟨e, reading⟩ := exists_atomReading nest spelling
      exact ⟨_, reading.piece_repeated (quantifierReading quantifier)⟩

-----------------------------------------------------------------------------------------
-- Branches
-----------------------------------------------------------------------------------------

/-- The word is expanded to a text that is read as the parts of a sequence. -/
structure BranchReading (host : Host)
    (nested : List (Option Text) → Text → Except Fault (Pattern × Text)) (w : Text)
    (L : Language CodePoint) (e : Text)
    : Prop where
  expands : Expands false w e false
  follows : ∀ rest, StopsAt ['|', ')'] rest → Follows (e ++ rest)
  reads : ∀ limit groups items rest, StopsAt ['|', ')'] rest → e.length ≤ limit →
    ∃ parts : List Item, Denotes (ofItems parts.reverse) L
      ∧ sequenceItems host nested limit groups items (e ++ rest)
        = .ok (parts.reverse ++ items, rest)

theorem StopsAt.mono {stops others : List Char} (h : StopsAt stops rest)
    (subset : ∀ c ∈ stops, c ∈ others)
    : StopsAt others rest := by
  intro c after eq
  obtain ⟨d, mem, rfl⟩ := h c after eq
  exact ⟨d, subset d mem, rfl⟩

/-- A branch ends at the end of the text, at a bar or at a parenthesis. -/
theorem StopsAt.cases (h : StopsAt ['|', ')'] rest)
    : rest = [] ∨ (∃ after, rest = .char '|' :: after) ∨ ∃ after, rest = .char ')' :: after := by
  cases rest with
  | nil => exact .inl rfl
  | cons c after =>
      obtain ⟨d, mem, rfl⟩ := h c after rfl
      simp only [List.mem_cons, List.not_mem_nil, or_false] at mem
      obtain rfl | rfl := mem
      · exact .inr (.inl ⟨after, rfl⟩)
      · exact .inr (.inr ⟨after, rfl⟩)

theorem StopsAt.follows (h : StopsAt ['|', ')'] rest) : Follows rest := by
  obtain rfl | ⟨after, rfl⟩ | ⟨after, rfl⟩ := h.cases
  · exact ⟨nofun, nofun⟩
  · exact follows_cons (by decide) (by decide) (.inl (by decide))
  · exact follows_cons (by decide) (by decide) (.inl (by decide))

/-- Where a branch ends, no further item is read. -/
theorem sequenceItems_of_stopsAt (h : StopsAt ['|', ')'] rest) (limit : Nat)
    (groups : List (Option Text)) (items : List Item)
    : sequenceItems host nested limit groups items rest = .ok (items, rest) := by
  cases limit with
  | zero => rfl
  | succ limit => obtain rfl | ⟨after, rfl⟩ | ⟨after, rfl⟩ := h.cases <;> rfl

/-- The empty branch is read without items. -/
theorem branchReading_nil : BranchReading host nested [] 1 [] where
  expands := .nil
  follows _ := StopsAt.follows
  reads limit groups items _ stops _ :=
    ⟨[], .empty, sequenceItems_of_stopsAt stops limit groups items⟩

/-- A piece in front of a branch is read as a part of it. -/
theorem PieceReading.branch {w' e' : Text} {M : Language CodePoint}
    (h : PieceReading host nested w L e) (others : BranchReading host nested w' M e')
    : BranchReading host nested (w ++ w') (L * M) (e ++ e') where
  expands := h.expands.append others.expands
  follows rest _ := by
    rw [List.append_assoc]
    exact h.follows _
  reads limit groups items rest stops enough := by
    rw [List.length_append] at enough
    obtain ⟨item, limit', denotes, left, eq⟩ :=
      h.reads limit groups items (e' ++ rest) (others.follows rest stops) (by omega)
    obtain ⟨parts, denotes', eq'⟩ := others.reads limit' (groups ++ item.pattern.groups)
      (item :: items) rest stops (by omega)
    refine ⟨item :: parts, ?_, ?_⟩
    · rw [List.reverse_cons, ofItems_append]
      exact denotes.sequence denotes'
    · rw [List.append_assoc, eq, eq', List.reverse_cons, List.append_assoc,
        List.singleton_append]

/-- Every branch of the grammar is read, by induction on its pieces. -/
theorem exists_branchReading {Nested : Text → Language CodePoint → Prop}
    (nest : ∀ w L, Nested w L → ∃ e, BranchesReading nested w L e)
    (h : IRegexp.Branch false Nested w L)
    : ∃ e, BranchReading host nested w L e := by
  induction h with
  | none => exact ⟨_, branchReading_nil⟩
  | more first _ ih =>
      obtain ⟨e, piece⟩ := exists_pieceReading nest first
      obtain ⟨e', others⟩ := ih
      exact ⟨_, piece.branch others⟩

-----------------------------------------------------------------------------------------
-- Alternatives
-----------------------------------------------------------------------------------------

section Alternatives

variable {depth : Nat}

/-- A branch is read as a sequence whose parts have groups nested less deep. -/
theorem BranchReading.reads_branch (h : BranchReading host (Pattern.branch host depth) w L e)
    (groups : List (Option Text)) (stops : StopsAt ['|', ')'] rest)
    : ∃ pattern, Denotes pattern L
        ∧ Pattern.branch host (depth + 1) groups (e ++ rest) = .ok (pattern, rest) := by
  obtain ⟨parts, denotes, eq⟩ := h.reads (e ++ rest).length groups [] rest stops
    (List.length_append ▸ Nat.le_add_right _ _)
  refine ⟨_, denotes, ?_⟩
  rw [List.append_nil] at eq
  rw [Pattern.branch, eq]
  rfl

/-- A single branch is read as it is. -/
theorem BranchReading.branches (h : BranchReading host (Pattern.branch host depth) w L e)
    : BranchesReading (Pattern.branch host (depth + 1)) w L e where
  expands := h.expands
  follows rest stops := h.follows rest (stops.mono (by simp))
  reads limit groups rest stops enough := by
    obtain ⟨limit, rfl⟩ := Nat.exists_eq_add_one_of_ne_zero (Nat.ne_zero_of_lt enough)
    obtain ⟨pattern, denotes, eq⟩ := h.reads_branch groups (stops.mono (by simp))
    refine ⟨pattern, denotes, ?_⟩
    rw [alternatives, eq, Outcome.ok_bind]
    dsimp only
    split
    next =>
      obtain ⟨d, mem, eq⟩ := stops _ _ rfl
      obtain rfl := List.mem_singleton.mp mem
      cases eq
    next => rfl

/-- A branch and others behind the bar are read as alternatives. -/
theorem BranchReading.alternative {w' e' : Text} {M : Language CodePoint}
    (h : BranchReading host (Pattern.branch host depth) w L e)
    (others : BranchesReading (Pattern.branch host (depth + 1)) w' M e')
    : BranchesReading (Pattern.branch host (depth + 1)) (w ++ ([.char '|'] ++ w')) (L + M)
        (e ++ ([.char '|'] ++ e')) := by
  have bar : Expands false [.char '|'] [.char '|'] false := .outside (by decide)
  have stops (after : Text) : StopsAt ['|', ')'] (.char '|' :: after) := by
    rintro c rest ⟨⟩
    exact ⟨'|', by simp, rfl⟩
  refine ⟨h.expands.append (bar.append others.expands), fun rest _ => ?_,
    fun limit groups rest after enough => ?_⟩
  · rw [List.append_assoc]
    exact h.follows _ (stops _)
  · simp only [List.length_append, List.length_singleton] at enough
    obtain ⟨limit, rfl⟩ := Nat.exists_eq_add_one_of_ne_zero (Nat.ne_zero_of_lt enough)
    obtain ⟨first, denotes, eq⟩ := h.reads_branch groups (stops (e' ++ rest))
    obtain ⟨second, denotes', eq'⟩ :=
      others.reads limit (groups ++ first.groups) rest after (by omega)
    refine ⟨_, denotes.alternative denotes', ?_⟩
    rw [List.append_assoc, List.append_assoc]
    show alternatives _ (limit + 1) groups (e ++ .char '|' :: (e' ++ rest)) = _
    rw [alternatives, eq, Outcome.ok_bind]
    simp only [eq', Outcome.ok_bind]
    rfl

/-- Alternatives of the grammar are read, by induction on their number. -/
theorem exists_branchesReading {Nested : Text → Language CodePoint → Prop}
    (nest : ∀ w L, Nested w L → ∃ e, BranchesReading (Pattern.branch host depth) w L e)
    (h : IRegexp.Branches false Nested w L)
    : ∃ e, BranchesReading (Pattern.branch host (depth + 1)) w L e := by
  induction h with
  | one spelling =>
      obtain ⟨e, branch⟩ := exists_branchReading nest spelling
      exact ⟨e, branch.branches⟩
  | more first _ ih =>
      obtain ⟨e, branch⟩ := exists_branchReading nest first
      obtain ⟨e', others⟩ := ih
      exact ⟨_, branch.alternative others⟩

variable (host) in
/-- The reader reads every regexp, by induction on the depth of nesting. -/
theorem exists_reading_of_isRegexp (h : IRegexp.IsRegexp false depth w L)
    : ∃ e, BranchesReading (Pattern.branch host depth) w L e := by
  induction depth generalizing w L with
  | zero => cases h
  | succ depth ih => exact exists_branchesReading (fun _ _ => ih) h

end Alternatives

/-- Every I-Regexp whose groups are not nested too deep is compiled to a pattern for its
language.
-/
theorem compileOn_of_isRegexp (h : IRegexp.IsRegexp false (host.depth + 1) w L)
    : ∃ pattern, compileOn host w = .ok pattern ∧ Denotes pattern L := by
  obtain ⟨e, reading⟩ := exists_reading_of_isRegexp host h
  obtain ⟨pattern, denotes, whole⟩ := reading.reads (e.length + 1) [] [] nofun (Nat.lt_succ_self _)
  rw [List.append_nil] at whole
  refine ⟨pattern.withGroups pattern.references, ?_, denotes.withGroups _⟩
  rw [compileOn, reading.expands.expand_eq]
  simp only [parse, whole, Outcome.ok_bind, Denotes.references_eq_nil denotes.unconditional,
    List.all_nil, if_true]
  rfl

end JsonPath.Pattern
