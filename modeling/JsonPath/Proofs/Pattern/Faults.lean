import JsonPath.Pattern.Reader
import JsonPath.Proofs.Pattern.Nesting
import JsonPath.Proofs.Reading.Basic
import JsonPath.Proofs.Text.CodePoints

/-! What faults of reading patterns say about the text. A reading can only go beyond a limit
when a large number or deeply nested groups are in the text: every reader goes on to a spot
behind its own, so that what a later reader finds is in the text as well.
-/

namespace JsonPath.Pattern

/-- Digits that spell a repeat count beyond the limit stand behind an opening brace or a comma.
-/
def HasOversizedCount (t : Text) : Prop :=
  ∃ mark digits after,
    mark ∈ ['\x7b', ',']
    ∧ (∀ d ∈ digits, d.isDigit)
    ∧ maxRepeat ≤ Numeral.toNat digits
    ∧ .char mark :: (digits ++ after) <:+ t

/-- An escape of eight digits spells a code beyond the limit. -/
def HasOversizedCode (t : Text) : Prop :=
  ∃ digits code after,
    digits.length = 8
    ∧ Numeral.hexToNat? digits = some code
    ∧ maxCode ≤ code
    ∧ .char '\\' :: .char 'U' :: (digits ++ after) <:+ t

/-- What is behind a spot explains why reading from there fails, where groups are read `depth`
deep. Texts that are no patterns need no further reason.
-/
def Explains (depth : Nat) (spot : Spot) : Fault → Prop
  | .invalid => True
  | .oversizedNumber => HasOversizedCount spot.text ∨ HasOversizedCode spot.text
  | .tooDeep => ∀ opened, opened + depth ≤ deepest spot.region opened spot.text

/-- What explains a fault inside of groups explains it in front of them, where reading goes
that much deeper.
-/
theorem Explains.of_inside {depth groups : Nat} {inner outer : Spot} {fault : Fault}
    (h : Explains depth inner fault) (inside : inner.Inside groups outer)
    : Explains (depth + groups) outer fault := by
  cases fault with
  | invalid => trivial
  | oversizedNumber =>
      refine h.imp ?_ ?_
      · rintro ⟨mark, digits, after, isMark, areDigits, large, within⟩
        exact ⟨mark, digits, after, isMark, areDigits, large, within.trans inside.isSuffix⟩
      · rintro ⟨digits, code, after, length, reads, large, within⟩
        exact ⟨digits, code, after, length, reads, large, within.trans inside.isSuffix⟩
  | tooDeep =>
      intro opened
      have deep : opened + groups + depth ≤ deepest inner.region (opened + groups) inner.text :=
        h (opened + groups)
      have below := inside.le opened
      omega

/-- A reading from a spot that leaves a spot behind it, or has a fault that is explained there.
What a result leaves is told by `left`.
-/
def Traced {α : Type} (left : α → Spot) (depth : Nat) (spot : Spot) (reading : Except Fault α)
    : Prop :=
  match reading with
  | .ok result => (left result).Inside 0 spot
  | .error fault => Explains depth spot fault

/-- The text that is left outside of classes. -/
def leftOutside {α : Type} (result : α × Text) : Spot :=
  ⟨.outside, result.2⟩

/-- The text that is left in the region that escapes lead to. -/
def leftBehind (region : Region) {α : Type} (result : α × Text) : Spot :=
  ⟨region.next, result.2⟩

/-- What is left behind a quantifier, when one has been read. -/
def leftIfAny (found : Option (Nat × Option Nat × Text)) : Spot :=
  ⟨.outside, found.elim [] fun (_, _, rest) => rest⟩

/-- Nothing is left by readers of whole words. -/
def nothingLeft {α : Type} (_ : α) : Spot :=
  ⟨.outside, []⟩

namespace Traced

variable {α β : Type} {left : α → Spot} {left' : β → Spot} {depth groups : Nat}
variable {spot inner : Spot}

theorem ok {result : α} (inside : (left result).Inside 0 spot)
    : Traced left depth spot (.ok result) :=
  inside

/-- Invalid patterns are not the fault of a limit. -/
theorem invalid : Traced left depth spot (.error .invalid) :=
  trivial

/-- What is read behind a spot is traced to the spot. -/
theorem of_inside {reading : Except Fault α} (h : Traced left depth inner reading)
    (inside : inner.Inside 0 spot)
    : Traced left depth spot reading := by
  cases reading with
  | ok _ => exact Spot.Inside.trans h inside
  | error _ => exact Explains.of_inside h inside

/-- Readings compose: the second one reads what the first one leaves. -/
theorem bind {reading : Except Fault α} {f : α → Except Fault β}
    (first : Traced left depth spot reading)
    (second : ∀ result, (left result).Inside 0 spot → Traced left' depth spot (f result))
    : Traced left' depth spot (reading >>= f) := by
  cases reading with
  | ok result => exact second result first
  | error _ => exact first

/-- What is done with a result does not matter as long as it leaves the same. -/
theorem map {reading : Except Fault α} {f : α → β} (h : Traced left depth spot reading)
    (same : ∀ result, left' (f result) = left result)
    : Traced left' depth spot (reading.map f) := by
  cases reading with
  | ok result => exact ok ((same result).symm ▸ h)
  | error _ => exact h

end Traced

variable {host : Host} {depth : Nat} {region : Region}

/-- Of the ASCII characters, only the structural ones have to be told from those of a kind. -/
theorem notMem_structuralMarks {p : CodePoint → Bool}
    (noMark : ∀ c ∈ structuralMarks, p c = false) {c : CodePoint} (holds : p c)
    : c ∉ structuralMarks := by
  intro isMark
  rw [noMark c isMark] at holds
  cases holds

-----------------------------------------------------------------------------------------
-- Escapes
-----------------------------------------------------------------------------------------

/-- The digits of a code are behind one another. -/
theorem inside_hexDigits {count n : Nat} {t : Text}
    (reads : Numeral.hexToNat? (t.take count) = some n) (region : Region)
    : Spot.Inside 0 ⟨region.next, t.drop count⟩ ⟨region.next, t⟩ := by
  have areDigits := (Numeral.of_hexToNat?_eq_some reads).1
  have noMarks : ∀ c ∈ t.take count, c ∉ structuralMarks :=
    fun c mem => notMem_structuralMarks (p := (·.hexDigit?.isSome)) (by decide) (areDigits c mem)
  have inside := Spot.Inside.append noMarks region (t.drop count)
  rwa [List.take_append_drop] at inside

/-- Up to four digits spell numbers far below the limit. -/
theorem traced_hexEscape {count : Nat} (short : count ≤ 4) (t : Text)
    : Traced (leftBehind region) depth ⟨region.next, t⟩ (hexEscape count t) := by
  unfold hexEscape
  dsimp only
  split
  next n reads =>
    have small : n < maxCode := by
      have bound : n < 16 ^ (t.take count).length := (Numeral.of_hexToNat?_eq_some reads).2
      have length : (t.take count).length ≤ 4 :=
        Nat.le_trans (List.length_take_le count t) short
      calc n < 16 ^ (t.take count).length := bound
        _ ≤ 16 ^ 4 := Nat.pow_le_pow_right (by decide) length
        _ ≤ maxCode := by decide
    split
    next => exact .invalid
    split
    next => exact .ok (inside_hexDigits reads region)
    split
    next => exact .invalid
    next notSmall => exact absurd (.inl small) notSmall
  next => exact .invalid

theorem traced_hexEscape_eight (t : Text)
    : Traced (leftBehind region) depth ⟨region, .char '\\' :: .char 'U' :: t⟩ (hexEscape 8 t) := by
  unfold hexEscape
  dsimp only
  split
  next code reads =>
    split
    next => exact .invalid
    next length =>
    split
    next => exact .ok ((inside_hexDigits reads region).trans (.escape region _ t))
    split
    next => exact .invalid
    next large =>
      refine .inr ⟨t.take 8, code, t.drop 8, ?_, reads, Nat.le_of_not_lt (large ∘ .inl), ?_⟩
      · simpa using length
      · exact ⟨[], by rw [List.take_append_drop, List.nil_append]⟩
  next => exact .invalid

/-- The text in front of a mark holds neither the mark nor a backslash. -/
theorem of_upTo?_eq_some {mark : Char} {t word rest : Text}
    (h : upTo? mark t = some (word, rest))
    : t = word ++ .char mark :: rest ∧ ∀ c ∈ word, c ≠ .char '\\' ∧ c ≠ .char mark := by
  fun_induction upTo? mark t generalizing word with
  | case1 => cases h
  | case2 => cases h
  | case3 rest _ =>
      obtain ⟨rfl, rfl⟩ := Prod.mk.inj (Option.some.inj h)
      exact ⟨rfl, List.forall_mem_nil _⟩
  | case4 c t noBackslash noMark ih =>
      obtain ⟨⟨others, rest⟩, found, eq⟩ := Option.map_eq_some_iff.mp h
      obtain ⟨rfl, rfl⟩ := Prod.mk.inj eq
      obtain ⟨rfl, areOthers⟩ := ih found
      exact ⟨rfl, List.forall_mem_cons.mpr ⟨⟨noBackslash, noMark⟩, areOthers⟩⟩

/-- The name of a character is passed with its braces. -/
theorem traced_namedEscape (t : Text)
    : Traced (leftBehind region) depth ⟨region.next, t⟩ (namedEscape host t) := by
  unfold namedEscape
  split
  next rest =>
    split
    next name rest found =>
      split
      next c named =>
        obtain ⟨rfl, -⟩ := of_upTo?_eq_some found
        have areParts : ∀ c ∈ name, Host.isNamePart c := by
          unfold Host.named? at named
          split at named
          next => cases named
          next areParts => simp_all
        have noMarks : ∀ c ∈ .char '\x7b' :: name ++ [.char '\x7d'], c ∉ structuralMarks := by
          simp only [List.cons_append, List.forall_mem_cons, List.forall_mem_append,
            List.not_mem_nil, false_implies, implies_true, and_true]
          exact ⟨by decide,
            fun c mem => notMem_structuralMarks (by decide) (areParts c mem), by decide⟩
        have inside := Spot.Inside.append noMarks region rest
        rw [List.append_assoc] at inside
        exact .ok inside
      next => exact .invalid
    next => exact .invalid
  next => exact .invalid

/-- Escapes that classes share with other places are traced, by cases on their letter. -/
theorem traced_commonEscape (c : CodePoint) (t : Text)
    : Traced (leftBehind region) depth ⟨region, .char '\\' :: c :: t⟩
        (commonEscape host c t) := by
  have behind : Spot.Inside 0 ⟨region.next, t⟩ ⟨region, .char '\\' :: c :: t⟩ :=
    .escape region c t
  unfold commonEscape
  split
  case h_13 =>
    have short : 2 ≤ 4 := by decide
    exact ((traced_hexEscape short t).of_inside behind).map fun _ => rfl
  case h_14 => exact ((traced_hexEscape (Nat.le_refl 4) t).of_inside behind).map fun _ => rfl
  case h_15 => exact (traced_hexEscape_eight t).map fun _ => rfl
  case h_16 => exact (traced_namedEscape t).of_inside behind
  case h_17 =>
    split
    next => exact .invalid
    next => exact .ok behind
  all_goals exact .ok behind

/-- Octal digits are behind one another, by induction on how many are read. -/
theorem inside_octal (n count : Nat) (t : Text) (region : Region)
    : Spot.Inside 0 ⟨region.next, (octal n count t).2⟩ ⟨region.next, t⟩ := by
  induction count generalizing n t with
  | zero => exact .refl _
  | succ count ih =>
      cases t with
      | nil => exact .refl _
      | cons c rest =>
          rw [octal]
          split
          next digit isDigit =>
            have noMark : c ∉ structuralMarks :=
              notMem_structuralMarks (p := (octalDigit? · |>.isSome)) (by decide)
                (by rw [isDigit]; rfl)
            have behind := Spot.Inside.cons noMark region.next rest
            rw [Region.next_next] at behind
            exact (ih _ rest).trans behind
          next => exact .refl _

theorem traced_classEscape (t : Text)
    : Traced (leftBehind region) depth ⟨region, .char '\\' :: t⟩ (classEscape host t) := by
  unfold classEscape
  split
  next => exact .invalid
  next rest => exact .ok (.escape region _ rest)
  next c rest _ =>
    split
    next digit _ =>
      dsimp only
      split
      next => exact .ok ((inside_octal digit 2 rest region).trans (.escape region c rest))
      next => exact .invalid
    next => exact traced_commonEscape c rest

/-- Escapes outside of classes are traced, with references among them. -/
theorem traced_escape (t : Text)
    : Traced leftOutside depth ⟨.outside, .char '\\' :: t⟩ (escape host t) := by
  unfold escape
  split
  next => exact .invalid
  case h_6 rest => exact .ok ((inside_octal 0 2 rest .outside).trans (.escape .outside _ rest))
  case h_7 c rest _ _ _ _ _ =>
    split
    next digit _ =>
      dsimp only
      split
      next =>
        exact .ok ((inside_octal digit 2 rest .outside).trans (.escape .outside c rest))
      next => exact .invalid
    next =>
      have traced : Traced (leftBehind .outside) depth _ (commonEscape host c rest) :=
        traced_commonEscape c rest
      exact traced.map fun _ => rfl
  all_goals exact .ok (.escape .outside _ _)

-----------------------------------------------------------------------------------------
-- Classes
-----------------------------------------------------------------------------------------

/-- Only a class can be closed by what stands where a character is read. -/
theorem inside_class {c : CodePoint} {t : Text} (noBackslash : c ≠ .char '\\')
    (notClosed : region = .classStart ∨ region = .inClass ∧ c ≠ .char ']')
    : Spot.Inside 0 ⟨.inClass, t⟩ ⟨region, c :: t⟩ := by
  refine ⟨List.suffix_cons c t, fun opened => ?_⟩
  obtain rfl | ⟨rfl, notClosed⟩ := notClosed
  all_goals
    rw [deepest]
    · exact Nat.le_refl _
    all_goals simp_all

/-- A character of a class, escaped or not, is traced. -/
theorem traced_classAtom {t : Text}
    (notClosed : region = .classStart ∨ region = .inClass ∧ t.head? ≠ some (.char ']'))
    : Traced (leftBehind .inClass) depth ⟨region, t⟩ (classAtom host t) := by
  have next_eq : region.next = .inClass := by
    obtain rfl | ⟨rfl, -⟩ := notClosed <;> rfl
  unfold classAtom
  split
  next => exact .invalid
  next rest =>
    have traced : Traced (leftBehind region) depth _ (classEscape host rest) :=
      traced_classEscape rest
    unfold leftBehind at traced
    rwa [next_eq] at traced
  next c rest noBackslash =>
    exact .ok (inside_class noBackslash (notClosed.imp_right (.imp_right (by simp))))

/-- Where the items of a class are read from. -/
def Region.ofFirst (isFirst : Bool) : Region :=
  if isFirst then classStart else inClass

/-- The items of a class are traced up to the bracket, by recursion on the limit. -/
theorem traced_classItems (limit : Nat) (isFirst : Bool) (t : Text)
    : Traced leftOutside depth ⟨.ofFirst isFirst, t⟩ (classItems host limit isFirst t) := by
  induction limit generalizing isFirst t with
  | zero => exact .invalid
  | succ limit ih =>
      have others (rest : Text)
          : Traced leftOutside depth ⟨.inClass, rest⟩ (classItems host limit false rest) :=
        ih false rest
      unfold classItems
      split
      next rest => exact .ok (.classEnd rest)
      next notClosed =>
        have notClosed : Region.ofFirst isFirst = .classStart
            ∨ Region.ofFirst isFirst = .inClass ∧ t.head? ≠ some (.char ']') := by
          cases isFirst with
          | true => exact .inl rfl
          | false =>
              refine .inr ⟨rfl, fun first => ?_⟩
              obtain ⟨rest, rfl⟩ := List.head?_eq_some_iff.mp first
              exact notClosed rest rfl rfl
        refine (traced_classAtom notClosed).bind ?_
        rintro ⟨atom, afterAtom⟩ inside
        dsimp only [leftBehind, Region.next] at inside ⊢
        have dash (rest : Text) : Spot.Inside 0 ⟨.inClass, rest⟩ ⟨.inClass, .char '-' :: rest⟩ :=
          .cons (by decide) .inClass rest
        split
        next rest => exact .ok ((Spot.Inside.classEnd rest).trans ((dash _).trans inside))
        next rest notLast =>
          have notClosed : rest.head? ≠ some (.char ']') := by
            intro first
            obtain ⟨rest, rfl⟩ := List.head?_eq_some_iff.mp first
            exact notLast rest rfl
          have last : Traced (leftBehind .inClass) depth ⟨.inClass, rest⟩ (classAtom host rest) :=
            traced_classAtom (.inr ⟨rfl, notClosed⟩)
          refine (last.of_inside ((dash rest).trans inside)).bind ?_
          rintro ⟨atom', rest⟩ inside
          dsimp only at inside ⊢
          split
          next =>
            split
            next =>
              exact ((others rest).of_inside inside).bind fun _ inside => .ok inside
            next => exact .invalid
          next => exact .invalid
        next => exact ((others _).of_inside inside).bind fun _ inside => .ok inside

/-- A class is traced, negated or not. -/
theorem traced_charClass (limit : Nat) (t : Text)
    : Traced leftOutside depth ⟨.outside, .char '[' :: t⟩ (charClass host limit t) := by
  unfold charClass
  split
  next negated rest eq =>
    have inside : Spot.Inside 0 ⟨.classStart, rest⟩ ⟨.outside, .char '[' :: t⟩ := by
      split at eq
      next rest =>
        obtain ⟨-, rfl⟩ := Prod.mk.inj eq
        exact .negatedClass rest
      next noCaret =>
        obtain ⟨-, rfl⟩ := Prod.mk.inj eq
        exact .charClass noCaret
    have items : Traced leftOutside depth ⟨.classStart, rest⟩ (classItems host limit true rest) :=
      traced_classItems limit true rest
    exact (items.of_inside inside).bind fun _ inside => .ok inside

-----------------------------------------------------------------------------------------
-- Quantifiers
-----------------------------------------------------------------------------------------

/-- A count beyond the limit stands in the text behind its brace or comma. -/
theorem traced_repeatCount {mark : Char} {digits rest after : Text} {spot : Spot}
    (isMark : mark ∈ ['\x7b', ',']) (areDigits : ∀ d ∈ digits, d.isDigit)
    (within : .char mark :: (digits ++ after) <:+ spot.text) (absent : Option Nat)
    : Traced nothingLeft depth spot (repeatCount digits rest absent) := by
  unfold repeatCount
  split
  next => exact .ok (.atEnd _ _)
  split
  next => exact .invalid
  split
  next large => exact .inl ⟨mark, digits, after, isMark, areDigits, large, within⟩
  next => exact .ok (.atEnd _ _)

/-- Counts in braces are traced, both the least and the most. -/
theorem traced_braces (t : Text)
    : Traced leftIfAny depth ⟨.outside, .char '\x7b' :: t⟩ (braces t) := by
  unfold braces
  split
  next low rest spanned =>
  obtain ⟨rfl, areDigits⟩ := Syntax.of_span_eq spanned
  have isBrace : '\x7b' ∈ ['\x7b', ','] := by simp
  -- No digit tells anything about groups.
  have digits {w : Text} (areDigits : ∀ d ∈ w, d.isDigit) (t : Text)
      : Spot.Inside 0 ⟨.outside, t⟩ ⟨.outside, w ++ t⟩ :=
    .append (fun c mem => notMem_structuralMarks (by decide) (areDigits c mem)) .outside t
  have mark {c : CodePoint} (noMark : c ∉ structuralMarks) (t : Text)
      : Spot.Inside 0 ⟨.outside, t⟩ ⟨.outside, c :: t⟩ :=
    .cons noMark .outside t
  have opening := (digits areDigits rest).trans (mark (c := .char '\x7b') (by decide) _)
  split
  next high after eq =>
  -- The second count stands behind the comma, or it is the first one.
  obtain ⟨isCounted, inside⟩
      : (∃ mark ∈ ['\x7b', ','],
          (∀ d ∈ high, d.isDigit)
          ∧ .char mark :: (high ++ after) <:+ .char '\x7b' :: (low ++ rest))
        ∧ Spot.Inside 0 ⟨.outside, after⟩ ⟨.outside, .char '\x7b' :: (low ++ rest)⟩ := by
    split at eq
    next rest =>
      obtain ⟨rfl, areDigits'⟩ := Syntax.of_span_eq eq
      have behind : .char ',' :: (high ++ after) <:+ low ++ .char ',' :: (high ++ after) :=
        List.suffix_append low _
      exact ⟨⟨',', by simp, areDigits', behind.trans (List.suffix_cons _ _)⟩,
        (digits areDigits' after).trans ((mark (by decide) _).trans opening)⟩
    next =>
      obtain ⟨rfl, rfl⟩ := Prod.mk.inj eq
      exact ⟨⟨'\x7b', isBrace, areDigits, List.suffix_rfl⟩, opening⟩
  obtain ⟨_, isMark, areDigits', within⟩ := isCounted
  split
  next => exact .ok (.atEnd _ _)
  next =>
    refine (traced_repeatCount isBrace areDigits List.suffix_rfl none).bind fun least _ => ?_
    refine (traced_repeatCount isMark areDigits' within none).bind fun most _ => ?_
    split
    next => exact .invalid
    next => exact .ok ((mark (by decide) _).trans inside)
  next => exact .ok (.atEnd _ _)

/-- Quantifiers are traced with the marks behind them. -/
theorem traced_quantifier? (t : Text)
    : Traced leftIfAny depth ⟨.outside, t⟩ (quantifier? t) := by
  unfold quantifier?
  split
  next rest => exact .ok (.cons (by decide) .outside rest)
  next rest => exact .ok (.cons (by decide) .outside rest)
  next rest => exact .ok (.cons (by decide) .outside rest)
  next rest => exact traced_braces rest
  next => exact .ok (.atEnd _ _)

/-- Repeating the last item passes no further text but the mark of its manner. -/
theorem traced_repeatLast (least : Nat) (most : Option Nat) (items : List Item) (t : Text)
    : Traced leftOutside depth ⟨.outside, t⟩ (repeatLast least most items t) := by
  unfold repeatLast
  split
  next =>
    split
    next rest => exact .ok (.cons (by decide) .outside rest)
    next rest => exact .ok (.cons (by decide) .outside rest)
    next => exact .ok (.refl _)
  next => exact .invalid

-----------------------------------------------------------------------------------------
-- Groups
-----------------------------------------------------------------------------------------

/-- A comment is passed as a remark up to its parenthesis, by induction on its text. -/
theorem inside_comment {t rest : Text} (h : afterComment? t = some rest)
    : Spot.Inside 0 ⟨.outside, rest⟩ ⟨.aside, t⟩ := by
  fun_induction afterComment? t with
  | case1 => cases h
  | case2 after =>
      obtain rfl := Option.some.inj h
      exact .aside (List.forall_mem_nil _) after
  | case3 c after ih => exact (ih h).trans (.escape .aside c after)
  | case4 c after notClosing notEscape ih =>
      refine (ih h).trans ⟨List.suffix_cons c after, fun opened => ?_⟩
      have notLone : c = .char '\\' → after ≠ [] := by
        rintro - rfl
        cases h
      rw [deepest]
      · exact Nat.le_refl _
      all_goals simp_all

/-- No structural mark is a part of an identifier. -/
theorem notMem_of_isIdentifier {name : Text} (isName : name.isIdentifier)
    : ∀ c ∈ name, c ∉ structuralMarks := by
  cases name with
  | nil => cases isName
  | cons first others =>
      obtain ⟨starts, continues⟩ := Bool.and_eq_true_iff.mp isName
      refine List.forall_mem_cons.mpr ⟨?_, fun c mem => ?_⟩
      · exact notMem_structuralMarks (by decide) starts
      · exact notMem_structuralMarks (by decide) (List.all_eq_true.mp continues c mem)

/-- The parenthesis that closes a group leaves the group. -/
theorem traced_close {found : Pattern × Text} {outer : Spot}
    (inside : Spot.Inside 1 ⟨.outside, found.2⟩ outer)
    : Traced leftOutside (depth + 1) outer (close found) := by
  obtain ⟨body, after⟩ := found
  unfold close
  split
  next closed =>
    obtain ⟨rfl, rfl⟩ := Prod.mk.inj closed
    exact .ok inside.close
  next => exact .invalid

section Nesting

variable {nested : List (Option Text) → Text → Except Fault (Pattern × Text)}

/-- The reader of branches is traced, whatever groups have opened before. -/
def TracedBranches (nested : List (Option Text) → Text → Except Fault (Pattern × Text))
    (depth : Nat)
    : Prop :=
  ∀ groups t, Traced leftOutside depth ⟨.outside, t⟩ (nested groups t)

variable (tracedNested : TracedBranches nested depth)

include tracedNested

/-- Alternatives leave what the last branch leaves, by induction on their number. -/
theorem traced_alternatives (limit : Nat) (groups : List (Option Text)) (t : Text)
    : Traced leftOutside depth ⟨.outside, t⟩ (alternatives nested limit groups t) := by
  induction limit generalizing groups t with
  | zero => exact .invalid
  | succ limit ih =>
      refine (tracedNested groups t).bind ?_
      rintro ⟨first, rest⟩ inside
      dsimp only [leftOutside] at inside ⊢
      split
      next rest =>
        have bar : Spot.Inside 0 ⟨.outside, rest⟩ ⟨.outside, .char '|' :: rest⟩ :=
          .cons (by decide) .outside rest
        exact ((ih _ rest).of_inside (bar.trans inside)).bind fun _ inside => .ok inside
      next => exact .ok inside

/-- What a group encloses is read one level deeper than the group. -/
theorem traced_enclosed {t : Text} {outer : Spot} (inside : Spot.Inside 1 ⟨.outside, t⟩ outer)
    (groups : List (Option Text))
    : Traced leftOutside (depth + 1) outer (enclosed nested groups t) := by
  have body := traced_alternatives tracedNested (t.length + 1) groups t
  unfold enclosed
  cases read : alternatives nested (t.length + 1) groups t with
  | ok found =>
      rw [read] at body
      exact traced_close (Spot.Inside.trans body inside)
  | error fault =>
      rw [read] at body
      exact Explains.of_inside body inside

/-- A captured group is traced one level deeper. -/
theorem traced_captured {t : Text} {outer : Spot} (inside : Spot.Inside 1 ⟨.outside, t⟩ outer)
    (groups : List (Option Text)) (name : Option Text)
    : Traced leftOutside (depth + 1) outer (captured nested groups name t) :=
  (traced_enclosed tracedNested inside (groups ++ [name])).bind fun _ inside => .ok inside

/-- A conditional is traced with both of its branches. -/
theorem traced_condition {t : Text} {outer : Spot} (inside : Spot.Inside 1 ⟨.outside, t⟩ outer)
    (groups : List (Option Text)) (number : Nat)
    : Traced leftOutside (depth + 1) outer (condition nested groups number t) := by
  have first := tracedNested groups t
  unfold condition
  cases read : nested groups t with
  | error fault =>
      rw [read] at first
      exact Explains.of_inside first inside
  | ok found =>
      obtain ⟨found, rest⟩ := found
      rw [read] at first
      have inside : Spot.Inside 1 ⟨.outside, rest⟩ outer := Spot.Inside.trans first inside
      rw [Outcome.ok_bind]
      dsimp only
      split
      next rest =>
        have bar : Spot.Inside 0 ⟨.outside, rest⟩ ⟨.outside, .char '|' :: rest⟩ :=
          .cons (by decide) .outside rest
        have inside := bar.trans inside
        have second := tracedNested (groups ++ found.groups) rest
        cases read : nested (groups ++ found.groups) rest with
        | error fault =>
            rw [read] at second
            exact Explains.of_inside second inside
        | ok found =>
            rw [read] at second
            exact traced_close (Spot.Inside.trans second inside)
      next => exact traced_close inside

/-- Whatever follows a parenthesis is traced, by cases on what kind of group it opens. -/
theorem traced_parenthesized {t : Text} (noComment : ∀ rest, t ≠ .char '?' :: .char '#' :: rest)
    (groups : List (Option Text))
    : Traced leftOutside (depth + 1) ⟨.outside, .char '(' :: t⟩
        (parenthesized nested groups t) := by
  have inside (noCondition : ∀ rest, t ≠ .char '?' :: .char '(' :: rest) {w rest : Text}
      (split : t = w ++ rest) (noMarks : ∀ c ∈ w, c ∉ structuralMarks)
      : Spot.Inside 1 ⟨.outside, rest⟩ ⟨.outside, .char '(' :: t⟩ := by
    have behind : Spot.Inside 0 ⟨.outside, rest⟩ ⟨.outside, w ++ rest⟩ :=
      .append noMarks .outside rest
    rw [← split] at behind
    exact behind.trans (.group noComment noCondition)
  unfold parenthesized
  split
  next rest =>
    exact traced_enclosed tracedNested (inside nofun (w := "?:") rfl (by decide)) groups
  next rest =>
    have body := inside nofun (w := "?>") rfl (by decide)
    exact (traced_enclosed tracedNested body groups).bind fun _ inside => .ok inside
  next rest =>
    split
    next name rest found =>
      split
      next isName =>
        obtain ⟨rfl, -⟩ := of_upTo?_eq_some found
        have noMarks : ∀ c ∈ ("?P<" : Text) ++ (name ++ [.char '>']), c ∉ structuralMarks := by
          simp only [List.forall_mem_append]
          exact ⟨by decide, notMem_of_isIdentifier isName.1, by decide⟩
        have split : (.char '?' :: .char 'P' :: .char '<' :: (name ++ .char '>' :: rest) : Text)
            = ("?P<" : Text) ++ (name ++ [.char '>']) ++ rest := by
          rw [List.append_assoc, List.append_assoc]
          rfl
        exact traced_captured tracedNested (inside nofun split noMarks) groups _
      next => exact .invalid
    next => exact .invalid
  next rest =>
    split
    next name rest found =>
      split
      next number _ =>
        obtain ⟨rfl, noMarks⟩ := of_upTo?_eq_some found
        exact traced_condition tracedNested
          ((Spot.Inside.aside noMarks rest).trans (.condition _)) groups number
      next => exact .invalid
    next => exact .invalid
  next => exact .invalid
  next noQuestion =>
    exact traced_captured tracedNested
      (inside (fun _ => noQuestion _) (w := []) rfl (List.forall_mem_nil _)) groups none

/-- Only a group can be nested too deep, and it accounts for one more level. By induction on
the number of parts.
-/
theorem traced_sequenceItems (limit : Nat) (groups : List (Option Text)) (items : List Item)
    (t : Text)
    : Traced leftOutside (depth + 1) ⟨.outside, t⟩
        (sequenceItems host nested limit groups items t) := by
  induction limit generalizing groups items t with
  | zero => exact .ok (.refl _)
  | succ limit ih =>
      unfold sequenceItems
      split
      next => exact .ok (.refl _)
      next => exact .ok (.refl _)
      next => exact .ok (.refl _)
      next rest =>
        split
        next after found =>
          have inside := (inside_comment found).trans (.comment rest)
          exact (ih groups items after).of_inside inside
        next => exact .invalid
      next rest noComment =>
        exact (traced_parenthesized tracedNested noComment groups).bind fun (_, after) inside =>
          (ih _ _ after).of_inside inside
      next rest =>
        exact (traced_charClass _ rest).bind fun (_, after) inside =>
          (ih _ _ after).of_inside inside
      next rest =>
        exact (traced_escape rest).bind fun (_, after) inside => (ih _ _ after).of_inside inside
      next rest => exact (ih _ _ rest).of_inside (.plain (by decide) rest)
      next rest => exact (ih _ _ rest).of_inside (.plain (by decide) rest)
      next rest => exact (ih _ _ rest).of_inside (.plain (by decide) rest)
      next c rest _ _ _ _ _ _ _ _ _ =>
        refine (traced_quantifier? (c :: rest)).bind ?_
        rintro (_ | ⟨least, most, after⟩) inside
        · exact (ih _ _ rest).of_inside (.plain (by simp_all) rest)
        · refine ((traced_repeatLast least most items after).of_inside inside).bind ?_
          rintro ⟨items, after⟩ inside
          exact (ih groups items after).of_inside inside

end Nesting

/-- By induction on the depth: every level of nesting takes a group. -/
theorem traced_branch (host : Host) (depth : Nat) : TracedBranches (branch host depth) depth := by
  induction depth with
  | zero => exact fun _ _ _ => opened_le_deepest _ _ _
  | succ depth ih =>
      exact fun groups t =>
        (traced_sequenceItems ih t.length groups [] t).bind fun _ inside => .ok inside

/-- Parsing a pattern is traced at the depth of the host, with one level for the pattern
itself.
-/
theorem traced_parse (host : Host) (t : Text)
    : Traced nothingLeft (host.depth + 1) ⟨.outside, t⟩ (parse host t) := by
  refine (traced_alternatives (traced_branch host _) (t.length + 1) [] t).bind ?_
  rintro ⟨found, rest⟩ _
  split
  next =>
    split
    next => exact .ok (.atEnd _ _)
    next => exact .invalid
  next => exact .invalid

end JsonPath.Pattern
