import JsonPath.Proofs.Pattern.Repetition
import Mathlib.Computability.Language
import Mathlib.Tactic.Tauto

/-! The words of patterns. A pattern that neither looks around nor gives up ways to match
reaches from a point exactly those points at which a word that it passes ends, whatever the
order of preference is. Which words these are depends on the groups that have matched before,
unless the pattern has no conditions on groups: then the words make up a language.
-/

namespace JsonPath

-----------------------------------------------------------------------------------------
-- Parts of a text
-----------------------------------------------------------------------------------------

namespace Text

variable {t : Text} {place middle stop : Nat}

/-- Adjacent parts make up the part from the start of the first to the end of the second. -/
theorem extract_append (order : place ≤ middle) (order' : middle ≤ stop)
    : t.extract place middle ++ t.extract middle stop = t.extract place stop := by
  have whole : stop - place = (middle - place) + (stop - middle) := by omega
  rw [List.extract_eq_take_drop, List.extract_eq_take_drop, List.extract_eq_take_drop, whole,
    List.take_add, List.drop_drop, Nat.add_sub_cancel' order]

theorem extract_self (t : Text) (place : Nat) : t.extract place place = [] := by
  rw [List.extract_eq_take_drop, Nat.sub_self, List.take_zero]

/-- From its start to its end, a text is extracted as a whole. -/
theorem extract_whole (t : Text) : t.extract 0 t.length = t := by
  rw [List.extract_eq_take_drop, List.drop_zero, Nat.sub_zero, List.take_length]

/-- What is extracted between two places is as long as they are apart. -/
theorem length_extract (place : Nat) (within : stop ≤ t.length)
    : (t.extract place stop).length = stop - place := by
  rw [List.extract_eq_take_drop, List.length_take, List.length_drop]
  omega

/-- A part is empty exactly if it ends where it starts. -/
theorem extract_eq_nil_iff (order : place ≤ stop) (within : stop ≤ t.length)
    : t.extract place stop = [] ↔ stop = place := by
  rw [← List.length_eq_zero_iff, length_extract place within]
  omega

/-- Between neighbouring places there is one code point. -/
theorem extract_succ {c : CodePoint} (found : t[place]? = some c)
    : t.extract place (place + 1) = [c] := by
  obtain ⟨within, rfl⟩ := List.getElem?_eq_some_iff.mp found
  rw [List.extract_eq_take_drop, Nat.add_sub_cancel_left, List.drop_eq_getElem_cons within]
  rfl

end Text

-----------------------------------------------------------------------------------------
-- Passages
-----------------------------------------------------------------------------------------

/-- The words that can be passed, each with the groups that have matched before and after. -/
abbrev Passage := Captured → Text → Captured → Prop

namespace Passage

/-- Passes nothing. -/
def nothing : Passage :=
  fun before w after => w = [] ∧ before = after

/-- Passes a word of the first passage and then one of the second. -/
def followedBy (P Q : Passage) : Passage :=
  fun before w after => ∃ u middle v, P before u middle ∧ Q middle v after ∧ w = u ++ v

/-- Passes words of the passage, a number of times. -/
def times (P : Passage) : Nat → Passage
  | 0 => nothing
  | count + 1 => P.followedBy (P.times count)

/-- Passes words of the passage, up to a number of times. Only the last one can be empty. -/
inductive UpTo (P : Passage) : Option Nat → Passage
  | done {most before} : UpTo P most before [] before
  | last {most before after} (more : most ≠ some 0) (empty : P before [] after)
    : UpTo P most before [] after
  | more {most before u middle v after} (more : most ≠ some 0) (first : P before u middle)
    (notEmpty : u ≠ []) (others : UpTo P (most.map (· - 1)) middle v after)
    : UpTo P most before (u ++ v) after

end Passage

/-- The part of the text between two points is passed on the way from one to the other. -/
def Spans (t : Text) (P : Passage) (start stop : Point) : Prop :=
  start.place ≤ stop.place ∧ stop.place ≤ t.length
  ∧ P start.captured (t.extract start.place stop.place) stop.captured

namespace Spans

variable {t : Text} {P Q : Passage} {start stop : Point}

/-- Only a point itself is reached by passing nothing. -/
theorem nothing_iff (within : start.place ≤ t.length)
    : Spans t .nothing start stop ↔ start = stop := by
  constructor
  · rintro ⟨order, within, empty, same⟩
    have samePlace := (Text.extract_eq_nil_iff order within).mp empty
    cases start
    cases stop
    simp_all
  · rintro rfl
    exact ⟨Nat.le_refl _, within, Text.extract_self t _, rfl⟩

/-- Two passages after one another span what they span on both sides of a point. -/
theorem followedBy_iff
    : Spans t (P.followedBy Q) start stop
      ↔ ∃ middle, Spans t P start middle ∧ Spans t Q middle stop := by
  constructor
  · rintro ⟨order, within, u, captured, v, first, second, split⟩
    have total := congrArg List.length split
    rw [List.length_append, Text.length_extract _ within] at total
    have order₁ : start.place ≤ start.place + u.length := Nat.le_add_right _ _
    have order₂ : start.place + u.length ≤ stop.place := by omega
    rw [← Text.extract_append order₁ order₂] at split
    have sameLength : (t.extract start.place (start.place + u.length)).length = u.length := by
      rw [Text.length_extract _ (by omega), Nat.add_sub_cancel_left]
    obtain ⟨front, back⟩ := List.append_inj split sameLength
    rw [← front] at first
    rw [← back] at second
    exact ⟨⟨start.place + u.length, captured⟩, ⟨order₁, by dsimp only; omega, first⟩, order₂,
      within, second⟩
  · rintro ⟨middle, ⟨order, _, first⟩, order', within, second⟩
    exact ⟨order.trans order', within, _, _, _, first, second,
      (Text.extract_append order order').symm⟩

end Spans

namespace Pattern

-----------------------------------------------------------------------------------------
-- Words of patterns
-----------------------------------------------------------------------------------------

/-- A pattern without conditions on places and without matches that are given up. -/
def isRegular : Pattern → Bool
  | empty | char _ => true
  | anchor _ | atomic _ => false
  | sequence first second | alternative first second => first.isRegular && second.isRegular
  | conditional _ first second => first.isRegular && second.isRegular
  | group _ _ body | repeated _ _ _ body => body.isRegular

/-- The words that a pattern without conditions on places passes. Its preferences do not
matter.
-/
def passes : Pattern → Passage
  | empty => .nothing
  | char charClass =>
    fun before w after => ∃ c, charClass.contains c ∧ w = [c] ∧ after = before.moved
  | anchor _ | atomic _ => fun _ _ _ => False
  | sequence first second => first.passes.followedBy second.passes
  | alternative first second =>
    fun before w after => first.passes before w after ∨ second.passes before w after
  | group number _ body =>
    fun before w after =>
      ∃ matched, body.passes (before.opened number) w matched ∧ after = matched.closed number
  | conditional number first second =>
    fun before w after =>
      if before.has number then first.passes before w after else second.passes before w after
  | repeated _ least most body =>
    (body.passes.times least).followedBy (.UpTo body.passes (most.map (· - least)))

/-- The points that are reached are those where a word ends that is passed. -/
def Reaches (t : Text) (ends : Point → List Point) (P : Passage) : Prop :=
  ∀ start : Point, start.place ≤ t.length → ∀ stop, stop ∈ ends start ↔ Spans t P start stop

section Reaching

variable {t : Text} {P : Passage} {ends : Point → List Point} {start stop : Point}

/-- A matcher only reaches places behind its start and within the text. -/
theorem Reaches.advances (reaches : Reaches t ends P) : Advances t.length ends := by
  intro start within stop found
  obtain ⟨order, within, _⟩ := (reaches start within stop).mp found
  exact ⟨order, within⟩

/-- Walks pass as many words as they have steps, by induction on the steps. -/
theorem Reaches.walk_iff (reaches : Reaches t ends P) (within : start.place ≤ t.length)
    (count : Nat)
    : Walk ends count start stop ↔ Spans t (P.times count) start stop := by
  induction count generalizing start with
  | zero => rw [Walk, Passage.times, Spans.nothing_iff within]
  | succ count ih =>
      rw [Walk, Passage.times, Spans.followedBy_iff]
      constructor
      · rintro ⟨after, step, walk⟩
        have spans := (reaches start within after).mp step
        exact ⟨after, spans, (ih spans.2.1).mp walk⟩
      · rintro ⟨after, spans, walk⟩
        exact ⟨after, (reaches start within after).mpr spans, (ih spans.2.1).mpr walk⟩

/-- What a stroll passes, by induction on its steps. -/
theorem Reaches.spans_of_stroll (reaches : Reaches t ends P) {most : Option Nat}
    (within : start.place ≤ t.length) (stroll : Stroll ends most start stop)
    : Spans t (.UpTo P most) start stop := by
  induction stroll with
  | done => exact ⟨Nat.le_refl _, within, Text.extract_self t _ ▸ .done⟩
  | last more step stays =>
      obtain ⟨order, within, passed⟩ := (reaches _ within _).mp step
      have empty := (Text.extract_eq_nil_iff order within).mpr stays
      rw [empty] at passed
      exact ⟨order, within, empty ▸ .last more passed⟩
  | more more step moves _ ih =>
      obtain ⟨order, within, passed⟩ := (reaches _ within _).mp step
      obtain ⟨order', within', others⟩ := ih within
      have notEmpty := mt (Text.extract_eq_nil_iff order within).mp moves
      exact ⟨order.trans order', within',
        Text.extract_append order order' ▸ .more more passed notEmpty others⟩

/-- Words that are passed are passed by a stroll, by induction on their number. -/
theorem Reaches.stroll_of_upTo (reaches : Reaches t ends P) {most : Option Nat}
    {before after : Captured} {w : Text} (upTo : Passage.UpTo P most before w after)
    (place : Nat) (within : place + w.length ≤ t.length)
    (part : t.extract place (place + w.length) = w)
    : Stroll ends most ⟨place, before⟩ ⟨place + w.length, after⟩ := by
  induction upTo generalizing place with
  | done => exact .done
  | last more empty =>
      refine .last more ((reaches _ within _).mpr ⟨Nat.le_refl _, within, ?_⟩) rfl
      exact (Text.extract_self t place).symm ▸ empty
  | @more _ _ u middle v _ more first notEmpty _ ih =>
      rw [List.length_append] at within part ⊢
      have order : place ≤ place + u.length := Nat.le_add_right _ _
      have order' : place + u.length ≤ place + (u.length + v.length) := by omega
      have inside : place + u.length ≤ t.length := by omega
      rw [← Text.extract_append order order'] at part
      have sameLength : (t.extract place (place + u.length)).length = u.length := by
        rw [Text.length_extract place inside, Nat.add_sub_cancel_left]
      obtain ⟨front, back⟩ := List.append_inj part sameLength
      rw [← Nat.add_assoc] at within back ⊢
      have step := (reaches ⟨place, _⟩ (order.trans inside) ⟨place + u.length, middle⟩).mpr
        ⟨order, inside, front.symm ▸ first⟩
      have moves : place + u.length ≠ place := by
        have := List.length_pos_iff.mpr notEmpty
        omega
      exact .more more step moves (ih _ within back)

/-- Strolls pass up to their number of words. -/
theorem Reaches.stroll_iff (reaches : Reaches t ends P) {most : Option Nat}
    (within : start.place ≤ t.length)
    : Stroll ends most start stop ↔ Spans t (.UpTo P most) start stop := by
  refine ⟨reaches.spans_of_stroll within, fun ⟨order, inside, upTo⟩ => ?_⟩
  obtain ⟨start, before⟩ := start
  obtain ⟨stop, after⟩ := stop
  have length : (t.extract start stop).length = stop - start := Text.length_extract start inside
  have whole : start + (t.extract start stop).length = stop := by
    rw [length]
    exact Nat.add_sub_cancel' order
  have stroll := reaches.stroll_of_upTo upTo start
  rw [whole] at stroll
  exact stroll inside rfl

/-- A class reaches the point behind a character that it contains. -/
theorem reaches_char (charClass : CharClass)
    : Reaches t (Pattern.ends t.toArray (char charClass)) (char charClass).passes := by
  rintro ⟨place, before⟩ within stop
  rw [Pattern.ends, List.getElem?_toArray]
  constructor
  · intro found
    split at found
    next holds =>
      obtain rfl := List.mem_singleton.mp found
      obtain ⟨c, there, contained⟩ := (Option.any_eq_true _ _).mp holds
      obtain ⟨within, _⟩ := List.getElem?_eq_some_iff.mp there
      exact ⟨Nat.le_succ place, within, c, contained, Text.extract_succ there, rfl⟩
    next => cases found
  · rintro ⟨order, within, c, contained, part, captured⟩
    obtain ⟨stop, after⟩ := stop
    dsimp only at order within part captured
    have length := Text.length_extract place within
    rw [part, List.length_singleton] at length
    obtain rfl : stop = place + 1 := by omega
    have there : t[place]? = some t[place] := List.getElem?_eq_getElem within
    obtain rfl : t[place] = c := by simpa [Text.extract_succ there] using part
    rw [there, Option.any_some, contained, captured]
    exact List.mem_singleton_self _

/-- A regular pattern reaches what it passes, by induction on the pattern. -/
theorem reaches_of_isRegular {pattern : Pattern} (regular : pattern.isRegular)
    : Reaches t (Pattern.ends t.toArray pattern) pattern.passes := by
  induction pattern with
  | empty =>
      intro start within stop
      rw [Pattern.ends, List.mem_singleton, passes, Spans.nothing_iff within, eq_comm]
  | char charClass => exact reaches_char charClass
  | anchor _ => cases regular
  | atomic _ _ => cases regular
  | sequence first second ih ih' =>
      obtain ⟨regular, regular'⟩ := Bool.and_eq_true_iff.mp regular
      intro start within stop
      rw [Pattern.ends, List.mem_eraseDups, List.mem_flatMap, passes, Spans.followedBy_iff]
      refine exists_congr fun middle => ?_
      rw [ih regular start within middle]
      exact and_congr_right fun spans => ih' regular' middle spans.2.1 stop
  | alternative first second ih ih' =>
      obtain ⟨regular, regular'⟩ := Bool.and_eq_true_iff.mp regular
      intro start within stop
      rw [Pattern.ends, List.mem_eraseDups, List.mem_append, ih regular start within,
        ih' regular' start within]
      simp only [Spans, passes]
      tauto
  | group number name body ih =>
      rintro ⟨place, before⟩ within ⟨stop, after⟩
      rw [Pattern.ends, List.mem_eraseDups, List.mem_map]
      simp only [ih regular ⟨place, before.opened number⟩ within, Spans, passes, Point.mk.injEq]
      constructor
      · rintro ⟨⟨_, matched⟩, ⟨order, within, body⟩, rfl, rfl⟩
        exact ⟨order, within, matched, body, rfl⟩
      · rintro ⟨order, within, matched, body, rfl⟩
        exact ⟨⟨stop, matched⟩, ⟨order, within, body⟩, rfl, rfl⟩
  | conditional number first second ih ih' =>
      obtain ⟨regular, regular'⟩ := Bool.and_eq_true_iff.mp regular
      intro start within stop
      by_cases has : start.captured.has number
      · simpa [Pattern.ends, Spans, passes, has] using ih regular start within stop
      · simpa [Pattern.ends, Spans, passes, has] using ih' regular' start within stop
  | repeated greedy least most body ih =>
      intro start within stop
      have reaches := ih regular
      have size_eq : t.toArray.size = t.length := rfl
      rw [Pattern.ends, size_eq, mem_repeatEnds reaches.advances within, passes,
        Spans.followedBy_iff]
      refine exists_congr fun middle => ?_
      rw [reaches.walk_iff within]
      exact and_congr_right fun spans => reaches.stroll_iff spans.2.1

end Reaching

/-- A regular pattern matches the texts that it passes as a whole. -/
theorem isMatch_iff_passes {pattern : Pattern} (regular : pattern.isRegular) (t : Text)
    : pattern.isMatch t ↔ ∃ after, pattern.passes [] t after := by
  have reaches := reaches_of_isRegular (t := t) regular ⟨0, []⟩ (Nat.zero_le _)
  simp only [isMatch, List.any_eq_true, reaches, decide_eq_true_eq]
  constructor
  · rintro ⟨⟨_, after⟩, ⟨_, _, passed⟩, rfl⟩
    exact ⟨after, Text.extract_whole t ▸ passed⟩
  · rintro ⟨after, passed⟩
    exact ⟨⟨t.length, after⟩,
      ⟨Nat.zero_le _, Nat.le_refl _, (Text.extract_whole t).symm ▸ passed⟩, rfl⟩

/-- A pattern that does not depend on the groups that have matched. -/
def isUnconditional : Pattern → Bool
  | empty | char _ | anchor _ => true
  | sequence first second | alternative first second =>
    first.isUnconditional && second.isUnconditional
  | conditional _ _ _ => false
  | group _ _ body | repeated _ _ _ body | atomic body => body.isUnconditional

/-- The words that a pattern without conditions stands for. -/
def language : Pattern → Language CodePoint
  | empty => 1
  | char charClass => {w | ∃ c, charClass.contains c ∧ w = [c]}
  | anchor _ | atomic _ | conditional _ _ _ => 0
  | sequence first second => first.language * second.language
  | alternative first second => first.language + second.language
  | group _ _ body => body.language
  | repeated _ least most body =>
    {w | ∃ more, (∀ bound ∈ most.map (· - least), more ≤ bound)
      ∧ w ∈ body.language ^ (least + more)}

/-- The words of all powers up to one. -/
def powersUpTo (L : Language CodePoint) (most : Option Nat) : Language CodePoint :=
  {w | ∃ count, (∀ bound ∈ most, count ≤ bound) ∧ w ∈ L ^ count}

/-- The words that are passed are those of the language, whatever has matched before. -/
def Accepts (P : Passage) (L : Language CodePoint) : Prop :=
  ∀ before w, (∃ after, P before w after) ↔ w ∈ L

namespace Accepts

variable {P Q : Passage} {L M : Language CodePoint}

/-- Matching one after the other accepts the product of the languages. -/
theorem followedBy (first : Accepts P L) (second : Accepts Q M)
    : Accepts (P.followedBy Q) (L * M) := by
  intro before w
  rw [Language.mem_mul]
  constructor
  · rintro ⟨after, u, middle, v, passed, passed', rfl⟩
    exact ⟨u, (first before u).mp ⟨middle, passed⟩, v, (second middle v).mp ⟨after, passed'⟩,
      rfl⟩
  · rintro ⟨u, mem, v, mem', rfl⟩
    obtain ⟨middle, passed⟩ := (first before u).mpr mem
    obtain ⟨after, passed'⟩ := (second middle v).mpr mem'
    exact ⟨after, u, middle, v, passed, passed', rfl⟩

/-- Repetitions pass the powers of a language, by induction on their number. -/
theorem times (accepts : Accepts P L) (count : Nat) : Accepts (P.times count) (L ^ count) := by
  induction count with
  | zero =>
      intro before w
      rw [pow_zero, Language.mem_one]
      exact ⟨fun ⟨_, isEmpty, _⟩ => isEmpty, fun isEmpty => ⟨before, isEmpty, rfl⟩⟩
  | succ count ih =>
      rw [pow_succ']
      exact accepts.followedBy ih

/-- What is passed up to a number of times is in a power up to this number, by induction on
the repetitions.
-/
theorem exists_pow_of_upTo (accepts : Accepts P L) {most : Option Nat} {w : Text}
    {before after : Captured} (upTo : Passage.UpTo P most before w after)
    : ∃ count, (∀ bound ∈ most, count ≤ bound) ∧ w ∈ L ^ count := by
  induction upTo with
  | done => exact ⟨0, fun _ _ => Nat.zero_le _, rfl⟩
  | last _ _ => exact ⟨0, fun _ _ => Nat.zero_le _, rfl⟩
  | @more most before u middle v after more first _ _ ih =>
      obtain ⟨count, allowed, mem⟩ := ih
      refine ⟨count + 1, fun bound isBound => ?_, ?_⟩
      · obtain rfl := Option.mem_def.mp isBound
        have := allowed (bound - 1) rfl
        have : bound ≠ 0 := fun none => more (congrArg some none)
        omega
      · rw [pow_succ']
        exact Language.mem_mul.mpr ⟨u, (accepts before u).mp ⟨middle, first⟩, v, mem, rfl⟩

/-- Words of a power are passed one after another, without the empty ones. -/
theorem exists_upTo_of_mem_pow (accepts : Accepts P L) {count : Nat} {most : Option Nat}
    {w : Text} (before : Captured) (allowed : ∀ bound ∈ most, count ≤ bound)
    (mem : w ∈ L ^ count)
    : ∃ after, Passage.UpTo P most before w after := by
  induction count generalizing most w before with
  | zero =>
      obtain rfl := Language.mem_one _ |>.mp (pow_zero L ▸ mem)
      exact ⟨before, .done⟩
  | succ count ih =>
      rw [pow_succ'] at mem
      obtain ⟨u, first, v, others, rfl⟩ := Language.mem_mul.mp mem
      by_cases empty : u = []
      · subst empty
        exact ih before (fun bound isBound => Nat.le_of_succ_le (allowed bound isBound)) others
      · have more : most ≠ some 0 := by
          rintro rfl
          exact absurd (allowed 0 rfl) (Nat.not_succ_le_zero count)
        have fewer : ∀ bound ∈ most.map (· - 1), count ≤ bound := by
          intro less isLess
          obtain ⟨bound, isBound, rfl⟩ := Option.map_eq_some_iff.mp isLess
          exact Nat.le_sub_one_of_lt (allowed bound isBound)
        obtain ⟨middle, passed⟩ := (accepts before u).mpr first
        obtain ⟨after, upTo⟩ := ih middle fewer others
        exact ⟨after, .more more passed empty upTo⟩

/-- Repeated matching accepts the powers of the language up to the bound. -/
theorem upTo (accepts : Accepts P L) (most : Option Nat)
    : Accepts (.UpTo P most) (powersUpTo L most) :=
  fun before _ => ⟨fun ⟨_, upTo⟩ => accepts.exists_pow_of_upTo upTo,
    fun ⟨_, allowed, mem⟩ => accepts.exists_upTo_of_mem_pow before allowed mem⟩

end Accepts

/-- A regular pattern without conditions passes the words of its language, by induction on the
pattern.
-/
theorem accepts_language {pattern : Pattern} (regular : pattern.isRegular)
    (unconditional : pattern.isUnconditional)
    : Accepts pattern.passes pattern.language := by
  induction pattern with
  | empty => exact Accepts.times (P := fun _ _ _ => False) (L := 0) (fun _ _ => by simp) 0
  | char charClass =>
      intro before w
      exact ⟨fun ⟨_, c, contained, single, _⟩ => ⟨c, contained, single⟩,
        fun ⟨c, contained, single⟩ => ⟨_, c, contained, single, rfl⟩⟩
  | anchor _ => cases regular
  | atomic _ _ => cases regular
  | sequence first second ih ih' =>
      obtain ⟨regular, regular'⟩ := Bool.and_eq_true_iff.mp regular
      obtain ⟨unconditional, unconditional'⟩ := Bool.and_eq_true_iff.mp unconditional
      exact (ih regular unconditional).followedBy (ih' regular' unconditional')
  | alternative first second ih ih' =>
      obtain ⟨regular, regular'⟩ := Bool.and_eq_true_iff.mp regular
      obtain ⟨unconditional, unconditional'⟩ := Bool.and_eq_true_iff.mp unconditional
      intro before w
      rw [language, Language.mem_add, ← ih regular unconditional before w,
        ← ih' regular' unconditional' before w, ← exists_or]
      rfl
  | group number name body ih =>
      intro before w
      rw [language, ← ih regular unconditional (before.opened number) w]
      exact ⟨fun ⟨_, matched, passed, _⟩ => ⟨matched, passed⟩,
        fun ⟨matched, passed⟩ => ⟨_, matched, passed, rfl⟩⟩
  | conditional _ _ _ _ _ => cases unconditional
  | repeated greedy least most body ih =>
      have accepts := ih regular unconditional
      intro before w
      refine ((accepts.times least).followedBy (accepts.upTo _) before w).trans ?_
      rw [Language.mem_mul]
      constructor
      · rintro ⟨u, mem, v, ⟨more, allowed, mem'⟩, rfl⟩
        exact ⟨more, allowed, pow_add body.language least more ▸
          Language.mem_mul.mpr ⟨u, mem, v, mem', rfl⟩⟩
      · rintro ⟨more, allowed, mem⟩
        rw [pow_add] at mem
        obtain ⟨u, front, v, back, split⟩ := Language.mem_mul.mp mem
        exact ⟨u, front, v, ⟨more, allowed, back⟩, split⟩

/-- Matching decides the language of a regular pattern without conditions. -/
theorem isMatch_iff {pattern : Pattern} (regular : pattern.isRegular)
    (unconditional : pattern.isUnconditional) (t : Text)
    : pattern.isMatch t ↔ t ∈ pattern.language := by
  rw [isMatch_iff_passes regular, accepts_language regular unconditional]

end Pattern

end JsonPath
