import JsonPath.Proofs.Pattern.Classes

/-! The expansion of categories is exact, whatever categories the code points have. The runs
part the code points into maximal runs, and the ranges of a name, as they are written into a
class, hold just the code points of that name, with a gap between any two of them.
-/

namespace JsonPath.Category

open Pattern (Closes rangeText)

/-- The two letters of a category. -/
def letters (category : Category) : List Char :=
  [category.major, category.minor]

/-- A category has a name of one or two letters when it starts with that name. -/
theorem isNamed_eq_isPrefixOf (category : Category) {name : List Char}
    (size : name.length = 1 ∨ name.length = 2)
    : category.isNamed name = name.isPrefixOf category.letters := by
  match name, size with
  | [major], _ => simp [isNamed, letters, List.isPrefixOf, beq_eq_decide]
  | [major, minor], _ => simp [isNamed, letters, List.isPrefixOf, beq_eq_decide]

-----------------------------------------------------------------------------------------
-- Maximal runs
-----------------------------------------------------------------------------------------

/-- The code points of the run share its category, and no code point next to it does. -/
structure Run.IsMaximal (category : Nat → Category) (run : Run) : Prop where
  order : run.first ≤ run.last
  within : run.last < CodePoint.limit
  uniform : ∀ n, run.first ≤ n → n ≤ run.last → category n = run.category
  opens : run.first = 0 ∨ category (run.first - 1) ≠ run.category
  closes : run.last + 1 = CodePoint.limit ∨ category (run.last + 1) ≠ run.category

/-- Every code point is in one of the runs, which are maximal and in increasing order. -/
structure IsPartition (category : Nat → Category) (runs : List Run) : Prop where
  covers : ∀ n < CodePoint.limit, ∃ run ∈ runs, run.first ≤ n ∧ n ≤ run.last
  increasing : runs.Pairwise fun run later => run.last < later.first
  maximal : ∀ run ∈ runs, run.IsMaximal category

section Runs

variable {category : Nat → Category} {first next count : Nat} {current : Category}

/-- No run starts before the current one. -/
theorem first_le_of_mem_runsFrom (started : first < next) {run : Run}
    (mem : run ∈ runsFrom category first current next count)
    : first ≤ run.first := by
  induction count generalizing first next current with
  | zero =>
      obtain rfl := List.mem_singleton.mp mem
      exact Nat.le_refl first
  | succ count ih =>
      rw [runsFrom] at mem
      split at mem
      next => exact ih (Nat.lt_succ_of_lt started) mem
      next =>
        obtain rfl | mem := List.mem_cons.mp mem
        · exact Nat.le_refl first
        · exact Nat.le_trans (Nat.le_of_lt started) (ih (Nat.lt_succ_self next) mem)

/-- Each run ends before the next ones start, by recursion on the code points. -/
theorem pairwise_runsFrom (started : first < next)
    : (runsFrom category first current next count).Pairwise fun run later =>
        run.last < later.first := by
  induction count generalizing first next current with
  | zero => exact List.pairwise_singleton _ _
  | succ count ih =>
      rw [runsFrom]
      split
      next => exact ih (Nat.lt_succ_of_lt started)
      next =>
        refine List.pairwise_cons.mpr ⟨fun later mem => ?_, ih (Nat.lt_succ_self next)⟩
        have behind : next ≤ later.first :=
          first_le_of_mem_runsFrom (Nat.lt_succ_self next) mem
        dsimp only
        omega

/-- A run is only ended by a change of the category or by the last code point, and the next
one opens at that change.
-/
theorem ends_of_mem_runsFrom (started : first < next)
    (same : ∀ n, first ≤ n → n < next → category n = current)
    (opens : first = 0 ∨ category (first - 1) ≠ current) {run : Run}
    (mem : run ∈ runsFrom category first current next count)
    : (run.first = 0 ∨ category (run.first - 1) ≠ run.category)
      ∧ (run.last + 1 = next + count ∨ category (run.last + 1) ≠ run.category) := by
  induction count generalizing first next current with
  | zero =>
      obtain rfl := List.mem_singleton.mp mem
      exact ⟨opens, .inl (Nat.sub_add_cancel (Nat.zero_lt_of_lt started))⟩
  | succ count ih =>
      have total : next + (count + 1) = next + 1 + count := by omega
      rw [total]
      rw [runsFrom] at mem
      split at mem
      next continues =>
        have sameNext (n : Nat) (low : first ≤ n) (high : n < next + 1)
            : category n = current := by
          obtain rfl | high := Nat.eq_or_lt_of_le (Nat.le_of_lt_succ high)
          · exact continues
          · exact same n low high
        exact ih (Nat.lt_succ_of_lt started) sameNext opens mem
      next changes =>
        have last : next - 1 + 1 = next := Nat.sub_add_cancel (Nat.zero_lt_of_lt started)
        obtain rfl | mem := List.mem_cons.mp mem
        · exact ⟨opens, .inr (by rwa [last])⟩
        · have sameNext (n : Nat) (low : next ≤ n) (high : n < next + 1)
              : category n = category next := by
            rw [Nat.le_antisymm (Nat.le_of_lt_succ high) low]
          have opensNext : category (next - 1) ≠ category next := by
            rw [same (next - 1) (by omega) (by omega)]
            exact fun eq => changes eq.symm
          exact ih (Nat.lt_succ_self next) sameNext (.inr opensNext) mem

/-- The runs of a table cannot be extended. -/
theorem isMaximal_of_mem_runsOf {run : Run} (mem : run ∈ runsOf category)
    : run.IsMaximal category := by
  obtain ⟨order, within⟩ := runsOf_proper mem
  have whole : 1 + (CodePoint.limit - 1) = CodePoint.limit := rfl
  have start (n : Nat) (_ : 0 ≤ n) (high : n < 1) : category n = category 0 := by
    rw [Nat.lt_one_iff.mp high]
  obtain ⟨opens, closes⟩ := ends_of_mem_runsFrom Nat.one_pos start (.inl rfl) mem
  rw [whole] at closes
  exact {
    order, within, opens, closes
    uniform := fun n low high => ((mem_runsOf_iff category).mp ⟨run, mem, low, high, rfl⟩).2
  }

/-- The runs of a table are a partition of the code points into maximal ones. -/
theorem isPartition_runsOf (category : Nat → Category)
    : IsPartition category (runsOf category) where
  covers n within := by
    obtain ⟨run, mem, low, high, _⟩ := (mem_runsOf_iff category).mpr ⟨within, rfl⟩
    exact ⟨run, mem, low, high⟩
  increasing := pairwise_runsFrom Nat.one_pos
  maximal _ := isMaximal_of_mem_runsOf

end Runs

-----------------------------------------------------------------------------------------
-- Ranges apart from each other
-----------------------------------------------------------------------------------------

/-- The ranges increase, and between any two of them there is a number in neither. -/
def AreApart (ranges : List (Nat × Nat)) : Prop :=
  ranges.Pairwise fun range later => range.2 + 1 < later.1

section Ranges

variable {first last bound : Nat} {others : List (Nat × Nat)} {runs : List Run}
  {name : List Char} {negated : Bool}

/-- Joining does not move the start of any range. -/
theorem of_mem_joinRange {range : Nat × Nat} (mem : range ∈ joinRange first last others)
    : range.1 = first ∨ range ∈ others := by
  cases others with
  | nil =>
      obtain rfl := List.mem_singleton.mp mem
      exact .inl rfl
  | cons other others =>
      rw [joinRange] at mem
      split at mem
      next =>
        obtain rfl | mem := List.mem_cons.mp mem
        · exact .inl rfl
        · exact .inr (List.mem_cons_of_mem _ mem)
      next =>
        obtain rfl | mem := List.mem_cons.mp mem
        · exact .inl rfl
        · exact .inr mem

/-- A range in front of others is joined to the first one exactly when there is no gap. -/
theorem areApart_joinRange (behind : ∀ range ∈ others, last < range.1)
    (proper : AreProper others) (apart : AreApart others)
    : AreApart (joinRange first last others) := by
  cases others with
  | nil => exact List.pairwise_singleton _ _
  | cons other others =>
      obtain ⟨behindFirst, _⟩ := List.forall_mem_cons.mp behind
      obtain ⟨⟨order, _⟩, _⟩ := List.forall_mem_cons.mp proper
      obtain ⟨apartFirst, apartOthers⟩ := List.pairwise_cons.mp apart
      rw [joinRange]
      split
      next => exact List.pairwise_cons.mpr ⟨apartFirst, apartOthers⟩
      next gap =>
        -- Behind the first of the others the rest is even further away.
        refine List.pairwise_cons.mpr ⟨fun later mem => ?_, apart⟩
        dsimp only at gap ⊢
        obtain rfl | mem := List.mem_cons.mp mem
        · omega
        · have := apartFirst later mem
          omega

/-- Ranges start where one of their runs does. -/
theorem lt_of_mem_ranges (behind : ∀ run ∈ runs, bound < run.first)
    : ∀ range ∈ ranges name negated runs, bound < range.1 := by
  induction runs with
  | nil => exact List.forall_mem_nil _
  | cons run runs ih =>
      obtain ⟨behindFirst, behind⟩ := List.forall_mem_cons.mp behind
      rw [ranges]
      split
      next => exact ih behind
      next =>
        intro range mem
        obtain same | mem := of_mem_joinRange mem
        · rwa [same]
        · exact ih behind range mem

/-- Joined runs are ranges with gaps between them, by induction on the runs. -/
theorem areApart_ranges
    (proper : ∀ run ∈ runs, run.first ≤ run.last ∧ run.last < CodePoint.limit)
    (increasing : runs.Pairwise fun run later => run.last < later.first)
    : AreApart (ranges name negated runs) := by
  induction runs with
  | nil => exact List.Pairwise.nil
  | cons run runs ih =>
      obtain ⟨_, proper⟩ := List.forall_mem_cons.mp proper
      obtain ⟨behind, increasing⟩ := List.pairwise_cons.mp increasing
      rw [ranges]
      split
      next => exact ih proper increasing
      next =>
        exact areApart_joinRange (lt_of_mem_ranges behind) (areProper_ranges proper)
          (ih proper increasing)

end Ranges

-----------------------------------------------------------------------------------------
-- Main statement
-----------------------------------------------------------------------------------------

/-- Whatever categories the code points have, the runs part them into maximal runs in
increasing order. For every name of one or two letters and for its complement, the ranges
increase with gaps between them and hold just the code points whose category starts with the
name, or just the others; what is written into a class is read as these ranges; and each
code point is in the ranges of either the name or the complement.
-/
theorem expansion_isExact (category : Nat → Category)
    : IsPartition category (runsOf category)
      ∧ ∀ name : List Char,
          name.length = 1 ∨ name.length = 2
          → (∀ negated,
              let found := ranges name negated (runsOf category)
              AreProper found
              ∧ AreApart found
              ∧ (∀ n,
                  Covers found n
                  ↔ n < CodePoint.limit ∧ name.isPrefixOf (category n).letters ≠ negated)
              ∧ ∀ after,
                  Closes (found.flatMap rangeText ++ .char ']' :: after)
                    (found.map fun range => .range range.1 range.2) after)
            ∧ ∀ n < CodePoint.limit,
                Covers (ranges name true (runsOf category)) n
                ↔ ¬Covers (ranges name false (runsOf category)) n := by
  have partition := isPartition_runsOf category
  refine ⟨partition, fun name size => ⟨fun negated => ?_, fun n within => ?_⟩⟩
  · have proper : AreProper (ranges name negated (runsOf category)) :=
      areProper_ranges_runsOf category
    refine ⟨proper, ?_, fun n => ?_, fun after => ?_⟩
    · exact areApart_ranges (fun _ mem => runsOf_proper mem) partition.increasing
    · rw [covers_ranges_runsOf, isNamed_eq_isPrefixOf _ size]
    · have bracket := Pattern.closes_bracket after
      have closes := Pattern.closes_ranges proper (by rintro rest ⟨⟩) bracket
      rwa [List.append_nil] at closes
  · rw [covers_ranges_runsOf, covers_ranges_runsOf]
    simp [within]

/-- Small letters, then capital ones, and digits behind them. -/
def lettersFirst (n : Nat) : Category :=
  if n < 0x100 then ⟨'L', 'l'⟩ else if n < 0x200 then ⟨'L', 'u'⟩ else ⟨'N', 'd'⟩

/-- The ranges of letters reach over both of their runs, and those of all but capital
letters have a gap between the small letters and the digits.
-/
theorem expansion_isExact_lettersFirst
    : (['L'].length = 1 ∨ ['L'].length = 2)
      ∧ (['L', 'u'].length = 1 ∨ ['L', 'u'].length = 2)
      ∧ (∀ n,
          Covers (ranges ['L'] false (runsOf lettersFirst)) n ↔ n < 0x200)
      ∧ (∀ n,
          Covers (ranges ['L', 'u'] true (runsOf lettersFirst)) n
          ↔ n < 0x100 ∨ 0x200 ≤ n ∧ n < CodePoint.limit)
      ∧ 0x1FF < CodePoint.limit
      ∧ Covers (ranges ['L', 'u'] false (runsOf lettersFirst)) 0x1FF := by
  obtain ⟨-, named⟩ := expansion_isExact lettersFirst
  obtain ⟨letter, -⟩ := named ['L'] (.inl rfl)
  obtain ⟨capital, complement⟩ := named ['L', 'u'] (.inr rfl)
  obtain ⟨-, -, coversLetter, -⟩ := letter false
  obtain ⟨-, -, coversOther, -⟩ := capital true
  have starts (n : Nat) : ['L'].isPrefixOf (lettersFirst n).letters ↔ n < 0x200 := by
    unfold lettersFirst
    split
    next => exact iff_of_true rfl (by omega)
    next =>
      split
      next capital => exact iff_of_true rfl capital
      next digit => exact iff_of_false (by decide) digit
  have startsBoth (n : Nat)
      : ['L', 'u'].isPrefixOf (lettersFirst n).letters ↔ 0x100 ≤ n ∧ n < 0x200 := by
    unfold lettersFirst
    split
    next => exact iff_of_false (by decide) (by omega)
    next =>
      split
      next => exact iff_of_true rfl (by omega)
      next => exact iff_of_false (by decide) (by omega)
  have within : 0x1FF < CodePoint.limit := by decide
  refine ⟨.inl rfl, .inr rfl, fun n => ?_, fun n => ?_, within, ?_⟩
  · rw [coversLetter, Bool.ne_false_iff, starts, CodePoint.limit]
    omega
  · rw [coversOther, ne_eq, startsBoth, CodePoint.limit]
    omega
  · refine Classical.not_not.mp fun uncovered => ?_
    have other := (complement 0x1FF within).mpr uncovered
    rw [coversOther, ne_eq, startsBoth] at other
    omega

end JsonPath.Category
