import JsonPath.Pattern.Expansion
import Mathlib.Data.String.Basic

/-! Runs and ranges of categories. The runs of an assignment of categories hold each code
point once, with its category, and the ranges of a name hold just the code points whose
category has it. No name stands for all or none of the code points.
-/

namespace JsonPath.Category

open Pattern (categoryNames)

-----------------------------------------------------------------------------------------
-- Runs
-----------------------------------------------------------------------------------------

section Runs

variable {category : Nat → Category} {first next count n : Nat} {current found : Category}

/-- Runs are not empty and stay within the code points that are counted. -/
theorem runsFrom_proper (started : first < next) {run : Run}
    (mem : run ∈ runsFrom category first current next count)
    : run.first ≤ run.last ∧ run.last < next + count := by
  induction count generalizing first next current with
  | zero =>
      obtain rfl := List.mem_singleton.mp mem
      dsimp only
      omega
  | succ count ih =>
      rw [runsFrom] at mem
      split at mem
      next =>
        have := ih (Nat.lt_succ_of_lt started) mem
        omega
      next =>
        obtain rfl | mem := List.mem_cons.mp mem
        · dsimp only
          omega
        · have := ih (Nat.lt_succ_self next) mem
          omega

/-- The run so far holds numbers of its category only, and what follows is split off at the
first change.
-/
theorem mem_runsFrom_iff (started : first < next)
    (same : ∀ n, first ≤ n → n < next → category n = current)
    : (∃ run ∈ runsFrom category first current next count,
        run.first ≤ n ∧ n ≤ run.last ∧ run.category = found)
      ↔ first ≤ n ∧ n < next + count ∧ category n = found := by
  induction count generalizing first next current with
  | zero =>
      simp only [runsFrom, List.mem_singleton, exists_eq_left]
      constructor
      · rintro ⟨low, high, rfl⟩
        exact ⟨low, by omega, same n low (by omega)⟩
      · rintro ⟨low, high, rfl⟩
        exact ⟨low, by omega, (same n low (by omega)).symm⟩
  | succ count ih =>
      rw [runsFrom]
      split
      next continues =>
        rw [ih (Nat.lt_succ_of_lt started), Nat.succ_add_eq_add_succ]
        intro n low high
        obtain rfl | high := Nat.eq_or_lt_of_le (Nat.le_of_lt_succ high)
        · exact continues
        · exact same n low high
      next =>
        have sameNext (m : Nat) (low : next ≤ m) (high : m < next + 1)
            : category m = category next := by
          rw [Nat.le_antisymm (Nat.le_of_lt_succ high) low]
        have rest := ih (Nat.lt_succ_self next) sameNext
        simp only [List.mem_cons, or_and_right, exists_or, exists_eq_left, rest]
        constructor
        · rintro (⟨low, high, rfl⟩ | ⟨low, high, rfl⟩)
          · exact ⟨low, by omega, same n low (by omega)⟩
          · exact ⟨by omega, by omega, rfl⟩
        · rintro ⟨low, high, rfl⟩
          by_cases inside : n < next
          · exact .inl ⟨low, by omega, (same n low inside).symm⟩
          · exact .inr ⟨by omega, by omega, rfl⟩

/-- The runs hold the code points, each in a run of its category. -/
theorem mem_runsOf_iff (category : Nat → Category)
    : (∃ run ∈ runsOf category, run.first ≤ n ∧ n ≤ run.last ∧ run.category = found)
      ↔ n < CodePoint.limit ∧ category n = found := by
  have whole : 1 + (CodePoint.limit - 1) = CodePoint.limit := rfl
  rw [runsOf, mem_runsFrom_iff Nat.one_pos, whole]
  · simp
  · intro m _ high
    rw [Nat.lt_one_iff.mp high]

theorem runsOf_proper {run : Run} (mem : run ∈ runsOf category)
    : run.first ≤ run.last ∧ run.last < CodePoint.limit :=
  runsFrom_proper Nat.one_pos mem

end Runs

-----------------------------------------------------------------------------------------
-- Ranges
-----------------------------------------------------------------------------------------

/-- One of the ranges holds the number. -/
def Covers (ranges : List (Nat × Nat)) (n : Nat) : Prop :=
  ∃ range ∈ ranges, range.1 ≤ n ∧ n ≤ range.2

/-- The ranges are not empty and have numbers of code points only. -/
def AreProper (ranges : List (Nat × Nat)) : Prop :=
  ∀ range ∈ ranges, range.1 ≤ range.2 ∧ range.2 < CodePoint.limit

section Ranges

variable {first last n : Nat} {others : List (Nat × Nat)} {name : List Char} {negated : Bool}

/-- Joining a run to proper ranges keeps them proper. -/
theorem areProper_joinRange (order : first ≤ last) (within : last < CodePoint.limit)
    (proper : AreProper others)
    : AreProper (joinRange first last others) := by
  cases others with
  | nil => exact List.forall_mem_singleton.mpr ⟨order, within⟩
  | cons other others =>
      obtain ⟨⟨order', within'⟩, proper⟩ := List.forall_mem_cons.mp proper
      rw [joinRange]
      split
      next => exact List.forall_mem_cons.mpr ⟨⟨by dsimp only at *; omega, within'⟩, proper⟩
      next =>
        exact List.forall_mem_cons.mpr ⟨⟨order, within⟩,
          List.forall_mem_cons.mpr ⟨⟨order', within'⟩, proper⟩⟩

/-- Joining a run to ranges adds its code points to what they cover. -/
theorem covers_joinRange (order : first ≤ last) (proper : AreProper others)
    : Covers (joinRange first last others) n ↔ first ≤ n ∧ n ≤ last ∨ Covers others n := by
  cases others with
  | nil => simp [joinRange, Covers]
  | cons other others =>
      obtain ⟨⟨order', _⟩, _⟩ := List.forall_mem_cons.mp proper
      simp only [Covers, joinRange]
      split
      next follows =>
        simp only [List.mem_cons, or_and_right, exists_or, exists_eq_left, ← or_assoc]
        refine or_congr_left ?_
        omega
      next => simp only [List.mem_cons, or_and_right, exists_or, exists_eq_left]

/-- Joined runs are proper ranges, by induction on the runs. -/
theorem areProper_ranges {runs : List Run}
    (proper : ∀ run ∈ runs, run.first ≤ run.last ∧ run.last < CodePoint.limit)
    : AreProper (ranges name negated runs) := by
  induction runs with
  | nil => exact List.forall_mem_nil _
  | cons run runs ih =>
      obtain ⟨⟨order, within⟩, proper⟩ := List.forall_mem_cons.mp proper
      rw [ranges]
      split
      next => exact ih proper
      next => exact areProper_joinRange order within (ih proper)

/-- The ranges for a name cover the runs whose category it names, or the other ones. -/
theorem covers_ranges {runs : List Run}
    (proper : ∀ run ∈ runs, run.first ≤ run.last ∧ run.last < CodePoint.limit)
    : Covers (ranges name negated runs) n
      ↔ ∃ run ∈ runs, run.first ≤ n ∧ n ≤ run.last ∧ run.category.isNamed name ≠ negated := by
  induction runs with
  | nil => simp [ranges, Covers]
  | cons run runs ih =>
      obtain ⟨⟨order, _⟩, proper⟩ := List.forall_mem_cons.mp proper
      simp only [ranges, List.mem_cons, or_and_right, exists_or, exists_eq_left]
      split
      next other => simp [ih proper, other]
      next named =>
        rw [covers_joinRange order (areProper_ranges proper), ih proper]
        simp [named]

/-- The ranges of a name are those of the code points whose category has the name, or of all
others, whatever the categories are.
-/
theorem covers_ranges_runsOf (category : Nat → Category)
    : Covers (ranges name negated (runsOf category)) n
      ↔ n < CodePoint.limit ∧ (category n).isNamed name ≠ negated := by
  rw [covers_ranges fun _ mem => runsOf_proper mem]
  constructor
  · rintro ⟨run, mem, low, high, named⟩
    obtain ⟨within, eq⟩ := (mem_runsOf_iff category).mp ⟨run, mem, low, high, rfl⟩
    rw [eq]
    exact ⟨within, named⟩
  · rintro ⟨within, named⟩
    obtain ⟨run, mem, low, high, eq⟩ := (mem_runsOf_iff category).mpr ⟨within, rfl⟩
    rw [← eq] at named
    exact ⟨run, mem, low, high, named⟩

theorem areProper_ranges_runsOf (category : Nat → Category)
    : AreProper (ranges name negated (runsOf category)) :=
  areProper_ranges fun _ mem => runsOf_proper mem

/-- The runs that are stored are those of the table. -/
theorem runs_get : runs.get = runsOf ofNat := by
  rw [runs, Thunk.get]

theorem areProper_ranges_runs : AreProper (ranges name negated runs.get) := by
  rw [runs_get]
  exact areProper_ranges_runsOf ofNat

/-- The ranges that are stored cover the code points of the category, or all other ones. -/
theorem covers_ranges_runs
    : Covers (ranges name negated runs.get) n
      ↔ n < CodePoint.limit ∧ (ofNat n).isNamed name ≠ negated := by
  rw [runs_get]
  exact covers_ranges_runsOf ofNat

end Ranges

-----------------------------------------------------------------------------------------
-- One code point of each category
-----------------------------------------------------------------------------------------

/-- A code point of each category, but for the surrogates. -/
def samples : List (Nat × Category) := [
  (0x41, ⟨'L', 'u'⟩), (0x61, ⟨'L', 'l'⟩), (0x1C5, ⟨'L', 't'⟩), (0x2B0, ⟨'L', 'm'⟩),
  (0xAA, ⟨'L', 'o'⟩), (0x300, ⟨'M', 'n'⟩), (0x903, ⟨'M', 'c'⟩), (0x488, ⟨'M', 'e'⟩),
  (0x30, ⟨'N', 'd'⟩), (0x16EE, ⟨'N', 'l'⟩), (0xB2, ⟨'N', 'o'⟩), (0x5F, ⟨'P', 'c'⟩),
  (0x2D, ⟨'P', 'd'⟩), (0x28, ⟨'P', 's'⟩), (0x29, ⟨'P', 'e'⟩), (0xAB, ⟨'P', 'i'⟩),
  (0xBB, ⟨'P', 'f'⟩), (0x21, ⟨'P', 'o'⟩), (0x20, ⟨'Z', 's'⟩), (0x2028, ⟨'Z', 'l'⟩),
  (0x2029, ⟨'Z', 'p'⟩), (0x2B, ⟨'S', 'm'⟩), (0x24, ⟨'S', 'c'⟩), (0x5E, ⟨'S', 'k'⟩),
  (0xA6, ⟨'S', 'o'⟩), (0x0, ⟨'C', 'c'⟩), (0xAD, ⟨'C', 'f'⟩), (0xE000, ⟨'C', 'o'⟩),
  (0x378, ⟨'C', 'n'⟩)
]

/-- The strings have these characters. -/
inductive Spelled : List (List Char) → List String → Prop
  | nil : Spelled [] []
  | cons {characters s others strings} (same : String.ofList characters = s)
    (rest : Spelled others strings)
    : Spelled (characters :: others) (s :: strings)

/-- Strings that are spelled by lists are joined as the lists are. -/
theorem Spelled.toList_join {lists : List (List Char)} {strings : List String}
    (h : Spelled lists strings)
    : (String.join strings).toList = lists.flatten := by
  rw [String.join_eq, String.toList_ofList]
  induction h with
  | nil => rfl
  | cons same _ ih =>
      rw [List.map_cons, List.flatten_cons, ih, ← same, String.toList_ofList, List.flatten_cons]

/-- Stated without an argument: applied to one, both sides would be computed to compare them.
-/
theorem ofNat_eq : ofNat = fun n => (lookup starts n).2 := by
  delta ofNat
  exact Eq.refl _

set_option maxRecDepth 100000 in
/-- The samples are found in the table. It is evaluated on the characters of its strings, as
these are costly to take apart.
-/
theorem lookup_samples
    : ∃ lists, Spelled lists runLengths
        ∧ ∀ sample ∈ samples,
            (lookup (startsFrom 0 0 lists.flatten).toArray sample.1).2 = sample.2 := by
  apply Exists.intro
  apply And.intro
  · repeat apply Spelled.cons rfl
    exact .nil
  · decide +kernel

/-- The samples have the categories they are listed with. -/
theorem ofNat_samples : ∀ sample ∈ samples, ofNat sample.1 = sample.2 := by
  obtain ⟨lists, spelled, found⟩ := lookup_samples
  have starts_eq : starts = (startsFrom 0 0 lists.flatten).toArray := by
    rw [starts, spelled.toList_join]
  rw [ofNat_eq, starts_eq]
  exact found

/-- Neither an accepted name nor the complement of one is without code points. -/
theorem ranges_ne_nil {name : List Char} (known : String.ofList name ∈ categoryNames)
    (negated : Bool)
    : ranges name negated runs.get ≠ [] := by
  have sampled : ∀ s ∈ categoryNames, ∀ negated, ∃ sample ∈ samples,
      sample.1 < CodePoint.limit ∧ sample.2.isNamed s.toList ≠ negated := by
    decide +kernel
  obtain ⟨sample, mem, within, named⟩ := sampled _ known negated
  rw [String.toList_ofList, ← ofNat_samples sample mem] at named
  obtain ⟨range, inside, _⟩ := covers_ranges_runs.mpr ⟨within, named⟩
  exact List.ne_nil_of_mem inside

end JsonPath.Category
