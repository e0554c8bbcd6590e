import JsonPath.Pattern.Matching
import Mathlib.Logic.Relation

/-! Repetitions of a step between points. The search for the points after some repetitions
visits each state once and stops at a limit. It misses no point, because a repetition that
passes nothing is the last one and any other one leaves less of the subject.
-/

namespace JsonPath.Pattern

-----------------------------------------------------------------------------------------
-- Adding states one after another
-----------------------------------------------------------------------------------------

section Adding

variable {α : Type} {add : List α → α → List α} {visited children : List α} {s : α}

/-- What has been visited stays so when every addition keeps it, by induction on the states
that are added.
-/
theorem subset_foldl (grows : ∀ visited child, visited ⊆ add visited child)
    : visited ⊆ children.foldl add visited := by
  induction children generalizing visited with
  | nil => exact List.Subset.refl _
  | cons child _ ih => exact List.Subset.trans (grows visited child) ih

/-- A state is visited before or added by one of the children, by induction on these. -/
theorem of_mem_foldl {P : α → Prop}
    (adds : ∀ visited child, s ∈ add visited child → s ∈ visited ∨ P child)
    (h : s ∈ children.foldl add visited)
    : s ∈ visited ∨ ∃ child ∈ children, P child := by
  induction children generalizing visited with
  | nil => exact .inl h
  | cons child _ ih =>
      obtain h | ⟨other, mem, holds⟩ := ih h
      · exact (adds _ _ h).imp_right fun holds => ⟨child, List.mem_cons_self, holds⟩
      · exact .inr ⟨other, List.mem_cons_of_mem _ mem, holds⟩

/-- Children that are added one after another keep what each of them keeps, and all of them
are added.
-/
theorem foldl_keeps {Kept : List α → Prop} (grows : ∀ visited child, visited ⊆ add visited child)
    (keeps : ∀ child ∈ children, ∀ visited,
      Kept visited → Kept (add visited child) ∧ child ∈ add visited child)
    (h : Kept visited)
    : Kept (children.foldl add visited) ∧ children ⊆ children.foldl add visited := by
  induction children generalizing visited with
  | nil => exact ⟨h, List.nil_subset _⟩
  | cons child _ ih =>
      obtain ⟨kept, inside⟩ := keeps child List.mem_cons_self visited h
      obtain ⟨kept, others⟩ := ih (fun other mem => keeps other (.tail _ mem)) kept
      refine ⟨kept, List.cons_subset.mpr ⟨?_, others⟩⟩
      rw [List.foldl_cons]
      exact subset_foldl grows inside

end Adding

-----------------------------------------------------------------------------------------
-- Visiting
-----------------------------------------------------------------------------------------

section Visiting

variable {α : Type} [DecidableEq α] {early : Bool} {next : α → List α} {limit k : Nat}
variable {visited : List α} {state s : α}

/-- Repeated steps lead from one state to the other. -/
abbrev Leads (next : α → List α) : α → α → Prop :=
  Relation.ReflTransGen fun a b => b ∈ next a

/-- A visit forgets nothing, by induction on its limit. -/
theorem subset_visit (visited : List α) (state : α)
    : visited ⊆ visit early next limit visited state := by
  induction limit generalizing visited state with
  | zero => exact List.Subset.refl _
  | succ limit ih =>
      rw [visit]
      split
      · exact List.Subset.refl _
      · split
        · exact List.Subset.trans (List.subset_cons_self _ _) (subset_foldl ih)
        · exact List.Subset.trans (subset_foldl ih) (List.subset_cons_self _ _)

/-- A visit adds only what its state leads to, by induction on its limit. -/
theorem leads_of_mem_visit (visited : List α) (state : α)
    (h : s ∈ visit early next limit visited state)
    : s ∈ visited ∨ Leads next state s := by
  induction limit generalizing visited state with
  | zero => exact .inl h
  | succ limit ih =>
      have below (h : ∃ child ∈ next state, Leads next child s) : Leads next state s := by
        obtain ⟨child, mem, leads⟩ := h
        exact .head mem leads
      rw [visit] at h
      split at h
      · exact .inl h
      · split at h
        · obtain h | h := of_mem_foldl ih h
          · obtain rfl | h := List.mem_cons.mp h
            · exact .inr .refl
            · exact .inl h
          · exact .inr (below h)
        · obtain rfl | h := List.mem_cons.mp h
          · exact .inr .refl
          · exact (of_mem_foldl ih h).imp_right below

/-- Every step from a valid state leads down to a valid one. -/
def Descends (next : α → List α) (height : α → Nat) (Valid : α → Prop) : Prop :=
  ∀ state, Valid state → ∀ child ∈ next state, Valid child ∧ height child < height state

/-- The visited states below a height have their next states visited. -/
def IsClosed (next : α → List α) (height : α → Nat) (k : Nat) (visited : List α) : Prop :=
  ∀ s ∈ visited, height s < k → next s ⊆ visited

variable {height : α → Nat} {Valid : α → Prop}

omit [DecidableEq α] in
/-- What a valid state leads to is valid and no higher, by induction on the steps. -/
theorem Descends.of_leads (descends : Descends next height Valid) (valid : Valid state)
    (leads : Leads next state s)
    : Valid s ∧ height s ≤ height state := by
  induction leads with
  | refl => exact ⟨valid, Nat.le_refl _⟩
  | tail _ step ih =>
      obtain ⟨valid, below⟩ := descends _ ih.1 _ step
      exact ⟨valid, by omega⟩

/-- A visit keeps the visited states closed. Where a state counts as visited before the
states after it do, the states on the way to it are not closed yet, but these are higher up.
-/
theorem isClosed_visit (descends : Descends next height Valid) (valid : Valid state)
    (within : height state < limit) (closed : IsClosed next height k visited)
    : IsClosed next height k (visit early next limit visited state)
      ∧ state ∈ visit early next limit visited state := by
  induction limit generalizing visited state k with
  | zero => omega
  | succ limit ih =>
      have children {k : Nat} {visited : List α} (closed : IsClosed next height k visited)
          : IsClosed next height k ((next state).foldl (visit early next limit) visited)
            ∧ next state ⊆ (next state).foldl (visit early next limit) visited := by
        refine foldl_keeps subset_visit (fun child mem _ closed => ?_) closed
        obtain ⟨valid, lower⟩ := descends state valid child mem
        exact ih valid (by omega) closed
      rw [visit]
      split
      next mem => exact ⟨closed, mem⟩
      next =>
        split
        · have grown : state :: visited ⊆ (next state).foldl (visit early next limit) _ :=
            subset_foldl subset_visit
          have pending : IsClosed next height (min k (height state)) (state :: visited) := by
            intro s found below
            obtain rfl | found := List.mem_cons.mp found
            · omega
            · exact List.Subset.trans (closed s found (by omega)) (List.subset_cons_self _ _)
          obtain ⟨lower, inside⟩ := children pending
          refine ⟨fun s found below => ?_, grown List.mem_cons_self⟩
          obtain found | ⟨child, mem, leads⟩ := of_mem_foldl leads_of_mem_visit found
          · obtain rfl | found := List.mem_cons.mp found
            · exact inside
            · exact fun _ next => grown (.tail _ (closed s found below next))
          · obtain ⟨valid, childBelow⟩ := descends state valid child mem
            have := descends.of_leads valid leads
            exact lower s found (by omega)
        · obtain ⟨closed, inside⟩ := children closed
          refine ⟨fun s found below => ?_, List.mem_cons_self⟩
          obtain rfl | found := List.mem_cons.mp found
          · exact List.Subset.trans inside (List.subset_cons_self _ _)
          · exact List.Subset.trans (closed s found below) (List.subset_cons_self _ _)

/-- With a limit above the height of the state, a visit finds all that the state leads to. -/
theorem mem_visit_iff (descends : Descends next height Valid) (valid : Valid state)
    (within : height state < limit)
    : s ∈ visit early next limit [] state ↔ Leads next state s := by
  constructor
  · intro h
    exact (leads_of_mem_visit [] state h).resolve_left List.not_mem_nil
  · intro leads
    have nothing : IsClosed next height limit [] := fun _ mem => absurd mem List.not_mem_nil
    obtain ⟨closed, found⟩ : IsClosed next height limit (visit early next limit [] state) ∧ _ :=
      isClosed_visit descends valid within nothing
    induction leads with
    | refl => exact found
    | tail leads step ih =>
        have := descends.of_leads valid leads
        exact closed _ ih (by omega) step

end Visiting

-----------------------------------------------------------------------------------------
-- Walks
-----------------------------------------------------------------------------------------

/-- The number of steps lead from the first point to the second one. -/
def Walk (ends : Point → List Point) : Nat → Point → Point → Prop
  | 0, point, stop => point = stop
  | count + 1, point, stop => ∃ after ∈ ends point, Walk ends count after stop

/-- At most a number of steps lead from the first point to the second one. All of them pass
something, except that the last one need not.
-/
inductive Stroll (ends : Point → List Point) : Option Nat → Point → Point → Prop
  | done {most point} : Stroll ends most point point
  | last {most point after} (more : most ≠ some 0) (step : after ∈ ends point)
    (stays : after.place = point.place)
    : Stroll ends most point after
  | more {most point after stop} (more : most ≠ some 0) (step : after ∈ ends point)
    (moves : after.place ≠ point.place) (others : Stroll ends (most.map (· - 1)) after stop)
    : Stroll ends most point stop

/-- Steps between the points of a subject go nowhere but forward. -/
def Advances (size : Nat) (ends : Point → List Point) : Prop :=
  ∀ point : Point, point.place ≤ size →
    ∀ after ∈ ends point, point.place ≤ after.place ∧ after.place ≤ size

section Walks

variable {size count : Nat} {point stop : Point} {points : List Point}
variable {ends : Point → List Point}

/-- Walks go nowhere but forward, by induction on their steps. -/
theorem Advances.of_walk (advances : Advances size ends) (within : point.place ≤ size)
    (walk : Walk ends count point stop)
    : point.place ≤ stop.place ∧ stop.place ≤ size := by
  induction count generalizing point with
  | zero =>
      obtain rfl := walk
      exact ⟨Nat.le_refl _, within⟩
  | succ count ih =>
      obtain ⟨after, step, walk⟩ := walk
      have forward := advances point within after step
      have := ih forward.2 walk
      omega

/-- Points that one more step leads back to are the ends of all walks from them. -/
theorem exists_walk_of_fixed (fixed : (points.flatMap ends).eraseDups = points)
    : (∃ point ∈ points, Walk ends count point stop) ↔ stop ∈ points := by
  have step {after : Point} : after ∈ points ↔ ∃ point ∈ points, after ∈ ends point := by
    have same : after ∈ points ↔ after ∈ (points.flatMap ends).eraseDups := by rw [fixed]
    rw [same, List.mem_eraseDups, List.mem_flatMap]
  induction count with
  | zero => simp [Walk]
  | succ count ih =>
      refine Iff.trans ?_ ih
      constructor
      · rintro ⟨point, mem, after, found, walk⟩
        exact ⟨after, step.mpr ⟨point, mem, found⟩, walk⟩
      · rintro ⟨after, mem, walk⟩
        obtain ⟨point, mem, found⟩ := step.mp mem
        exact ⟨point, mem, after, found, walk⟩

/-- Exact repetitions end where walks do, by induction on their number. -/
theorem mem_repeatExactly
    : stop ∈ repeatExactly ends count points ↔ ∃ point ∈ points, Walk ends count point stop := by
  induction count generalizing points with
  | zero => simp [repeatExactly, Walk]
  | succ count ih =>
      rw [repeatExactly]
      split
      next fixed => exact (exists_walk_of_fixed fixed).symm
      next =>
        simp only [ih, List.mem_eraseDups, List.mem_flatMap, Walk]
        constructor
        · rintro ⟨after, ⟨point, mem, step⟩, walk⟩
          exact ⟨point, mem, after, step, walk⟩
        · rintro ⟨point, mem, after, step, walk⟩
          exact ⟨after, ⟨point, mem, step⟩, walk⟩

end Walks

-----------------------------------------------------------------------------------------
-- Repetitions
-----------------------------------------------------------------------------------------

section Repetitions

variable {size least : Nat} {point stop : Point} {most : Option Nat}
variable {ends : Point → List Point} {greedy : Bool}

/-- What is left of the subject, and nothing where no more repetition may follow. -/
def height (size : Nat) : Option Nat × Point → Nat
  | (some 0, _) => 0
  | (_, point) => size + 1 - point.place

/-- The height of a state is bounded by what is left of the subject. -/
theorem height_le (size : Nat) (state : Option Nat × Point)
    : height size state ≤ size + 1 - state.2.place := by
  unfold height
  split
  · exact Nat.zero_le _
  · exact Nat.le_refl _

/-- What can come after a state: the end behind a repetition that passes nothing, or a place
further on with one repetition less to come.
-/
theorem mem_repeatOnce {next : Option Nat × Point}
    : next ∈ repeatOnce ends (most, point)
      ↔ most ≠ some 0
        ∧ ∃ after ∈ ends point,
            (after.place = point.place ∧ next = (some 0, after))
            ∨ (after.place ≠ point.place ∧ next = (most.map (· - 1), after)) := by
  have moreOnce : repeatOnce ends (most, point) = if most = some 0 then [] else
      (ends point).map fun after =>
        if after.place = point.place then (some 0, after) else (most.map (· - 1), after) := by
    obtain _ | _ | most := most <;> simp [repeatOnce]
  rw [moreOnce]
  split
  next none => simp [none]
  next more =>
    simp only [List.mem_map, ne_eq, more, not_false_eq_true, true_and]
    refine exists_congr fun after => and_congr_right fun _ => ?_
    split
    next same => simp [same, eq_comm]
    next moves => simp [moves, eq_comm]

/-- Each repetition leaves less of the subject or is the last one. -/
theorem descends_repeatOnce (advances : Advances size ends)
    : Descends (repeatOnce ends) (height size) (·.2.place ≤ size) := by
  rintro ⟨most, point⟩ within next mem
  obtain ⟨more, after, step, continues⟩ := mem_repeatOnce.mp mem
  have here : height size (most, point) = size + 1 - point.place := by
    rw [height]
    rintro rfl
    exact more rfl
  have forward := advances point within after step
  rw [here]
  obtain ⟨_, rfl⟩ | ⟨moves, rfl⟩ := continues
  · exact ⟨forward.2, Nat.sub_pos_of_lt (Nat.lt_succ_of_le within)⟩
  · exact ⟨forward.2, Nat.lt_of_le_of_lt (height_le size _) (by dsimp only; omega)⟩

/-- A state leads to the ends of strolls, by induction on the steps from the first one on. -/
theorem stroll_of_leads {rest : Option Nat}
    (leads : Leads (repeatOnce ends) (most, point) (rest, stop))
    : Stroll ends most point stop := by
  generalize start_eq : (most, point) = start at leads
  induction leads using Relation.ReflTransGen.head_induction_on generalizing most point with
  | refl =>
      obtain ⟨rfl, rfl⟩ := Prod.mk.inj start_eq
      exact .done
  | head first others ih =>
      subst start_eq
      obtain ⟨more, after, step, ⟨stays, rfl⟩ | ⟨moves, rfl⟩⟩ := mem_repeatOnce.mp first
      · have stroll := ih rfl
        cases stroll with
        | done => exact .last more step stays
        | last none => exact absurd rfl none
        | more none => exact absurd rfl none
      · exact .more more step moves (ih rfl)

/-- A stroll is found step by step, by induction on it. -/
theorem exists_leads_of_stroll (stroll : Stroll ends most point stop)
    : ∃ rest, Leads (repeatOnce ends) (most, point) (rest, stop) := by
  induction stroll with
  | done => exact ⟨_, .refl⟩
  | last more step stays =>
      exact ⟨_, .single (mem_repeatOnce.mpr ⟨more, _, step, .inl ⟨stays, rfl⟩⟩)⟩
  | more more step moves _ ih =>
      obtain ⟨rest, leads⟩ := ih
      exact ⟨rest, .head (mem_repeatOnce.mpr ⟨more, _, step, .inr ⟨moves, rfl⟩⟩) leads⟩

/-- Up to a number of repetitions end where strolls do. -/
theorem mem_repeatUpTo (advances : Advances size ends) (within : point.place ≤ size)
    : stop ∈ repeatUpTo ends size greedy most point ↔ Stroll ends most point stop := by
  have visits {state : Option Nat × Point}
      : state ∈ visit (!greedy) (repeatOnce ends) (size + 2 - point.place) [] (most, point)
        ↔ Leads (repeatOnce ends) (most, point) state := by
    have := height_le size (most, point)
    exact mem_visit_iff (descends_repeatOnce advances) within (by dsimp only at this; omega)
  simp only [repeatUpTo, List.mem_eraseDups, List.mem_map, List.mem_reverse, visits]
  constructor
  · rintro ⟨⟨rest, _⟩, leads, rfl⟩
    exact stroll_of_leads leads
  · intro stroll
    obtain ⟨rest, leads⟩ := exists_leads_of_stroll stroll
    exact ⟨(rest, stop), leads, rfl⟩

/-- Repetitions end behind a walk of the least number of steps and a stroll of as many as may
follow.
-/
theorem mem_repeatEnds (advances : Advances size ends) (within : point.place ≤ size)
    : stop ∈ repeatEnds ends size greedy least most point
      ↔ ∃ middle, Walk ends least point middle
          ∧ Stroll ends (most.map (· - least)) middle stop := by
  simp only [repeatEnds, List.mem_eraseDups, List.mem_flatMap, mem_repeatExactly,
    List.mem_singleton, exists_eq_left]
  refine exists_congr fun middle => and_congr_right fun walk => ?_
  exact mem_repeatUpTo advances (advances.of_walk within walk).2

end Repetitions

end JsonPath.Pattern
