import JsonPath.Evaluation.Basic
import JsonPath.Proofs.Outcome
import Mathlib.Data.List.Forall2

/-! What two evaluations find side by side: lists whose items are related one by one, either
in the order in which they are found or after one of the lists is put into another order.
Collecting results and keeping what passes a test leads from paired lists to paired lists.
-/

namespace JsonPath

open Outcome (Related)

/-- The errors are the same, up to the expressions that they show. -/
inductive EvaluationError.Alike : EvaluationError → EvaluationError → Prop
  | same {e} : Alike e e
  | notTest {a b} : Alike (.notTest a) (.notTest b)
  | noValue {a b} : Alike (.noValue a) (.noValue b)
  | notNodes {a b} : Alike (.notNodes a) (.notNodes b)

/-- Whether two evaluations find things in the same order. -/
inductive Arrangement where
  | same
  | any

namespace Arrangement

/-- The second list has the items of the first, in an order that the arrangement allows. -/
def Arranges {α : Type} : Arrangement → List α → List α → Prop
  | same => Eq
  | any => List.Perm

/-- The items of both lists are related one by one, after the first list is arranged. -/
def Pairs {α β : Type} (arrangement : Arrangement) (R : α → β → Prop) (items : List α)
    (others : List β)
    : Prop :=
  ∃ arranged, arrangement.Arranges items arranged ∧ List.Forall₂ R arranged others

/-- The order decides which of several errors comes first, so that in different orders two
evaluations can fail for different reasons.
-/
def Errors : Arrangement → EvaluationError → EvaluationError → Prop
  | same => EvaluationError.Alike
  | any => fun _ _ => True

variable {arrangement : Arrangement} {α β γ δ : Type}

/-- Errors that are alike are related in every arrangement. -/
theorem errors_of_alike {e e' : EvaluationError} (h : e.Alike e')
    : arrangement.Errors e e' := by
  cases arrangement with
  | same => exact h
  | any => trivial

theorem errors_refl (e : EvaluationError) : arrangement.Errors e e :=
  errors_of_alike .same

-----------------------------------------------------------------------------------------
-- Arranged lists
-----------------------------------------------------------------------------------------

namespace Arranges

variable {items arranged : List α}

theorem refl (items : List α) : arrangement.Arranges items items := by
  cases arrangement with
  | same => rfl
  | any => exact List.Perm.refl items

/-- Lists that are arranged part by part are arranged. -/
theorem append {others arranged' : List α} (first : arrangement.Arranges items arranged)
    (second : arrangement.Arranges others arranged')
    : arrangement.Arranges (items ++ others) (arranged ++ arranged') := by
  cases arrangement with
  | same =>
      obtain rfl := first
      obtain rfl := second
      rfl
  | any => exact List.Perm.append first second

theorem map (f : α → β) (h : arrangement.Arranges items arranged)
    : arrangement.Arranges (items.map f) (arranged.map f) := by
  cases arrangement with
  | same =>
      obtain rfl := h
      rfl
  | any => exact List.Perm.map f h

/-- Replacing each item by the same items keeps an arrangement. -/
theorem flatMap (f : α → List β) (h : arrangement.Arranges items arranged)
    : arrangement.Arranges (items.flatMap f) (arranged.flatMap f) := by
  cases arrangement with
  | same =>
      obtain rfl := h
      rfl
  | any => exact List.Perm.flatMap_right f h

theorem length_eq (h : arrangement.Arranges items arranged)
    : items.length = arranged.length := by
  cases arrangement with
  | same => exact congrArg _ h
  | any => exact List.Perm.length_eq h

/-- Arranging twice is arranging once. -/
theorem trans {others : List α} (first : arrangement.Arranges items arranged)
    (second : arrangement.Arranges arranged others)
    : arrangement.Arranges items others := by
  cases arrangement with
  | same => exact Eq.trans first second
  | any => exact List.Perm.trans first second

end Arranges

-----------------------------------------------------------------------------------------
-- Paired lists
-----------------------------------------------------------------------------------------

namespace Pairs

variable {R : α → β → Prop} {S : γ → δ → Prop} {items : List α} {others : List β}

/-- Items that are related one by one are paired, without any other arrangement. -/
theorem of_forall₂ (h : List.Forall₂ R items others) : arrangement.Pairs R items others :=
  ⟨items, .refl items, h⟩

theorem nil : arrangement.Pairs R [] [] :=
  of_forall₂ .nil

theorem singleton {a : α} {b : β} (h : R a b) : arrangement.Pairs R [a] [b] :=
  of_forall₂ (.cons h .nil)

/-- Arranging the items of one side keeps the pairs. -/
theorem arranged {first : List α} (arranges : arrangement.Arranges first items)
    (h : arrangement.Pairs R items others)
    : arrangement.Pairs R first others := by
  obtain ⟨arranged, arranges', forall₂⟩ := h
  exact ⟨arranged, arranges.trans arranges', forall₂⟩

/-- Lists that are paired part by part are paired. -/
theorem append {items' : List α} {others' : List β} (first : arrangement.Pairs R items others)
    (second : arrangement.Pairs R items' others')
    : arrangement.Pairs R (items ++ items') (others ++ others') := by
  obtain ⟨arranged, arranges, forall₂⟩ := first
  obtain ⟨arranged', arranges', forall₂'⟩ := second
  exact ⟨arranged ++ arranged', arranges.append arranges', List.rel_append forall₂ forall₂'⟩

/-- Related items in front of paired ones are paired. -/
theorem cons {a : α} {b : β} (first : R a b) (second : arrangement.Pairs R items others)
    : arrangement.Pairs R (a :: items) (b :: others) :=
  (singleton first).append second

/-- Pairs are kept by mapping when related items are mapped to related ones. -/
theorem map {f : α → γ} {g : β → δ} (h : arrangement.Pairs R items others)
    (related : ∀ a b, R a b → S (f a) (g b))
    : arrangement.Pairs S (items.map f) (others.map g) := by
  obtain ⟨arranged, arranges, forall₂⟩ := h
  refine ⟨arranged.map f, arranges.map f, ?_⟩
  rw [List.forall₂_map_left_iff, List.forall₂_map_right_iff]
  exact forall₂.imp related

/-- Pairs are kept when related items are replaced by paired ones. -/
theorem flatMap {f : α → List γ} {g : β → List δ} (h : arrangement.Pairs R items others)
    (related : ∀ a b, R a b → arrangement.Pairs S (f a) (g b))
    : arrangement.Pairs S (items.flatMap f) (others.flatMap g) := by
  obtain ⟨arranged, arranges, forall₂⟩ := h
  apply Pairs.arranged (arranges.flatMap f)
  clear arranges
  induction forall₂ with
  | nil => exact nil
  | cons first _ ih => exact (related _ _ first).append ih

theorem length_eq (h : arrangement.Pairs R items others) : items.length = others.length := by
  obtain ⟨arranged, arranges, forall₂⟩ := h
  exact arranges.length_eq.trans forall₂.length_eq

/-- With a reflexive relation, every list is paired with itself. -/
theorem refl {R : α → α → Prop} (reflexive : ∀ a, R a a) (items : List α)
    : arrangement.Pairs R items items :=
  of_forall₂ (List.forall₂_same.mpr fun a _ => reflexive a)

/-- Of two paired lists, both are empty or none is. -/
theorem isEmpty_eq (h : arrangement.Pairs R items others) : items.isEmpty = others.isEmpty := by
  rw [Bool.eq_iff_iff, List.isEmpty_iff_length_eq_zero, List.isEmpty_iff_length_eq_zero,
    h.length_eq]

/-- Single items of paired lists are related, as there is only one order for them. -/
theorem of_singleton {a : α} {b : β} (h : arrangement.Pairs R [a] [b]) : R a b := by
  obtain ⟨arranged, arranges, forall₂⟩ := h
  have only : arranged = [a] := by
    cases arrangement with
    | same => exact Eq.symm arranges
    | any => exact (List.singleton_perm.mp arranges).symm
  subst only
  cases forall₂ with
  | cons related _ => exact related

-----------------------------------------------------------------------------------------
-- Results of paired items
-----------------------------------------------------------------------------------------

variable {f : α → Except EvaluationError (List γ)} {g : β → Except EvaluationError (List δ)}

/-- Collecting from related items in the same order gives paired results, by induction on the
items.
-/
theorem collect_of_forall₂ (h : List.Forall₂ R items others)
    (results : ∀ a b, R a b → Related arrangement.Errors (arrangement.Pairs S) (f a) (g b))
    : Related arrangement.Errors (arrangement.Pairs S) (JsonPath.collect f items)
        (JsonPath.collect g others) := by
  induction h with
  | nil => exact .ok nil
  | cons first _ ih =>
      exact (results _ _ first).bind fun found found' head =>
        ih.bind fun others others' tail => .ok (head.append tail)

/-- In another order the same results are collected, or there is an error in both orders, by
induction on the permutation.
-/
theorem collect_of_perm {items' : List α} (h : items.Perm items')
    : Related Arrangement.any.Errors List.Perm (JsonPath.collect f items)
        (JsonPath.collect f items') := by
  induction h with
  | nil => exact .ok (.refl [])
  | cons a _ ih =>
      have first := Related.of_eq (E := Arrangement.any.Errors) (R := List.Perm)
        (fun _ => trivial) List.Perm.refl (f a)
      exact first.bind fun found found' head =>
        ih.bind fun others others' tail => .ok (head.append tail)
  | swap a b items =>
      simp only [JsonPath.collect]
      cases f a with
      | error _ => cases f b <;> exact .error trivial
      | ok first =>
          cases f b with
          | error _ => exact .error trivial
          | ok second =>
              cases JsonPath.collect f items with
              | error _ => exact .error trivial
              | ok others =>
                  refine .ok ?_
                  rw [← List.append_assoc, ← List.append_assoc]
                  exact List.perm_append_comm.append_right others
  | trans _ _ first second =>
      exact first.trans second (fun _ _ _ _ _ => trivial) fun _ _ _ => .trans

/-- Related results are collected from paired items. -/
theorem collect (h : arrangement.Pairs R items others)
    (results : ∀ a b, R a b → Related arrangement.Errors (arrangement.Pairs S) (f a) (g b))
    : Related arrangement.Errors (arrangement.Pairs S) (JsonPath.collect f items)
        (JsonPath.collect g others) := by
  obtain ⟨arranged, arranges, forall₂⟩ := h
  have second := collect_of_forall₂ forall₂ results
  cases arrangement with
  | same =>
      obtain rfl := arranges
      exact second
  | any =>
      exact (collect_of_perm arranges).trans second (fun _ _ _ _ _ => trivial)
        fun _ _ _ permuted paired => paired.arranged permuted

/-- To keep an item is to collect it alone. -/
theorem keep_eq_collect {ε : Type} (test : α → Except ε Bool) (items : List α)
    : JsonPath.keep test items
        = JsonPath.collect (fun item => (if · then [item] else []) <$> test item) items := by
  induction items with
  | nil => rfl
  | cons item items ih =>
      rw [JsonPath.keep, JsonPath.collect, ih]
      cases test item with
      | error _ => rfl
      | ok isKept => cases isKept <;> rfl

/-- Of paired items, those that pass the same tests are paired. -/
theorem keep {test : α → Except EvaluationError Bool} {test' : β → Except EvaluationError Bool}
    (h : arrangement.Pairs R items others)
    (tests : ∀ a b, R a b → Related arrangement.Errors Eq (test a) (test' b))
    : Related arrangement.Errors (arrangement.Pairs R) (JsonPath.keep test items)
        (JsonPath.keep test' others) := by
  rw [keep_eq_collect, keep_eq_collect]
  refine h.collect fun a b related => (tests a b related).map ?_
  rintro isKept _ rfl
  cases isKept with
  | true => exact singleton related
  | false => exact nil

end Pairs

end Arrangement

end JsonPath
