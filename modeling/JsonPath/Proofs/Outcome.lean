/-! When computations that can fail have results, which of two ways one of them ends, and
when two of them end alike.
-/

namespace JsonPath

namespace Outcome

variable {ε α β : Type}

/-- A sequence succeeds exactly when both of its steps do, the second from the result of the
first.
-/
theorem bind_eq_ok {x : Except ε α} {f : α → Except ε β} {b : β}
    : x >>= f = .ok b ↔ ∃ a, x = .ok a ∧ f a = .ok b := by
  cases x <;> simp [bind, Except.bind]

/-- A sequence fails in its first step, or in the second one after the first has succeeded. -/
theorem bind_eq_error {x : Except ε α} {f : α → Except ε β} {error : ε}
    : x >>= f = .error error ↔ x = .error error ∨ ∃ a, x = .ok a ∧ f a = .error error := by
  cases x <;> simp [bind, Except.bind]

/-- Mapping succeeds exactly when what is mapped does. -/
theorem map_eq_ok {x : Except ε α} {f : α → β} {b : β}
    : f <$> x = .ok b ↔ ∃ a, x = .ok a ∧ f a = b := by
  cases x <;> simp [Functor.map, Except.map]

theorem pure_eq_ok {a b : α} : (pure a : Except ε α) = .ok b ↔ a = b := by
  simp [pure, Except.pure]

theorem ok_bind {a : α} {f : α → Except ε β} : (Except.ok a >>= f) = f a := rfl

theorem bind_of_error {x : Except ε α} {f : α → Except ε β} {error : ε} (h : x = .error error)
    : x >>= f = .error error := by
  rw [h]
  rfl

/-- Renaming errors does not touch results. -/
theorem mapError_eq_ok {δ : Type} {x : Except ε α} {f : ε → δ} {a : α}
    : x.mapError f = .ok a ↔ x = .ok a := by
  cases x with
  | ok _ => exact ⟨fun h => congrArg _ (Except.ok.inj h), fun h => congrArg _ (Except.ok.inj h)⟩
  | error _ => exact ⟨nofun, nofun⟩

/-- A renamed error comes from one before the renaming. -/
theorem mapError_eq_error {δ : Type} {x : Except ε α} {f : ε → δ} {error : δ}
    : x.mapError f = .error error ↔ ∃ cause, x = .error cause ∧ f cause = error := by
  cases x with
  | ok _ => exact ⟨nofun, nofun⟩
  | error cause =>
      refine ⟨fun h => ⟨cause, rfl, Except.error.inj h⟩, ?_⟩
      rintro ⟨cause', same, rfl⟩
      obtain rfl := Except.error.inj same
      rfl

-----------------------------------------------------------------------------------------
-- Good and bad computations
-----------------------------------------------------------------------------------------

/-- A good computation has the result, and a bad one fails with an error of the kind. -/
def Yields (Bad : ε → Prop) (good : Bool) (x : Except ε α) (result : α) : Prop :=
  if good then x = .ok result else ∃ error, x = .error error ∧ Bad error

namespace Yields

variable {Bad : ε → Prop} {good good' : Bool} {x : Except ε α} {a : α} {b : β}

theorem of_ok (h : x = .ok a) : Yields Bad true x a := by
  simpa [Yields] using h

theorem eq_ok (h : Yields Bad true x a) : x = .ok a := by
  simpa [Yields] using h

/-- A bad input yields an error of the given kind. -/
theorem exists_error (h : Yields Bad false x a) : ∃ error, x = .error error ∧ Bad error := by
  simpa [Yields] using h

/-- Only good computations have results. -/
theorem good_of_ok {a' : α} (h : Yields Bad good x a) (isOk : x = .ok a') : good = true := by
  cases good with
  | true => rfl
  | false =>
      obtain ⟨error, failed, _⟩ := h.exists_error
      cases isOk.symm.trans failed

/-- Computations compose: the second one counts once the first one is good. -/
theorem bind {f : α → Except ε β} (first : Yields Bad good x a)
    (second : Yields Bad good' (f a) b)
    : Yields Bad (good && good') (x >>= f) b := by
  cases good with
  | true =>
      rw [first.eq_ok, ok_bind]
      simpa using second
  | false =>
      obtain ⟨error, rfl, bad⟩ := first.exists_error
      exact ⟨error, rfl, bad⟩

/-- A computation whose result is only looked at afterwards. -/
theorem bind_ok {f : α → Except ε β} (first : Yields Bad good x a) (second : f a = .ok b)
    : Yields Bad good (x >>= f) b := by
  simpa using first.bind (of_ok second)

/-- A computation of which the errors are seen as others. -/
theorem mapError {δ : Type} {Bad' : δ → Prop} {f : ε → δ} (h : Yields Bad good x a)
    (bad : ∀ error, Bad error → Bad' (f error))
    : Yields Bad' good (x.mapError f) a := by
  cases good with
  | true =>
      rw [h.eq_ok]
      exact of_ok rfl
  | false =>
      obtain ⟨error, rfl, isBad⟩ := h.exists_error
      exact ⟨f error, rfl, bad error isBad⟩

end Yields

-----------------------------------------------------------------------------------------
-- Two computations
-----------------------------------------------------------------------------------------

/-- Both computations have results, or both fail. -/
inductive Related {ε α β : Type} (E : ε → ε → Prop) (R : α → β → Prop)
    : Except ε α → Except ε β → Prop
  | ok {a b} (results : R a b) : Related E R (.ok a) (.ok b)
  | error {e e'} (errors : E e e') : Related E R (.error e) (.error e')

namespace Related

variable {ε δ α β γ κ : Type} {E : ε → ε → Prop} {R : α → β → Prop} {S : γ → κ → Prop}
  {x : Except ε α} {y : Except ε β}

/-- Related steps in sequence are related, if the second ones are for related results. -/
theorem bind {f : α → Except ε γ} {g : β → Except ε κ} (first : Related E R x y)
    (second : ∀ a b, R a b → Related E S (f a) (g b))
    : Related E S (x >>= f) (y >>= g) := by
  cases first with
  | ok results => exact second _ _ results
  | error errors => exact .error errors

/-- Related computations stay so when related results are mapped to related ones. -/
theorem map {f : α → γ} {g : β → κ} (h : Related E R x y)
    (results : ∀ a b, R a b → S (f a) (g b))
    : Related E S (f <$> x) (g <$> y) := by
  cases h with
  | ok related => exact .ok (results _ _ related)
  | error errors => exact .error errors

/-- Related computations stay so when related errors are renamed to related ones. -/
theorem mapError {D : δ → δ → Prop} {f : ε → δ} (h : Related E R x y)
    (errors : ∀ e e', E e e' → D (f e) (f e'))
    : Related D R (x.mapError f) (y.mapError f) := by
  cases h with
  | ok results => exact .ok results
  | error related => exact .error (errors _ _ related)

/-- Related computations compose when errors and results do. -/
theorem trans {D : ε → ε → Prop} {S : β → γ → Prop} {T : α → γ → Prop} {z : Except ε γ}
    (first : Related E R x y) (second : Related E S y z)
    (errors : ∀ e e' e'', E e e' → E e' e'' → D e e'')
    (results : ∀ a b c, R a b → S b c → T a c)
    : Related D T x z := by
  cases first with
  | ok related =>
      cases second with
      | ok related' => exact .ok (results _ _ _ related related')
  | error related =>
      cases second with
      | error related' => exact .error (errors _ _ _ related related')

theorem imp {D : ε → ε → Prop} {S : α → β → Prop} (h : Related E R x y)
    (errors : ∀ e e', E e e' → D e e') (results : ∀ a b, R a b → S a b)
    : Related D S x y := by
  cases h with
  | ok related => exact .ok (results _ _ related)
  | error related => exact .error (errors _ _ related)

/-- With reflexive relations, a computation is related to itself. -/
theorem of_eq {E : ε → ε → Prop} {R : α → α → Prop} (errors : ∀ e, E e e)
    (results : ∀ a, R a a) (x : Except ε α)
    : Related E R x x := by
  cases x with
  | ok a => exact .ok (results a)
  | error e => exact .error (errors e)

/-- Of two related computations, both succeed or none does. -/
theorem exists_ok_iff (h : Related E R x y) : (∃ a, x = .ok a) ↔ ∃ b, y = .ok b := by
  cases h <;> simp

/-- The results of related computations are related. -/
theorem results {a : α} {b : β} (h : Related E R x y) (first : x = .ok a) (second : y = .ok b)
    : R a b := by
  subst first second
  cases h with
  | ok results => exact results

end Related

end Outcome

end JsonPath
