import JsonPath.Function.Catalogue
import JsonPath.Proofs.Outcome
import JsonPath.Proofs.Reading.Names

/-! Catalogues by what they hold under each name. A function that is offered under a name of
its own can be entered without taking the place of one that every query can call, so that
valid offers give a document these functions besides those.
-/

namespace JsonPath

-----------------------------------------------------------------------------------------
-- Entries
-----------------------------------------------------------------------------------------

namespace Catalogue

variable {α : Type} {items : Catalogue α} {item : α} {name : Text}

/-- The first entry is found under its name and hides others of this name. -/
theorem lookup_first (name : Text) (item : α) (items : Catalogue α) (other : Text)
    : List.lookup other ((name, item) :: items)
        = if other = name then some item else items.lookup other := by
  rw [List.lookup_cons]
  by_cases same : other = name
  · simp [same]
  · have differs : (other == name) = false := beq_eq_false_iff_ne.mpr same
    rw [differs, if_neg same]

/-- An entered item is found under its name, and other names stand for what they did. -/
theorem lookup_enter (name : Text) (item : α) (items : Catalogue α) (other : Text)
    : (enter name item items).lookup other
        = if other = name then some item else items.lookup other := by
  induction items with
  | nil => rw [enter, lookup_first]
  | cons first items ih =>
      obtain ⟨name', item'⟩ := first
      rw [enter, lookup_first]
      split
      next same =>
        subst same
        rw [lookup_first]
        split <;> rfl
      next different =>
        rw [lookup_first, ih]
        split
        next isFirst =>
          subst isFirst
          rw [if_neg different]
        next => rfl

/-- Entering adds no name but its own. -/
theorem mem_names_enter {other : Text} (h : other ∈ (enter name item items).map Prod.fst)
    : other = name ∨ other ∈ items.map Prod.fst := by
  induction items with
  | nil => exact .inl (by simpa [enter] using h)
  | cons first items ih =>
      obtain ⟨name', item'⟩ := first
      rw [enter] at h
      split at h
      next same =>
        subst same
        exact .inr h
      next =>
        rcases List.mem_cons.mp h with rfl | member
        · exact .inr List.mem_cons_self
        · exact (ih member).imp_right (List.mem_cons_of_mem _)

/-- Entering an item under a name keeps the names distinct. -/
theorem nodup_enter (name : Text) (item : α) (distinct : (items.map Prod.fst).Nodup)
    : ((enter name item items).map Prod.fst).Nodup := by
  induction items with
  | nil => simp [enter]
  | cons first items ih =>
      obtain ⟨name', item'⟩ := first
      obtain ⟨notAgain, others⟩ := List.nodup_cons.mp distinct
      rw [enter]
      split
      next same =>
        subst same
        exact distinct
      next different =>
        refine List.nodup_cons.mpr ⟨fun member => ?_, ih others⟩
        exact (mem_names_enter member).elim different notAgain

/-- Entering adds no other entry than the new one. -/
theorem mem_enter {entry : Text × α} (h : entry ∈ enter name item items)
    : entry = (name, item) ∨ entry ∈ items := by
  induction items with
  | nil => exact .inl (List.mem_singleton.mp h)
  | cons first items ih =>
      obtain ⟨name', item'⟩ := first
      rw [enter] at h
      split at h
      next => exact (List.mem_cons.mp h).imp_right (List.mem_cons_of_mem _)
      next =>
        rcases List.mem_cons.mp h with rfl | member
        · exact .inr List.mem_cons_self
        · exact (ih member).imp_right (List.mem_cons_of_mem _)

/-- What is looked up is the item of the first entry with the name. -/
theorem mem_of_lookup (h : items.lookup name = some item) : (name, item) ∈ items := by
  induction items with
  | nil => cases h
  | cons first items ih =>
      obtain ⟨name', item'⟩ := first
      rw [lookup_first] at h
      split at h
      next same =>
        obtain rfl := Option.some.inj h
        rw [same]
        exact List.mem_cons_self
      next => exact List.mem_cons_of_mem _ (ih h)

/-- With distinct names, every entry is found under its name. -/
theorem lookup_of_mem (distinct : (items.map Prod.fst).Nodup) (h : (name, item) ∈ items)
    : items.lookup name = some item := by
  induction items with
  | nil => cases h
  | cons first items ih =>
      obtain ⟨name', item'⟩ := first
      obtain ⟨notAgain, others⟩ := List.nodup_cons.mp distinct
      rw [lookup_first]
      rcases List.mem_cons.mp h with same | member
      · obtain ⟨rfl, rfl⟩ := Prod.mk.inj same
        rw [if_pos rfl]
      · have different : name ≠ name' := by
          rintro rfl
          exact notAgain (List.mem_map.mpr ⟨_, member, rfl⟩)
        rw [if_neg different]
        exact ih others member

/-- Under a name without an entry, nothing is found. -/
theorem lookup_eq_none (absent : name ∉ items.map Prod.fst) : items.lookup name = none := by
  cases found : items.lookup name with
  | none => rfl
  | some item => exact absurd (List.mem_map.mpr ⟨_, mem_of_lookup found, rfl⟩) absent

-----------------------------------------------------------------------------------------
-- Loading
-----------------------------------------------------------------------------------------

/-- The builtin functions are found under their names. -/
theorem lookup_builtins (name : Text)
    : builtins.lookup name = (Builtin.ofName? name).map Builtin.function := by
  unfold builtins Builtin.ofName?
  generalize Builtin.all = all
  induction all with
  | nil => rfl
  | cons builtin all ih =>
      rw [List.map_cons, lookup_first, List.find?_cons]
      by_cases same : builtin.name = name
      · simp [same]
      · simp [same, Ne.symm same, ih]

variable {functions loaded : Catalogue Function} {offers : Catalogue Candidate}

/-- What is loaded is found under its name, and anything else is as before. -/
theorem lookup_load (distinct : (offers.map Prod.fst).Nodup)
    (h : load functions offers = .ok loaded) (name : Text)
    : loaded.lookup name
        = match offers.lookup name with
          | some candidate => (candidate.validate name).toOption
          | none => functions.lookup name := by
  induction offers generalizing functions with
  | nil =>
      obtain rfl := Except.ok.inj h
      rfl
  | cons first offers ih =>
      obtain ⟨name', candidate⟩ := first
      obtain ⟨notAgain, others⟩ := List.nodup_cons.mp distinct
      rw [load, Outcome.bind_eq_ok] at h
      obtain ⟨function, valid, h⟩ := h
      rw [ih others h, lookup_first]
      by_cases same : name = name'
      · subst same
        rw [lookup_eq_none notAgain, if_pos rfl, lookup_enter, if_pos rfl]
        exact congrArg Except.toOption valid.symm
      · rw [if_neg same, lookup_enter, if_neg same]

/-- Each name is offered once, and what is offered under it can be registered. -/
structure IsValid (offers : Catalogue Candidate) : Prop where
  distinct : (offers.map Prod.fst).Nodup
  valid : ∀ offer ∈ offers, ∃ function, Candidate.validate offer.1 offer.2 = .ok function

theorem IsValid.nil : IsValid [] :=
  ⟨List.nodup_nil, fun _ member => absurd member List.not_mem_nil⟩

/-- Offers that are the same under each name are as good as each other, whatever their order.
-/
theorem IsValid.of_same {others : Catalogue Candidate} (h : offers.IsValid)
    (distinct : (others.map Prod.fst).Nodup)
    (same : ∀ name, others.lookup name = offers.lookup name)
    : others.IsValid := by
  refine ⟨distinct, fun offer member => h.valid offer (mem_of_lookup ?_)⟩
  rw [← same]
  exact lookup_of_mem distinct member

/-- Valid offers can all be loaded, by induction on the offers. -/
theorem exists_load
    (valid : ∀ offer ∈ offers, ∃ function, Candidate.validate offer.1 offer.2 = .ok function)
    (functions : Catalogue Function)
    : ∃ loaded, load functions offers = .ok loaded := by
  induction offers generalizing functions with
  | nil => exact ⟨functions, rfl⟩
  | cons first offers ih =>
      rw [List.forall_mem_cons] at valid
      obtain ⟨⟨function, isValid⟩, others⟩ := valid
      rw [load, isValid, Outcome.ok_bind]
      exact ih others _

end Catalogue

-----------------------------------------------------------------------------------------
-- Validation
-----------------------------------------------------------------------------------------

/-- The names that are accepted are those of the grammar. -/
theorem isFunctionName_sound {name : Text} (h : isFunctionName name)
    : Grammar.IsFunctionName name := by
  simp only [isFunctionName, Bool.and_eq_true, Bool.not_eq_true', List.isEmpty_iff,
    List.isEmpty_eq_false_iff] at h
  obtain ⟨notEmpty, all⟩ := h
  have whole : Syntax.word name = ((Syntax.word name).1, []) := by rw [← all]
  obtain ⟨same, isName⟩ := Syntax.word_sound whole
  rw [List.append_nil] at same
  rw [← same] at isName
  exact isName notEmpty

/-- What can be registered has a name that can be called and that is not taken. -/
theorem Candidate.name_of_validate {name : Text} {candidate : Candidate} {function : Function}
    (h : candidate.validate name = .ok function)
    : Grammar.IsFunctionName name ∧ Builtin.ofName? name = none := by
  unfold validate at h
  split at h
  next => cases h
  next isName =>
    split at h
    next => cases h
    next notTaken =>
      exact ⟨isFunctionName_sound (by simpa using isName), by simpa using notTaken⟩

-----------------------------------------------------------------------------------------
-- Contexts
-----------------------------------------------------------------------------------------

/-- The functions among the offers that can be registered. -/
def Catalogue.registry : Catalogue Candidate → Registry
  | [] => []
  | (name, candidate) :: offers =>
    match candidate.validate name with
    | .ok function => (name, function) :: registry offers
    | .error _ => registry offers

/-- In a registry, each name stands for the valid function that is offered under it. -/
theorem Catalogue.lookup_registry {offers : Catalogue Candidate}
    (distinct : (offers.map Prod.fst).Nodup) (name : Text)
    : offers.registry.lookup name
        = (offers.lookup name).bind fun candidate => (candidate.validate name).toOption := by
  induction offers with
  | nil => rfl
  | cons first offers ih =>
      obtain ⟨name', candidate⟩ := first
      obtain ⟨notAgain, others⟩ := List.nodup_cons.mp distinct
      rw [lookup_first, registry]
      by_cases same : name = name'
      · subst same
        rw [if_pos rfl, Option.bind_some]
        cases candidate.validate name with
        | ok function => simp [Except.toOption]
        | error _ => simp [ih others, lookup_eq_none notAgain, Except.toOption]
      · rw [if_neg same, ← ih others]
        cases candidate.validate name' with
        | ok function => simp [lookup_first, same]
        | error _ => rfl

/-- The context depends on what the names in a registry stand for only. -/
theorem Context.of_congr (root : Value) {registry registry' : Registry}
    (same : ∀ name, registry.lookup name = registry'.lookup name)
    : of root registry = of root registry' := by
  have functions : registry.function? = registry'.function? := by
    funext name
    simp only [Registry.function?, same]
  rw [of, of, functions]

/-- The functions that every query can call are the same whatever is registered. -/
theorem Context.function?_builtin (root : Value) (registry : Registry) (builtin : Builtin)
    : (of root registry).function? builtin.name = some builtin.function := by
  cases builtin <;> rfl

/-- Valid offers are loaded, and none of them takes the place of a function that every query
can call.
-/
theorem Context.load_of_isValid {offers : Catalogue Candidate} (h : offers.IsValid)
    (root : Value)
    : load root offers = .ok (of root offers.registry) := by
  obtain ⟨loaded, loaded_eq⟩ := Catalogue.exists_load h.valid .builtins
  have functions (name : Text) : loaded.lookup name = offers.registry.function? name := by
    rw [Catalogue.lookup_load h.distinct loaded_eq, Registry.function?,
      Catalogue.lookup_registry h.distinct]
    cases offered : offers.lookup name with
    | none =>
        rw [Catalogue.lookup_builtins]
        cases Builtin.ofName? name <;> rfl
    | some candidate =>
        obtain ⟨function, valid⟩ := h.valid _ (Catalogue.mem_of_lookup offered)
        simp only [(Candidate.name_of_validate valid).2, Option.bind_some]
  rw [load, loaded_eq, Outcome.ok_bind, funext functions]
  rfl

end JsonPath
