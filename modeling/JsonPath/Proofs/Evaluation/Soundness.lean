import JsonPath.Session

/-! What an evaluation can end in when no functions are registered. It is taken for every
way to read patterns at once: whether a call receives a pattern shows in what changes when
that pattern alone cannot be read.
-/

namespace JsonPath

/-- A way to read patterns. -/
abbrev Pattern.Compiler := Text → Except Pattern.Fault Pattern

namespace Pattern

variable {usual : Compiler} {pattern t : Text}

/-- The text is neither a pattern nor an invalid one, but goes beyond a limit. -/
def IsBeyondLimits (usual : Compiler) (t : Text) : Prop :=
  ∃ fault, usual t = .error fault ∧ fault ≠ .invalid

/-- Reads patterns with the given text as the only one beyond the limits. -/
def compileBut (usual : Compiler) (pattern : Text) : Compiler :=
  fun t => if t = pattern then .error .tooDeep else (usual t).mapError fun _ => .invalid

/-- The compiler that refuses a pattern refuses this one. -/
theorem compileBut_self (usual : Compiler) (t : Text)
    : compileBut usual t t = .error .tooDeep := by
  rw [compileBut, if_pos rfl]

/-- Texts within the limits are read as usual, when the excluded one is beyond them. -/
theorem compileBut_eq (beyond : IsBeyondLimits usual pattern) (within : ¬IsBeyondLimits usual t)
    : compileBut usual pattern t = usual t := by
  have different : t ≠ pattern := by
    rintro rfl
    exact within beyond
  rw [compileBut, if_neg different]
  cases read : usual t with
  | ok _ => rfl
  | error fault =>
      have invalid : fault = .invalid :=
        Decidable.byContradiction fun other => within ⟨fault, read, other⟩
      rw [invalid]
      rfl

end Pattern

/-- The context of a document with no functions registered and patterns as `compile` reads
them.
-/
def Context.builtins (compile : Pattern.Compiler) (root : Value) : Context where
  root
  function? := fun name => (Builtin.ofName? name).map (Builtin.functionWith compile)

namespace Context

variable (compile : Pattern.Compiler) (root : Value)

@[simp] theorem root_builtins : (builtins compile root).root = root :=
  rfl

/-- The functions without a registry are the builtin ones, with the given compiler. -/
@[simp] theorem function?_builtins (name : Text)
    : (builtins compile root).function? name
        = (Builtin.ofName? name).map (Builtin.functionWith compile) :=
  rfl

/-- What can be called without registered functions are those that every query can call. -/
theorem of_nil : of root [] = builtins Pattern.compile root := by
  unfold of builtins
  congr
  funext name
  unfold Registry.function?
  cases Builtin.ofName? name <;> rfl

end Context

/-- The result of an evaluation for each way to read patterns. -/
abbrev Evaluation (α : Type) :=
  Pattern.Compiler → Except EvaluationError α

namespace Evaluation

variable {α β : Type} {usual : Pattern.Compiler}

section Endings

variable (usual)

/-- Some call receives the pattern: the evaluation fails if that alone cannot be read. -/
def Reaches (evaluation : Evaluation α) (pattern : Text) : Prop :=
  ∃ name, evaluation (Pattern.compileBut usual pattern) = .error (.raised name)

/-- The evaluation has the result and receives no pattern beyond the limits. -/
def Settles (evaluation : Evaluation α) (result : Except EvaluationError α) : Prop :=
  evaluation usual = result
  ∧ ∀ pattern,
      Pattern.IsBeyondLimits usual pattern → evaluation (Pattern.compileBut usual pattern) = result

/-- A call of the function receives the pattern, which is beyond the limits, and fails. -/
structure Breaks (evaluation : Evaluation α) (name pattern : Text) : Prop where
  beyond : Pattern.IsBeyondLimits usual pattern
  fails : evaluation usual = .error (.raised name)
  reached : evaluation (Pattern.compileBut usual pattern) = .error (.raised name)

/-- The evaluation has a result, fails since one of the called functions is unknown, or
fails since a call receives a pattern beyond the limits.
-/
inductive Sound (called : List Text) (evaluation : Evaluation α) : Prop
  | found {a} (settles : evaluation.Settles usual (.ok a))
  | unknown {name} (isCalled : name ∈ called) (notBuiltin : Builtin.ofName? name = none)
    (settles : evaluation.Settles usual (.error (.unknownFunction name)))
  | raised {name pattern} (breaks : evaluation.Breaks usual name pattern)

end Endings

-----------------------------------------------------------------------------------------
-- Evaluations from others
-----------------------------------------------------------------------------------------

/-- What settles goes on with what follows its result. -/
theorem Settles.bind {x : Evaluation α} {f : α → Evaluation β} {a : α}
    {result : Except EvaluationError β} (first : x.Settles usual (.ok a))
    (second : (f a).Settles usual result)
    : Settles usual (fun compile => x compile >>= fun a => f a compile) result := by
  refine ⟨?_, fun pattern beyond => ?_⟩
  · dsimp only
    rw [first.1]
    exact second.1
  · dsimp only
    rw [first.2 pattern beyond]
    exact second.2 pattern beyond

/-- What settles with an error ends with it. -/
theorem Settles.bind_error {x : Evaluation α} {f : α → Evaluation β} {error : EvaluationError}
    (h : x.Settles usual (.error error))
    : Settles usual (fun compile => x compile >>= fun a => f a compile) (.error error) := by
  refine ⟨?_, fun pattern beyond => ?_⟩
  · dsimp only
    rw [h.1]
    rfl
  · dsimp only
    rw [h.2 pattern beyond]
    rfl

/-- Behind a result that is settled, a pattern can still break the evaluation. -/
theorem Settles.bind_breaks {x : Evaluation α} {f : α → Evaluation β} {a : α}
    {name pattern : Text} (first : x.Settles usual (.ok a)) (second : (f a).Breaks usual name pattern)
    : Breaks usual (fun compile => x compile >>= fun a => f a compile) name pattern := by
  refine ⟨second.beyond, ?_, ?_⟩
  · rw [first.1]
    exact second.fails
  · rw [first.2 pattern second.beyond]
    exact second.reached

/-- What a pattern breaks at first stays broken. -/
theorem Breaks.bind {x : Evaluation α} {f : α → Evaluation β} {name pattern : Text}
    (h : x.Breaks usual name pattern)
    : Breaks usual (fun compile => x compile >>= fun a => f a compile) name pattern := by
  refine ⟨h.beyond, ?_, ?_⟩
  · rw [h.fails]
    rfl
  · rw [h.reached]
    rfl

variable {called : List Text}

/-- The functions that may be called can be more than those that are. -/
theorem Sound.mono {called' : List Text} {x : Evaluation α} (h : x.Sound usual called)
    (included : called ⊆ called')
    : x.Sound usual called' := by
  cases h with
  | found settles => exact .found settles
  | unknown isCalled notBuiltin settles => exact .unknown (included isCalled) notBuiltin settles
  | raised breaks => exact .raised breaks

/-- A result is sound, whatever is called. -/
theorem Sound.ok (a : α) : Sound usual called fun _ => .ok a :=
  .found ⟨rfl, fun _ _ => rfl⟩

/-- The first evaluation decides how both end unless it has a result. -/
theorem Sound.bind {x : Evaluation α} {f : α → Evaluation β} (first : x.Sound usual called)
    (second : ∀ a, (f a).Sound usual called)
    : Sound usual called fun compile => x compile >>= fun a => f a compile := by
  cases first with
  | @found a settles =>
      cases second a with
      | found settles' => exact .found (settles.bind settles')
      | unknown isCalled notBuiltin settles' =>
          exact .unknown isCalled notBuiltin (settles.bind settles')
      | raised breaks => exact .raised (settles.bind_breaks breaks)
  | unknown isCalled notBuiltin settles =>
      exact .unknown isCalled notBuiltin settles.bind_error
  | raised breaks => exact .raised breaks.bind

/-- The functions called are those of both evaluations. -/
theorem Sound.bind_append {called' : List Text} {x : Evaluation α} {f : α → Evaluation β}
    (first : x.Sound usual called) (second : ∀ a, (f a).Sound usual called')
    : Sound usual (called ++ called') fun compile => x compile >>= fun a => f a compile :=
  (first.mono (List.subset_append_left _ _)).bind fun a =>
    (second a).mono (List.subset_append_right _ _)

/-- Mapping the result keeps an evaluation sound. -/
theorem Sound.map {x : Evaluation α} (f : α → β) (h : x.Sound usual called)
    : Sound usual called fun compile => f <$> x compile := by
  have bound : Sound usual called fun compile => x compile >>= fun a => .ok (f a) :=
    h.bind fun a => .ok (f a)
  exact bound

/-- Collecting is sound when each item is, by induction on the items. -/
theorem Sound.collect {results : α → Evaluation (List β)}
    (sound : ∀ item, (results item).Sound usual called) (items : List α)
    : Sound usual called fun compile => JsonPath.collect (fun item => results item compile) items := by
  induction items with
  | nil => exact .ok []
  | cons item items ih =>
      exact (sound item).bind fun first => ih.bind fun others => .ok (first ++ others)

/-- Filtering is sound when each test is, by induction on the items. -/
theorem Sound.keep {test : α → Evaluation Bool} (sound : ∀ item, (test item).Sound usual called)
    (items : List α)
    : Sound usual called fun compile => JsonPath.keep (fun item => test item compile) items := by
  induction items with
  | nil => exact .ok []
  | cons item items ih =>
      exact (sound item).bind fun isKept => ih.bind fun others =>
        .ok (if isKept then item :: others else others)

end Evaluation

-----------------------------------------------------------------------------------------
-- Safety
-----------------------------------------------------------------------------------------

/-- The result of an evaluation that calls functions: it is there or missing since one of
them is unknown, and it is there when all of them are known.
-/
structure IsSafe {α : Type} (called : List Text) (result : Except EvaluationError α) : Prop where
  foundOrUnknown
    : (∃ a, result = .ok a)
      ∨ ∃ name ∈ called,
          Builtin.ofName? name = none ∧ result = .error (.unknownFunction name)
  found : (∀ name ∈ called, (Builtin.ofName? name).isSome) → ∃ a, result = .ok a

namespace Evaluation

variable {α : Type} {evaluation : Evaluation α} {called : List Text}

/-- What settles on another ending neither raises nor reaches a pattern beyond the limits. -/
theorem Settles.raised_iff {result : Except EvaluationError α} (h : evaluation.Settles usual result)
    (notRaised : ∀ name, result ≠ .error (.raised name))
    : (∃ name, evaluation usual = .error (.raised name))
      ↔ ∃ pattern, Pattern.IsBeyondLimits usual pattern ∧ evaluation.Reaches usual pattern := by
  constructor
  · rintro ⟨name, raised⟩
    exact absurd (h.1.symm.trans raised) (notRaised name)
  · rintro ⟨pattern, beyond, name, reached⟩
    exact absurd ((h.2 pattern beyond).symm.trans reached) (notRaised name)

/-- A call fails exactly if some call receives a pattern beyond the limits. -/
theorem Sound.raised_iff (h : evaluation.Sound usual called)
    : (∃ name, evaluation usual = .error (.raised name))
      ↔ ∃ pattern, Pattern.IsBeyondLimits usual pattern ∧ evaluation.Reaches usual pattern := by
  cases h with
  | found settles => exact settles.raised_iff nofun
  | unknown _ _ settles => exact settles.raised_iff nofun
  | @raised name pattern breaks =>
      exact ⟨fun _ => ⟨pattern, breaks.beyond, name, breaks.reached⟩,
        fun _ => ⟨name, breaks.fails⟩⟩

/-- No call of an evaluation that has a result receives a pattern beyond the limits. -/
theorem Sound.isWithinLimits (h : evaluation.Sound usual called) {a : α}
    (result : evaluation usual = .ok a) {pattern : Text}
    (reaches : evaluation.Reaches usual pattern)
    : ¬Pattern.IsBeyondLimits usual pattern := by
  intro beyond
  obtain ⟨name, raised⟩ := h.raised_iff.mpr ⟨pattern, beyond, reaches⟩
  rw [result] at raised
  cases raised

/-- A sound evaluation is safe when all patterns it reaches are within the limits. -/
theorem Sound.isSafe (h : evaluation.Sound usual called)
    (within : ∀ pattern, evaluation.Reaches usual pattern → ¬Pattern.IsBeyondLimits usual pattern)
    : IsSafe called (evaluation usual) := by
  cases h with
  | @found a settles => exact ⟨.inl ⟨a, settles.1⟩, fun _ => ⟨a, settles.1⟩⟩
  | @unknown name isCalled notBuiltin settles =>
      refine ⟨.inr ⟨name, isCalled, notBuiltin, settles.1⟩, fun known => ?_⟩
      have isBuiltin := known name isCalled
      rw [notBuiltin] at isBuiltin
      cases isBuiltin
  | @raised name pattern breaks =>
      exact absurd breaks.beyond (within pattern ⟨name, breaks.reached⟩)

end Evaluation

end JsonPath
