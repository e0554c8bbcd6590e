import JsonPath.Function.Extension
import JsonPath.Proofs.Function.Catalogues
import JsonPath.Session

/-! Sessions over any sequence of uses. What has been registered can always be registered
again, so that a session never fails to get the functions for a query, and every query is
answered as by a session that has only had the latest registration of each name.
-/

namespace JsonPath.Session

variable {session : Session} {name : Text} {candidate : Candidate}

-----------------------------------------------------------------------------------------
-- Runs
-----------------------------------------------------------------------------------------

/-- The session after some uses of it, failed ones among them. -/
def after (session : Session) : List Use → Session
  | [] => session
  | use :: uses => (session.step use).1.after uses

/-- What a use registers: nothing unless it is a registration that succeeds. -/
def registration (session : Session) (use : Use) : List (Text × Candidate) :=
  match use with
  | .register name candidate =>
    match (session.step use).2 with
    | .ok _ => [(name, candidate)]
    | .error _ => []
  | _ => []

/-- What some uses register, the latest first. -/
def registrations (session : Session) : List Use → List (Text × Candidate)
  | [] => []
  | use :: uses => (session.step use).1.registrations uses ++ session.registration use

-----------------------------------------------------------------------------------------
-- One use
-----------------------------------------------------------------------------------------

/-- A valid registration enters its function and changes nothing else. -/
theorem step_of_valid {function : Function} (valid : candidate.validate name = .ok function)
    : session.step (.register name candidate)
        = (⟨session.document, session.offers.enter name candidate⟩, .ok (.registered name)) := by
  rw [step, register, valid]
  rfl

/-- A registration that is refused leaves the session as it was. -/
theorem step_of_invalid {error : RegistrationError}
    (invalid : candidate.validate name = .error error)
    : session.step (.register name candidate) = (session, .error (.registration error)) := by
  rw [step, register, invalid]
  rfl

/-- A registration that succeeds enters what it offers, and any other use leaves the session
as it was.
-/
theorem step_cases (session : Session) (use : Use)
    : (∃ name candidate function,
          candidate.validate name = .ok function
          ∧ session.step use
              = (⟨session.document, session.offers.enter name candidate⟩,
                  .ok (.registered name))
          ∧ session.registration use = [(name, candidate)])
      ∨ ((session.step use).1 = session ∧ session.registration use = []) := by
  cases use with
  | register name candidate =>
      cases valid : candidate.validate name with
      | ok function =>
          refine .inl ⟨name, candidate, function, valid, step_of_valid valid, ?_⟩
          simp only [registration, step_of_valid valid]
      | error error => exact .inr (by simp only [registration, step_of_invalid valid, and_self])
  | find | findOne | findNodes | findText => exact .inr ⟨rfl, rfl⟩

/-- A use that fails leaves the session as it was. -/
theorem step_of_error {use : Use} {error : RequestError}
    (h : (session.step use).2 = .error error)
    : (session.step use).1 = session := by
  obtain ⟨_, _, _, -, entered, -⟩ | ⟨unchanged, -⟩ := session.step_cases use
  · rw [entered] at h
    cases h
  · exact unchanged

/-- No use changes the document. -/
theorem document_step (session : Session) (use : Use)
    : (session.step use).1.document = session.document := by
  obtain ⟨_, _, _, -, entered, -⟩ | ⟨unchanged, -⟩ := session.step_cases use
  · rw [entered]
  · rw [unchanged]

/-- A use keeps every registered function valid. -/
theorem isValid_step (h : session.offers.IsValid) (use : Use)
    : (session.step use).1.offers.IsValid := by
  obtain ⟨name, candidate, function, valid, entered, -⟩ | ⟨unchanged, -⟩ :=
    session.step_cases use
  · rw [entered]
    refine ⟨Catalogue.nodup_enter name candidate h.distinct, fun offer member => ?_⟩
    rcases Catalogue.mem_enter member with rfl | before
    · exact ⟨function, valid⟩
    · exact h.valid offer before
  · rwa [unchanged]

/-- Behind a use, a name stands for what it registers, or for what it stood for before. -/
theorem lookup_step (session : Session) (use : Use) (name : Text)
    : (session.step use).1.offers.lookup name
        = ((session.registration use).lookup name).or (session.offers.lookup name) := by
  obtain ⟨name', candidate, _, -, entered, registered⟩ | ⟨unchanged, nothing⟩ :=
    session.step_cases use
  · rw [entered, registered, Catalogue.lookup_enter, Catalogue.lookup_first]
    split <;> rfl
  · rw [unchanged, nothing]
    rfl

/-- What a use gives depends on the document with its functions only. -/
theorem outcome_congr {other : Session} (same : session.context = other.context) (use : Use)
    : (session.step use).2 = (other.step use).2 := by
  cases use with
  | register name candidate =>
      cases valid : candidate.validate name with
      | ok _ => rw [step_of_valid valid, step_of_valid valid]
      | error _ => rw [step_of_invalid valid, step_of_invalid valid]
  | find | findOne | findNodes | findText =>
      simp only [step, find, findOne, findNodes, findText, same]

-----------------------------------------------------------------------------------------
-- Any number of uses
-----------------------------------------------------------------------------------------

/-- No run of uses changes the document, by induction on the uses. -/
theorem document_after (session : Session) (uses : List Use)
    : (session.after uses).document = session.document := by
  induction uses generalizing session with
  | nil => rfl
  | cons use uses ih => exact (ih _).trans (session.document_step use)

/-- A run of uses keeps every registered function valid, by induction on the uses. -/
theorem isValid_after (h : session.offers.IsValid) (uses : List Use)
    : (session.after uses).offers.IsValid := by
  induction uses generalizing session with
  | nil => exact h
  | cons use uses ih => exact ih (isValid_step h use)

/-- The latest registration of a name is the one that counts, whatever came in between. -/
theorem lookup_after (session : Session) (uses : List Use) (name : Text)
    : (session.after uses).offers.lookup name
        = ((session.registrations uses).lookup name).or (session.offers.lookup name) := by
  induction uses generalizing session with
  | nil => rfl
  | cons use uses ih =>
      rw [after, ih, lookup_step, registrations, List.lookup_append, Option.or_assoc]

-----------------------------------------------------------------------------------------
-- Queries
-----------------------------------------------------------------------------------------

/-- The functions of a session with valid offers are its registered functions besides those
that every query can call.
-/
theorem context_of_isValid (h : session.offers.IsValid)
    : session.context = .ok (.of session.document session.offers.registry) :=
  Context.load_of_isValid h session.document

/-- Sessions on one document with the same offers have the same functions. -/
theorem context_congr {other : Session} (document : session.document = other.document)
    (h : session.offers.IsValid) (h' : other.offers.IsValid)
    (same : ∀ name, session.offers.lookup name = other.offers.lookup name)
    : session.context = other.context := by
  rw [context_of_isValid h, context_of_isValid h', document]
  refine congrArg _ (Context.of_congr _ fun name => ?_)
  rw [Catalogue.lookup_registry h.distinct, Catalogue.lookup_registry h'.distinct, same]

/-- At every point of a session, whatever was tried before, what is registered is sound, a
failure changes nothing, and everything is answered as by a session on the same document that
holds the latest registration of each name and nothing else.
-/
theorem latest_registrations_count (document : Value) (uses : List Use)
    {latest : Catalogue Candidate} (distinct : (latest.map Prod.fst).Nodup)
    (isLatest : ∀ name,
      latest.lookup name = ((ofDocument document).registrations uses).lookup name)
    : let session := (ofDocument document).after uses
      (∀ offer ∈ session.offers,
          Grammar.IsFunctionName offer.1 ∧ Builtin.ofName? offer.1 = none
          ∧ ∃ function, Candidate.validate offer.1 offer.2 = .ok function)
      ∧ (∃ context plain,
          session.context = .ok context ∧ Context.load document latest = .ok context
          ∧ Context.load document [] = .ok plain
          ∧ ∀ builtin : Builtin,
              context.function? builtin.name = plain.function? builtin.name)
      ∧ (∀ use error, (session.step use).2 = .error error → (session.step use).1 = session)
      ∧ ∀ use, (session.step use).2 = (Session.step ⟨document, latest⟩ use).2 := by
  intro session
  have same (name : Text) : latest.lookup name = session.offers.lookup name := by
    rw [isLatest, lookup_after]
    exact Option.or_none.symm
  have valid : session.offers.IsValid := isValid_after .nil uses
  have validLatest : latest.IsValid := valid.of_same distinct same
  have isFresh : session.context = Session.context ⟨document, latest⟩ :=
    context_congr (document_after _ uses) valid validLatest fun name => (same name).symm
  refine ⟨?_, ?_, fun use error => step_of_error, outcome_congr isFresh⟩
  · intro offer member
    obtain ⟨function, isValid⟩ := valid.valid offer member
    obtain ⟨isName, notTaken⟩ := Candidate.name_of_validate isValid
    exact ⟨isName, notTaken, function, isValid⟩
  · have loaded := Context.load_of_isValid validLatest document
    have loadedPlain := Context.load_of_isValid .nil document
    refine ⟨_, _, isFresh.trans loaded, loaded, loadedPlain, fun builtin => ?_⟩
    rw [Context.function?_builtin, Context.function?_builtin]

def flagName : Text :=
  [.char 'f']

/-- Selects the elements for which the flag holds. -/
def flagged : Request :=
  .built [.filter (.call flagName [.current []])]

/-- Registrations of the flag, the first and the last one without success, and one under a name
that every query can call.
-/
def flagUses : List Use := [
  .register flagName .untyped,
  .register flagName (.ofFunction Extension.always),
  .find flagged,
  .register Builtin.length.name (.ofFunction Extension.truthy),
  .register flagName (.ofFunction Extension.truthy),
  .register flagName (.foreign [])
]

/-- The flag is what it was at the last registration that succeeded. -/
theorem flag_counts
    : ([(flagName, Candidate.ofFunction Extension.truthy)].map Prod.fst).Nodup
      ∧ (∀ name,
          List.lookup name [(flagName, Candidate.ofFunction Extension.truthy)]
            = ((ofDocument (.array [.null, .bool true])).registrations flagUses).lookup name)
      ∧ (((ofDocument (.array [.null, .bool true])).after flagUses).step (.find flagged)).2
          = .ok (.values [.bool true]) := by
  have distinct : ([(flagName, Candidate.ofFunction Extension.truthy)].map Prod.fst).Nodup := by
    simp
  have registered : (ofDocument (.array [.null, .bool true])).registrations flagUses
      = [(flagName, .ofFunction Extension.truthy), (flagName, .ofFunction Extension.always)] :=
    rfl
  have isLatest (name : Text)
      : List.lookup name [(flagName, Candidate.ofFunction Extension.truthy)]
          = ((ofDocument (.array [.null, .bool true])).registrations flagUses).lookup name := by
    rw [registered]
    simp only [Catalogue.lookup_first]
    split <;> rfl
  obtain ⟨_, _, _, answers⟩ :=
    latest_registrations_count (.array [.null, .bool true]) flagUses distinct isLatest
  exact ⟨distinct, isLatest, (answers (.find flagged)).trans rfl⟩

end JsonPath.Session
