import JsonPath.CommandLine.Run
import JsonPath.Proofs.Outcome

/-! Runs on the lines of the input. Such a run is one run for each line that holds more than
white space, in their order, and a line that fails takes nothing away from the others.
-/

namespace JsonPath

-----------------------------------------------------------------------------------------
-- Lines of a text
-----------------------------------------------------------------------------------------

namespace Text

/-- No carriage return is left when newlines are unified. -/
theorem return_not_mem_unifyNewlines (t : Text) : .char '\r' ∉ unifyNewlines t := by
  fun_induction unifyNewlines t with
  | case1 => exact List.not_mem_nil
  | case2 rest ih => simpa using ih
  | case3 rest notFeed ih => simpa using ih
  | case4 c rest notReturnFeed notReturn ih =>
      rw [List.mem_cons, not_or]
      exact ⟨fun isReturn => notReturn isReturn.symm, ih⟩

/-- Without carriage returns, there is nothing to unify. -/
theorem unifyNewlines_of_not_mem {t : Text} (h : .char '\r' ∉ t) : unifyNewlines t = t := by
  fun_induction unifyNewlines t with
  | case1 => rfl
  | case2 rest ih => exact absurd List.mem_cons_self h
  | case3 rest notFeed ih => exact absurd List.mem_cons_self h
  | case4 c rest notReturnFeed notReturn ih =>
      rw [ih fun member => h (List.mem_cons_of_mem c member)]

theorem mem_of_mem_strip {t : Text} {c : CodePoint} (h : c ∈ strip t) : c ∈ t := by
  have inside := (List.dropWhile_suffix _).subset (List.mem_reverse.mp h)
  exact (List.dropWhile_suffix _).subset (List.mem_reverse.mp inside)

end Text

namespace CommandLine

open JsonPath.Outcome

/-- Lines are what stands between line feeds. -/
theorem splitLines_eq_splitOn (t : Text) : splitLines t = t.splitOn (.char '\n') := by
  fun_induction splitLines t with
  | case1 => rw [List.splitOn_nil]
  | case2 rest ih => rw [List.splitOn_cons_eq_if_modifyHead, if_pos (beq_self_eq_true _), ih]
  | case3 c rest notFeed none ih => exact absurd (ih.symm.trans none) (List.splitOn_ne_nil _ _)
  | case4 c rest notFeed line lines split ih =>
      rw [List.splitOn_cons_eq_if_modifyHead, ← ih, split]
      simpa using notFeed

/-- What is on a line of a text is in the text. -/
theorem mem_of_mem_splitLines {t line : Text} {c : CodePoint} (isLine : line ∈ splitLines t)
    (h : c ∈ line)
    : c ∈ t := by
  fun_induction splitLines t generalizing line with
  | case1 =>
      obtain rfl := List.mem_singleton.mp isLine
      exact h
  | case2 rest ih =>
      rcases List.mem_cons.mp isLine with rfl | isLine
      · exact absurd h List.not_mem_nil
      · exact List.mem_cons_of_mem _ (ih isLine h)
  | case3 first rest notFeed none ih =>
      obtain rfl := List.mem_singleton.mp isLine
      exact List.mem_cons.mpr (.inl (List.mem_singleton.mp h))
  | case4 first rest notFeed line' lines split ih =>
      rw [split] at ih
      rcases List.mem_cons.mp isLine with rfl | isLine
      · exact (List.mem_cons.mp h).elim (fun same => List.mem_cons.mpr (.inl same))
          fun member => List.mem_cons_of_mem _ (ih List.mem_cons_self member)
      · exact List.mem_cons_of_mem _ (ih (List.mem_cons_of_mem _ isLine) h)

/-- Line ends are unified on the lines of a text once they are unified in the text. -/
theorem unifyNewlines_line {input line : Text}
    (isLine : line ∈ documentLines (Text.unifyNewlines input))
    : Text.unifyNewlines line = line := by
  obtain ⟨inside, -⟩ := List.mem_filter.mp isLine
  obtain ⟨whole, isWhole, rfl⟩ := List.mem_map.mp inside
  refine Text.unifyNewlines_of_not_mem fun member => ?_
  exact Text.return_not_mem_unifyNewlines input
    (mem_of_mem_splitLines isWhole (Text.mem_of_mem_strip member))

-----------------------------------------------------------------------------------------
-- One document
-----------------------------------------------------------------------------------------

/-- The run has ended by itself, and has written nothing unless in good order. -/
inductive Outcome.IsSettled : Outcome → Prop
  | good {output errors} : IsSettled ⟨output, errors, .ok 0⟩
  | failed {errors} : IsSettled ⟨[], errors, .ok 1⟩

/-- Unless much is to be told, a failure that is not fatal prints nothing and ends with code 1.
-/
theorem Outcome.isSettled_failed {verbosity : Nat} {error : RunError} (h : verbosity ≤ 1)
    (notFatal : error.isFatal = false)
    : (failed verbosity error).IsSettled := by
  have notLoud : ¬2 ≤ verbosity := by omega
  simp only [failed, notFatal, decide_eq_false notLoud, Bool.or_self, Bool.false_eq_true,
    if_false]
  split <;> exact .failed

/-- A query that is given as such is not read, so that no integer in it is too large to be
read.
-/
theorem not_isFatal_of_findNodes {session : Session} {query : Query} {error : RequestError}
    (h : session.findNodes (.built query) = .error error)
    : (RunError.request error).isFatal = false := by
  rcases bind_eq_error.mp h with unloaded | ⟨context, _, h⟩
  · obtain ⟨_, _, rfl⟩ := mapError_eq_error.mp unloaded
    rfl
  rcases bind_eq_error.mp h with incomplete | ⟨completed, _, h⟩
  · obtain ⟨_, _, rfl⟩ := mapError_eq_error.mp incomplete
    rfl
  obtain ⟨_, _, rfl⟩ := mapError_eq_error.mp h
  rfl

/-- No error of a query on an input is fatal. -/
theorem not_isFatal_of_result {options : Options} {query : Query} {t : Text}
    {error : RequestError} (h : result options query t = .error error)
    : (RunError.request error).isFatal = false := by
  rcases bind_eq_error.mp h with malformed | ⟨session, _, h⟩
  · obtain ⟨_, _, rfl⟩ := mapError_eq_error.mp malformed
    rfl
  split at h
  next =>
    obtain failed | ⟨_, _, written⟩ := bind_eq_error.mp h
    · exact not_isFatal_of_findNodes failed
    · cases written
  next =>
    obtain failed | ⟨_, _, written⟩ := bind_eq_error.mp h
    · obtain failed | ⟨_, _, found⟩ := bind_eq_error.mp failed
      · exact not_isFatal_of_findNodes failed
      · cases found
    · cases written

/-- Every input is run to an exit code, with output or with an error. -/
theorem isSettled_runOn {options : Options} (h : options.verbosity ≤ 1) (query : Query)
    (t : Text)
    : (runOn options query t).IsSettled := by
  unfold runOn
  split
  next => exact .good
  next error failed => exact Outcome.isSettled_failed h (not_isFatal_of_result failed)

-----------------------------------------------------------------------------------------
-- Many documents
-----------------------------------------------------------------------------------------

namespace Outcome

variable {first second : Outcome} {run : Text → Outcome} {documents : List Text}

/-- The exit code is 1 if something has failed, and 0 otherwise. -/
def Tells (outcome : Outcome) (failed : Prop) : Prop :=
  (failed ∧ outcome.ending = .ok 1) ∨ (¬failed ∧ outcome.ending = .ok 0)

/-- A settled run tells by its code whether it failed. -/
theorem IsSettled.tells (h : first.IsSettled) : first.Tells (first.ending = .ok 1) := by
  cases h with
  | good => exact .inr ⟨nofun, rfl⟩
  | failed => exact .inl ⟨rfl, rfl⟩

/-- After a run that ends with a code, the other one is run, and the greater code counts. -/
theorem andThen_of_ok {code : Nat} (h : first.ending = .ok code) (second : Outcome)
    : first.andThen second
        = ⟨first.output ++ second.output, first.errors ++ second.errors,
            second.ending.map (Nat.max code)⟩ := by
  rw [andThen, h]

/-- Of two runs, the codes tell whether one of them failed. -/
theorem Tells.andThen {failed failed' : Prop} (h : first.Tells failed)
    (h' : second.Tells failed')
    : (first.andThen second).Tells (failed ∨ failed') := by
  rcases h with ⟨isFailed, ending⟩ | ⟨notFailed, ending⟩ <;>
    rcases h' with ⟨isFailed', ending'⟩ | ⟨notFailed', ending'⟩ <;>
    rw [andThen_of_ok ending, ending']
  · exact .inl ⟨.inl isFailed, rfl⟩
  · exact .inl ⟨.inl isFailed, rfl⟩
  · exact .inl ⟨.inr isFailed', rfl⟩
  · exact .inr ⟨not_or.mpr ⟨notFailed, notFailed'⟩, rfl⟩

/-- A settled run is followed by all that the other one writes. -/
theorem IsSettled.andThen (h : first.IsSettled) (second : Outcome)
    : (first.andThen second).output = first.output ++ second.output
      ∧ (first.andThen second).errors = first.errors ++ second.errors := by
  rcases h.tells with ⟨-, ending⟩ | ⟨-, ending⟩ <;>
    rw [andThen_of_ok ending] <;>
    exact ⟨rfl, rfl⟩

/-- Runs that settle are all carried out, by induction on what is left to do. -/
theorem written_inSequence (settled : ∀ document ∈ documents, (run document).IsSettled)
    : (inSequence run documents).output = documents.flatMap (fun t => (run t).output)
      ∧ (inSequence run documents).errors = documents.flatMap (fun t => (run t).errors) := by
  induction documents with
  | nil => exact ⟨rfl, rfl⟩
  | cons document documents ih =>
      obtain ⟨settles, others⟩ := List.forall_mem_cons.mp settled
      obtain ⟨output, errors⟩ := settles.andThen (inSequence run documents)
      obtain ⟨others_output, others_errors⟩ := ih others
      rw [inSequence, output, errors, others_output, others_errors]
      exact ⟨rfl, rfl⟩

/-- The exit code tells whether any of the runs has failed. -/
theorem tells_inSequence (settled : ∀ document ∈ documents, (run document).IsSettled)
    : (inSequence run documents).Tells
        (∃ document ∈ documents, (run document).ending = .ok 1) := by
  induction documents with
  | nil => exact .inr ⟨by simp, rfl⟩
  | cons document documents ih =>
      obtain ⟨settles, others⟩ := List.forall_mem_cons.mp settled
      simp only [inSequence, List.mem_cons, exists_eq_or_imp]
      exact settles.tells.andThen (ih others)

end Outcome

-----------------------------------------------------------------------------------------
-- Arguments
-----------------------------------------------------------------------------------------

/-- The same options, for each line of the input. -/
def Options.byLine (options : Options) : Options :=
  { options with lines := true }

namespace Progress

variable (progress : Progress)

def byLine : Progress :=
  { progress with options := progress.options.byLine }

/-- Closing the options does not depend on reading by line. -/
theorem close_byLine : progress.byLine.close = progress.close.byLine := by
  obtain ⟨⟨_, _, _, _, _, query⟩, run, _, _⟩ := progress
  cases query with
  | some query => rfl
  | none =>
      cases run with
      | nil => rfl
      | cons first run => cases run <;> rfl

/-- Each setting does the same when input is read by line. -/
theorem set_byLine (setting : Setting)
    : progress.byLine.set setting = byLine <$> progress.set setting := by
  cases setting with
  | flag flag => cases flag <;> rfl
  | indent argument =>
      rw [set, set]
      cases Text.toInt? argument <;> rfl
  | indentNext | leftOver => rfl

/-- Settings in a row do the same, by induction on the settings. -/
theorem foldlM_set_byLine (asked : List Setting)
    : asked.foldlM set progress.byLine = byLine <$> asked.foldlM set progress := by
  induction asked generalizing progress with
  | nil => rfl
  | cons setting asked ih =>
      rw [List.foldlM_cons, List.foldlM_cons, set_byLine]
      cases progress.set setting with
      | ok next => exact ih next
      | error _ => rfl

/-- Settings in front of further tokens do the same as long as these do. -/
theorem foldlM_scan_byLine (asked : List Setting) {rest : List Token}
    (ih : ∀ next : Progress, next.byLine.scan rest = byLine <$> next.scan rest)
    : (asked.foldlM set progress.byLine >>= fun next => next.scan rest)
        = byLine <$> (asked.foldlM set progress >>= fun next => next.scan rest) := by
  rw [foldlM_set_byLine]
  cases asked.foldlM set progress with
  | ok next => exact ih next
  | error _ => rfl

/-- It does not matter when the input is asked to be read line by line, by induction on the
arguments that are left.
-/
theorem scan_byLine (progress : Progress)
    : ∀ tokens, progress.byLine.scan tokens = byLine <$> progress.scan tokens
  | [] => congrArg Except.ok progress.close_byLine
  | .positional t :: rest => scan_byLine { progress with run := progress.run ++ [t] } rest
  | .separator :: rest => scan_byLine { progress with isSeparated := true } rest
  | .unknown :: rest => by
    rw [scan, scan, close_byLine]
    exact scan_byLine { progress.close with hasExtras := true } rest
  | .option flag isLong isAssigned argument :: rest => by
    rw [scan, scan, close_byLine]
    cases settings flag isLong isAssigned argument with
    | error _ => rfl
    | ok asked =>
        rw [ok_bind, ok_bind]
        split
        next =>
          split
          next argument rest =>
            exact foldlM_scan_byLine progress.close _ fun next => scan_byLine next rest
          next => rfl
        next => exact foldlM_scan_byLine progress.close asked fun next => scan_byLine next rest

end Progress

/-- The flag in front of other arguments changes nothing but how the input is read. -/
theorem Options.ofArguments_lines (arguments : List Text)
    : ofArguments ("--lines" :: arguments)
        = (fun (options, query) => (options.byLine, query)) <$> ofArguments arguments := by
  have classified : tokens ("--lines" :: arguments)
      = (.option .lines true false none :: ·) <$> tokens arguments :=
    rfl
  rw [ofArguments, ofArguments, classified]
  cases tokens arguments with
  | error _ => rfl
  | ok tokens =>
      have first : Progress.scan {} (.option .lines true false none :: tokens)
          = Progress.scan (Progress.byLine {}) tokens := by
        rw [Progress.scan]
        rfl
      change (Progress.scan {} (_ :: tokens) >>= _) = _ <$> (Progress.scan {} tokens >>= _)
      rw [first, Progress.scan_byLine]
      cases Progress.scan {} tokens with
      | error _ => rfl
      | ok progress =>
          obtain ⟨⟨_, _, _, _, _, query⟩, _, _, hasExtras⟩ := progress
          cases query <;> cases hasExtras <;> rfl

-----------------------------------------------------------------------------------------
-- Runs of the command
-----------------------------------------------------------------------------------------

/-- Called with valid arguments, the program runs the query on the input that is read. -/
theorem run_of_ofArguments {arguments : List Text} {options : Options} {argument : Text}
    {query : Query} (called : Options.ofArguments arguments = .ok (options, argument))
    (parses : queryOf argument = .ok query) {stdin input : Text}
    {read : Text → Except FileError Text}
    (isRead : (if options.file = "-" then .ok stdin else read options.file) = .ok input)
    : run arguments stdin read
        = .ok (options, runInput options query (Text.unifyNewlines input)) := by
  rw [run, called, ok_bind]
  simp only [runOptions, parses, isRead]
  rfl

/-- The command for each line of the input, `byLine`, does what the command for the whole input
does when it gets one line after another, white space at its ends removed and empty lines left
out.
-/
theorem run_byLine {byLine whole : List Text} {options : Options} {argument : Text}
    {query : Query}
    (calledByLine : Options.ofArguments byLine = .ok ({ options with lines := true }, argument))
    (calledWhole : Options.ofArguments whole = .ok ({ options with lines := false }, argument))
    (parses : queryOf argument = .ok query) (quiet : options.verbosity ≤ 1)
    {stdin input : Text} {read : Text → Except FileError Text}
    (isRead : (if options.file = "-" then .ok stdin else read options.file) = .ok input)
    : ∃ (outcome : Outcome) (single : Text → Outcome),
        let documents :=
          (((Text.unifyNewlines input).splitOn (.char '\n')).map Text.strip).filter (!·.isEmpty)
        run byLine stdin read = .ok ({ options with lines := true }, outcome)
        ∧ (∀ document ∈ documents,
            run whole document (fun _ => .ok document)
              = .ok ({ options with lines := false }, single document))
        ∧ outcome.output = documents.flatMap (fun document => (single document).output)
        ∧ outcome.errors = documents.flatMap (fun document => (single document).errors)
        ∧ outcome.Tells (∃ document ∈ documents, (single document).ending = .ok 1)
        ∧ ∀ document ∈ documents, (single document).IsSettled := by
  have documents_eq
      : (((Text.unifyNewlines input).splitOn (.char '\n')).map Text.strip).filter (!·.isEmpty)
        = documentLines (Text.unifyNewlines input) := by
    rw [documentLines, splitLines_eq_splitOn]
  have settled (document : Text) : (runOn options query document).IsSettled :=
    isSettled_runOn quiet query document
  rw [documents_eq]
  refine ⟨.inSequence (runOn options query) (documentLines (Text.unifyNewlines input)),
    runOn options query, run_of_ofArguments calledByLine parses isRead, ?_, ?_, ?_, ?_, ?_⟩
  · intro document isLine
    refine (run_of_ofArguments calledWhole parses (ite_self (Except.ok document))).trans ?_
    rw [unifyNewlines_line isLine]
    rfl
  · exact (Outcome.written_inSequence fun document _ => settled document).1
  · exact (Outcome.written_inSequence fun document _ => settled document).2
  · exact Outcome.tells_inSequence fun document _ => settled document
  · exact fun document _ => settled document

def identityOptions : Options where
  query := some "$"

/-- Two documents with a blank line and something that is no document between them. -/
def mixedInput : Text :=
  [.char '1', .char '\r', .char '\n', .char ' ', .char '\n', .char '?', .char '\n',
    .char ' ', .char '2']

/-- The documents are written in spite of what is between them. -/
theorem run_mixedInput
    : Options.ofArguments ["--lines", "$"] = .ok ({ identityOptions with lines := true }, "$")
      ∧ Options.ofArguments ["$"] = .ok ({ identityOptions with lines := false }, "$")
      ∧ queryOf "$" = .ok [] ∧ identityOptions.verbosity ≤ 1
      ∧ ∃ outcome,
          run ["--lines", "$"] mixedInput (fun name => .error (.notFound name))
              = .ok ({ identityOptions with lines := true }, outcome)
          ∧ outcome.output
              = [.char '[', .char '1', .char ']', .char '\n',
                .char '[', .char '2', .char ']', .char '\n']
          ∧ outcome.ending = .ok 1 := by
  have calledByLine : Options.ofArguments ["--lines", "$"]
      = .ok ({ identityOptions with lines := true }, "$") :=
    (Options.ofArguments_lines ["$"]).trans rfl
  have calledWhole : Options.ofArguments ["$"]
      = .ok ({ identityOptions with lines := false }, "$") :=
    rfl
  have parses : queryOf "$" = .ok [] := rfl
  have quiet : identityOptions.verbosity ≤ 1 := by decide
  have isRead : (if identityOptions.file = "-" then .ok mixedInput
      else .error (FileError.notFound identityOptions.file)) = Except.ok mixedInput :=
    rfl
  obtain ⟨outcome, single, ran, singles, output, -, tells, -⟩ :=
    run_byLine calledByLine calledWhole parses quiet isRead
  have documents
      : (((Text.unifyNewlines mixedInput).splitOn (.char '\n')).map Text.strip).filter
          (!·.isEmpty)
        = [[.char '1'], [.char '?'], [.char '2']] :=
    rfl
  rw [documents] at singles output tells
  have single_eq {document : Text} {alone : Outcome}
      (isDocument : document ∈ [[.char '1'], [.char '?'], [.char '2']])
      (ranAlone : run ["$"] document (fun _ => .ok document)
        = .ok ({ identityOptions with lines := false }, alone))
      : single document = alone :=
    (Prod.mk.inj (Except.ok.inj ((singles document isDocument).symm.trans ranAlone))).2
  have first : single [.char '1'] = .written [.char '[', .char '1', .char ']'] :=
    single_eq (by decide) rfl
  have second : single [.char '?'] = ⟨[], [], .ok 1⟩ := single_eq (by decide) rfl
  have third : single [.char '2'] = .written [.char '[', .char '2', .char ']'] :=
    single_eq (by decide) rfl
  refine ⟨calledByLine, calledWhole, parses, quiet, outcome, ran, ?_, ?_⟩
  · rw [output]
    simp only [List.flatMap_cons, first, second, third]
    rfl
  · rcases tells with ⟨-, ending⟩ | ⟨notFailed, -⟩
    · exact ending
    · exact absurd ⟨[.char '?'], by decide, by rw [second]⟩ notFailed

end CommandLine

end JsonPath
