import JsonPath.Proofs.Grammar.Enclosure
import JsonPath.Proofs.Grammar.Operands

/-! Parentheses around adjacent operands, or around the whole filter, do not change what a
filter spells. The part in focus is exchanged for another spelling, and since the grammar is
local and monotone the text around it spells the same as before.
-/

namespace JsonPath

namespace Expression

/-- How conjunctions and disjunctions are made: a single operand stands for itself, and of
several each contributes its parts to the whole.
-/
def merge (whole : List Expression → Expression) (parts : Expression → List Expression)
    : List Expression → Expression
  | [operand] => operand
  | operands => whole (operands.flatMap parts)

/-- Conjoining is merging by conjuncts. -/
theorem conjoin_eq_merge : conjoin = merge .conjunction conjuncts := by
  funext operands
  match operands with
  | [] => rfl
  | [_] => rfl
  | _ :: _ :: _ => rfl

/-- Disjoining is merging by disjuncts. -/
theorem disjoin_eq_merge : disjoin = merge .disjunction disjuncts := by
  funext operands
  match operands with
  | [] => rfl
  | [_] => rfl
  | _ :: _ :: _ => rfl

section Merge

variable {whole : List Expression → Expression} {parts : Expression → List Expression}

/-- Several operands merge to the whole of all their parts. -/
theorem merge_of_several {operands : List Expression} (several : 1 < operands.length)
    : merge whole parts operands = whole (operands.flatMap parts) := by
  unfold merge
  split
  next => simp at several
  next => rfl

/-- The parts of merged operands are the parts of each operand, in order. -/
theorem parts_merge (parts_whole : ∀ es, parts (whole es) = es) (operands : List Expression)
    : parts (merge whole parts operands) = operands.flatMap parts := by
  unfold merge
  split
  next => simp
  next => exact parts_whole _

/-- Only a single operand stands for itself. -/
theorem operands_of_merge {operands : List Expression} {e : Expression}
    (h : merge whole parts operands = e) (notWhole : ∀ es, whole es ≠ e)
    : operands = [e] := by
  unfold merge at h
  split at h
  next => rw [h]
  next => exact absurd h (notWhole _)

/-- What some operands are merged to can stand for them among others. -/
theorem merge_regrouped (parts_whole : ∀ es, parts (whole es) = es)
    {front run back : List Expression} (nonempty : run ≠ [])
    : merge whole parts (front ++ merge whole parts run :: back)
      = merge whole parts (front ++ run ++ back) := by
  by_cases alone : front = [] ∧ back = []
  · obtain ⟨rfl, rfl⟩ := alone
    simp [merge]
  · have others : 0 < front.length ∨ 0 < back.length := by
      simpa only [List.length_pos_iff, ← not_and_or] using alone
    have := List.length_pos_iff.mpr nonempty
    have several : 1 < (front ++ run ++ back).length := by
      simp only [List.length_append]
      omega
    have several' : 1 < (front ++ merge whole parts run :: back).length := by
      simp only [List.length_append, List.length_cons]
      omega
    rw [merge_of_several several, merge_of_several several']
    simp [parts_merge parts_whole]

/-- Merged operands make a test when each operand is one. -/
theorem isTest_merge (areTests : ∀ es, (whole es).IsTest) {operands : List Expression}
    (operandsAreTests : ∀ e ∈ operands, e.IsTest)
    : (merge whole parts operands).IsTest := by
  unfold merge
  split
  next e => exact operandsAreTests e (List.mem_singleton_self e)
  next => exact areTests _

end Merge

theorem isTest_conjunction (es : List Expression) : (conjunction es).IsTest :=
  ⟨rfl, nofun⟩

theorem isTest_disjunction (es : List Expression) : (disjunction es).IsTest :=
  ⟨rfl, nofun⟩

end Expression

namespace Grammar

open Syntax

/-- The spellings with a focus are spellings, and from the text at `start` on they can be
exchanged for ones with `start'` in its place.
-/
def Exchanges (start start' : Text) (Focused Leads Leads' : Text → Text → Prop) : Prop :=
  ∀ ⦃t rest⦄, Focused t rest
    → Leads t rest ∧ ∃ before, t = before ++ start ∧ Leads' (before ++ start') rest

/-- A word that is carried over can be moved in front of another rest. -/
theorem Carries.move {Leads Leads' : Text → Text → Prop} (carries : Carries Leads Leads')
    {word rest : Text} (h : Leads (word ++ rest) rest) (rest' : Text)
    : Leads' (word ++ rest') rest' := by
  obtain ⟨word', same, spells⟩ := carries h
  obtain rfl := List.append_cancel_right same
  exact spells rest'

-----------------------------------------------------------------------------------------
-- Items
-----------------------------------------------------------------------------------------

section Items

variable {α : Type} {Item Item' InItem : Production α} {operator start stop start' t rest : Text}

/-- Items joined behind others are joined with these, when the operator stands between them. -/
theorem joined_append {behind next : Text} {items others : List α}
    (h : Joined operator Item t items stop) (before : Blanks stop (operator ++ behind))
    (after : Blanks behind next) (behindThem : Joined operator Item next others rest)
    : Joined operator Item t (items ++ others) rest := by
  induction h with
  | one spelling => exact .more spelling before after behindThem
  | more first before' after' _ ih => exact .more first before' after' (ih before)

/-- The items of a run are joined where the run starts, whatever surrounds it. -/
theorem joined_of_run {front run back : List α}
    (h : Run Item operator start stop t front run back rest)
    : Joined operator Item start run stop := by
  induction h with
  | last spelling => exact spelling
  | followed spelling _ _ _ => exact spelling
  | later _ _ _ _ ih => exact ih

variable (carries : ∀ a, Carries (Item · a ·) (Item' · a ·))

include carries

/-- An item with an operator behind it is a word that can stand in front of any items. -/
theorem carries_operand {item : α} {afterItem behind next : Text} (first : Item t item afterItem)
    (before : Blanks afterItem (operator ++ behind)) (after : Blanks behind next)
    : ∃ word, t = word ++ next
      ∧ ∀ {next' items rest}, Joined operator Item' next' items rest
        → Joined operator Item' (word ++ next') (item :: items) rest := by
  obtain ⟨word, rfl, spells⟩ := carries _ first
  obtain ⟨blanks, rfl, areBlanks⟩ := isLocal_blanks before
  obtain ⟨blanks', rfl, areBlanks'⟩ := isLocal_blanks after
  refine ⟨word ++ (blanks ++ (operator ++ blanks')), by simp, fun others => ?_⟩
  simp only [List.append_assoc]
  exact .more (spells _) (areBlanks _) (areBlanks' _) others

/-- A single item can take the place of adjacent ones. -/
theorem exchanges_run {front run back : List α} {item : α}
    (h : Run Item operator start stop t front run back rest) (grouped : Item' start' item stop)
    : Joined operator Item t (front ++ run ++ back) rest
      ∧ ∃ before, t = before ++ start
        ∧ Joined operator Item' (before ++ start') (front ++ item :: back) rest := by
  induction h with
  | last spelling => exact ⟨by simpa using spelling, [], rfl, .one grouped⟩
  | followed spelling before after others =>
      have others' := (carries_joined carries operator _).widen others
      exact ⟨joined_append spelling before after others, [], rfl,
        .more grouped before after others'⟩
  | later first before after _ ih =>
      obtain ⟨word, rfl, isBehind⟩ := carries_operand carries first before after
      obtain ⟨spelling, before', rfl, changed⟩ := ih
      refine ⟨.more first before after spelling, word ++ before', by simp, ?_⟩
      rw [List.append_assoc]
      exact isBehind changed

variable (exchanges : ∀ a, Exchanges start start' (InItem · a ·) (Item · a ·) (Item' · a ·))

include exchanges

/-- A focus in one item of a row can be exchanged there, with the other items carried over. -/
theorem exchanges_repeated (items : List α)
    : Exchanges start start' (InRepeated Item InItem · items ·) (Repeated Item · items ·)
        (Repeated Item' · items ·) := by
  intro t rest h
  induction h with
  | first inside others =>
      obtain ⟨spelling, before, rfl, changed⟩ := exchanges _ inside
      exact ⟨.more spelling others, before, rfl,
        .more changed ((carries_repeated carries _).widen others)⟩
  | later first _ ih =>
      obtain ⟨word, rfl, spells⟩ := carries _ first
      obtain ⟨spelling, before, rfl, changed⟩ := ih
      refine ⟨.more first spelling, word ++ before, by simp, ?_⟩
      rw [List.append_assoc]
      exact .more (spells _) changed

/-- A focus in one of several joined items can be exchanged there. -/
theorem exchanges_joined (items : List α)
    : Exchanges start start' (InJoined Item InItem operator · items ·)
        (Joined operator Item · items ·) (Joined operator Item' · items ·) := by
  intro t rest h
  induction h with
  | one inside =>
      obtain ⟨spelling, before, rfl, changed⟩ := exchanges _ inside
      exact ⟨.one spelling, before, rfl, .one changed⟩
  | first inside before after others =>
      obtain ⟨spelling, before', rfl, changed⟩ := exchanges _ inside
      have others' := (carries_joined carries operator _).widen others
      exact ⟨.more spelling before after others, before', rfl,
        .more changed before after others'⟩
  | later first before after _ ih =>
      obtain ⟨word, rfl, isBehind⟩ := carries_operand carries first before after
      obtain ⟨spelling, before', rfl, changed⟩ := ih
      refine ⟨.more first before after spelling, word ++ before', by simp, ?_⟩
      rw [List.append_assoc]
      exact isBehind changed

/-- A focus in one item of a list can be exchanged there. -/
theorem exchanges_listed (items : List α)
    : Exchanges start start' (InListed Item InItem · items ·) (Listed Item · items ·)
        (Listed Item' · items ·) := by
  intro t rest h
  induction h with
  | one blanks inside after =>
      obtain ⟨word, rfl, areBlanks⟩ := isLocal_blanks blanks
      obtain ⟨spelling, before, rfl, changed⟩ := exchanges _ inside
      refine ⟨.one blanks spelling after, word ++ before, by simp, ?_⟩
      rw [List.append_assoc]
      exact .one (areBlanks _) changed after
  | first blanks inside after others =>
      obtain ⟨word, rfl, areBlanks⟩ := isLocal_blanks blanks
      obtain ⟨spelling, before, rfl, changed⟩ := exchanges _ inside
      refine ⟨.more blanks spelling after others, word ++ before, by simp, ?_⟩
      rw [List.append_assoc]
      exact .more (areBlanks _) changed after ((carries_listed carries _).widen others)
  | later blanks first after _ ih =>
      obtain ⟨blanks', rfl, areBlanks⟩ := isLocal_blanks blanks
      obtain ⟨word, rfl, spells⟩ := carries _ first
      obtain ⟨after', rfl, areBlanks'⟩ := isLocal_blanks after
      obtain ⟨spelling, before, rfl, changed⟩ := ih
      refine ⟨.more blanks first after spelling,
        blanks' ++ (word ++ (after' ++ .char ',' :: before)), by simp, ?_⟩
      simp only [List.append_assoc, List.cons_append]
      exact .more (areBlanks _) (spells _) (areBlanks' _) changed

end Items

-----------------------------------------------------------------------------------------
-- Queries and expressions
-----------------------------------------------------------------------------------------

section Productions

variable {Literal : Production Value} {Nested Nested' Focus : Production Expression}
  {start start' : Text}
  (literals : ∀ value, Carries (Literal · value ·) (Literal · value ·))
  (nested : ∀ e, Carries (Nested · e ·) (Nested' · e ·))
  (focus : ∀ e, Exchanges start start' (Focus · e ·) (Nested · e ·) (Nested' · e ·))

include focus

/-- In a selector the focus is in its filter, behind the question mark. -/
theorem exchanges_selector (selector : Segment)
    : Exchanges start start' (InSelector Focus · selector ·) (Selector Nested · selector ·)
        (Selector Nested' · selector ·) := by
  intro t rest h
  obtain ⟨blanks, inside, isTest⟩ := h
  obtain ⟨word, rfl, areBlanks⟩ := isLocal_blanks blanks
  obtain ⟨spelling, before, rfl, changed⟩ := focus _ inside
  refine ⟨.filter blanks spelling isTest, .char '?' :: (word ++ before), by simp, ?_⟩
  simp only [List.append_assoc, List.cons_append]
  exact .filter (areBlanks _) changed isTest

/-- In parentheses the focus is in what they enclose. -/
theorem exchanges_parentheses (e : Expression)
    : Exchanges start start' (InParentheses Focus · e ·) (Parentheses Nested · e ·)
        (Parentheses Nested' · e ·) := by
  intro t rest h
  obtain ⟨blanks, inside, isTest, after⟩ := h
  obtain ⟨word, rfl, areBlanks⟩ := isLocal_blanks blanks
  obtain ⟨spelling, before, rfl, changed⟩ := focus _ inside
  refine ⟨.mk blanks spelling isTest after, .char '(' :: (word ++ before), by simp, ?_⟩
  simp only [List.append_assoc, List.cons_append]
  exact .mk (areBlanks _) changed isTest after

include nested

/-- In a selection the focus is in one of its selectors. -/
theorem exchanges_brackets (selection : Segment)
    : Exchanges start start' (InBrackets Nested Focus · selection ·)
        (Brackets Nested · selection ·) (Brackets Nested' · selection ·) := by
  intro t rest h
  obtain ⟨inside⟩ := h
  obtain ⟨spelling, before, rfl, changed⟩ :=
    exchanges_listed (carries_selector nested) (exchanges_selector focus) _ inside
  exact ⟨brackets_iff.mpr ⟨_, _, rfl, spelling, rfl⟩, _ :: before, rfl,
    brackets_iff.mpr ⟨_, _, rfl, changed, rfl⟩⟩

/-- In a group the focus is in the selection in brackets, with a descent in front of it or not.
-/
theorem exchanges_group (group : List Segment)
    : Exchanges start start' (InGroup Nested Focus · group ·) (SpacedGroup Nested · group ·)
        (SpacedGroup Nested' · group ·) := by
  intro t rest h
  cases h with
  | brackets blanks inside =>
      obtain ⟨word, rfl, areBlanks⟩ := isLocal_blanks blanks
      obtain ⟨spelling, before, rfl, changed⟩ := exchanges_brackets nested focus _ inside
      refine ⟨.mk blanks (.brackets spelling), word ++ before, by simp, ?_⟩
      rw [List.append_assoc]
      exact .mk (areBlanks _) (.brackets changed)
  | descent blanks inside =>
      obtain ⟨word, rfl, areBlanks⟩ := isLocal_blanks blanks
      obtain ⟨spelling, before, rfl, changed⟩ := exchanges_brackets nested focus _ inside
      refine ⟨.mk blanks (.bracketsDescent spelling),
        word ++ .char '.' :: .char '.' :: before, by simp, ?_⟩
      simp only [List.append_assoc, List.cons_append]
      exact .mk (areBlanks _) (.bracketsDescent changed)

/-- In a query the focus is in one of its groups of segments. -/
theorem exchanges_segments (query : JsonPath.Query)
    : Exchanges start start' (InSegments Nested Focus · query ·) (Segments Nested · query ·)
        (Segments Nested' · query ·) := by
  intro t rest h
  obtain ⟨inside⟩ := h
  obtain ⟨spelling, before, rfl, changed⟩ :=
    exchanges_repeated (carries_spacedGroup nested) (exchanges_group nested focus) _ inside
  exact ⟨.mk spelling, before, rfl, .mk changed⟩

/-- An operand has the focus in its query or in one of its arguments. -/
theorem exchanges_primary (e : Expression)
    : Exchanges start start' (InPrimary Nested Focus · e ·) (Primary Literal Nested · e ·)
        (Primary Literal Nested' · e ·) := by
  intro t rest h
  cases h with
  | current inside =>
      obtain ⟨spelling, before, rfl, changed⟩ := exchanges_segments nested focus _ inside
      exact ⟨.current spelling, _ :: before, rfl, .current changed⟩
  | root inside =>
      obtain ⟨spelling, before, rfl, changed⟩ := exchanges_segments nested focus _ inside
      exact ⟨.root spelling, _ :: before, rfl, .root changed⟩
  | @call name _ _ _ isName inside fitCall =>
      obtain ⟨spelling, before, rfl, changed⟩ := exchanges_listed nested focus _ inside
      refine ⟨.call isName (.some spelling) fitCall, name ++ .char '(' :: before, by simp, ?_⟩
      rw [List.append_assoc]
      exact .call isName (.some changed) fitCall

include literals

/-- The focus is in the parentheses or the operand, negated or not, or on a side of the
comparison.
-/
theorem exchanges_basic (e : Expression)
    : Exchanges start start' (InBasic Literal Nested Focus · e ·) (Basic Literal Nested · e ·)
        (Basic Literal Nested' · e ·) := by
  intro t rest h
  cases h with
  | negatedParentheses blanks inside =>
      obtain ⟨word, rfl, areBlanks⟩ := isLocal_blanks blanks
      obtain ⟨spelling, before, rfl, changed⟩ := exchanges_parentheses focus _ inside
      refine ⟨.negatedParentheses blanks spelling, .char '!' :: (word ++ before), by simp, ?_⟩
      simp only [List.append_assoc, List.cons_append]
      exact .negatedParentheses (areBlanks _) changed
  | negatedPrimary blanks inside notLiteral isTest =>
      obtain ⟨word, rfl, areBlanks⟩ := isLocal_blanks blanks
      obtain ⟨spelling, before, rfl, changed⟩ := exchanges_primary nested focus _ inside
      refine ⟨.negatedPrimary blanks spelling notLiteral isTest,
        .char '!' :: (word ++ before), by simp, ?_⟩
      simp only [List.append_assoc, List.cons_append]
      exact .negatedPrimary (areBlanks _) changed notLiteral isTest
  | parentheses inside =>
      obtain ⟨spelling, before, rfl, changed⟩ := exchanges_parentheses focus _ inside
      exact ⟨.parentheses spelling, before, rfl, .parentheses changed⟩
  | primary inside =>
      obtain ⟨spelling, before, rfl, changed⟩ := exchanges_primary nested focus _ inside
      exact ⟨.primary spelling, before, rfl, .primary changed⟩
  | left inside before after hasRight leftOk rightOk =>
      obtain ⟨spelling, before', rfl, changed⟩ := exchanges_primary nested focus _ inside
      have hasRight' := (carries_primary literals nested _).widen hasRight
      exact ⟨.comparison spelling before after hasRight leftOk rightOk, before', rfl,
        .comparison changed before after hasRight' leftOk rightOk⟩
  | @right _ _ _ comparator _ _ _ _ hasLeft before after inside leftOk rightOk =>
      obtain ⟨left, rfl, spellsLeft⟩ := carries_primary literals nested _ hasLeft
      obtain ⟨blanks, rfl, areBlanks⟩ := isLocal_blanks before
      obtain ⟨blanks', rfl, areBlanks'⟩ := isLocal_blanks after
      obtain ⟨spelling, before', rfl, changed⟩ := exchanges_primary nested focus _ inside
      refine ⟨.comparison hasLeft before after spelling leftOk rightOk,
        left ++ (blanks ++ (comparator.text ++ (blanks' ++ before'))), by simp, ?_⟩
      simp only [List.append_assoc]
      exact .comparison (spellsLeft _) (areBlanks _) (areBlanks' _) changed leftOk rightOk

end Productions

-----------------------------------------------------------------------------------------
-- Operands in parentheses
-----------------------------------------------------------------------------------------

/-- Adjacent operands are merged to one when it can stand in parentheses in their place. -/
theorem exchanges_merged {operator t rest start start' stop : Text}
    {Item Item' : Production Expression} {whole : List Expression → Expression}
    {parts : Expression → List Expression} (parts_whole : ∀ es, parts (whole es) = es)
    (areTests : ∀ es, (whole es).IsTest) (carries : ∀ e, Carries (Item · e ·) (Item' · e ·))
    {front run back : List Expression}
    (h : Run Item operator start stop t front run back rest)
    (operandsAreTests : ∀ e ∈ front ++ run ++ back, e.IsTest)
    (grouped : (Expression.merge whole parts run).IsTest
      → Item' start' (Expression.merge whole parts run) stop)
    : Joined operator Item t (front ++ run ++ back) rest
      ∧ ∃ before operands, t = before ++ start
        ∧ Joined operator Item' (before ++ start') operands rest
        ∧ (∀ e ∈ operands, e.IsTest)
        ∧ Expression.merge whole parts operands
          = Expression.merge whole parts (front ++ run ++ back) := by
  have isTest : (Expression.merge whole parts run).IsTest :=
    Expression.isTest_merge areTests fun e member => operandsAreTests e (by simp [member])
  obtain ⟨spelling, before, rfl, changed⟩ := exchanges_run carries h (grouped isTest)
  refine ⟨spelling, before, _, rfl, changed, ?_,
    Expression.merge_regrouped parts_whole (ne_nil_of_joined (joined_of_run h))⟩
  intro e member
  rcases List.mem_append.mp member with inFront | member
  · exact operandsAreTests e (by simp [inFront])
  · rcases List.mem_cons.mp member with rfl | inBack
    · exact isTest
    · exact operandsAreTests e (by simp [inBack])

section Parentheses

variable {Literal : Production Value} {Nested Nested' Focus : Production Expression}
  {word stop : Text}
  (literals : ∀ value, Carries (Literal · value ·) (Literal · value ·))
  (nested : ∀ e, Carries (Nested · e ·) (Nested' · e ·))
  (deeper : ∀ e, Carries (Disjunction Literal Nested · e ·) (Nested' · e ·))
  (focus : ∀ e, Exchanges (word ++ stop) (.char '(' :: (word ++ .char ')' :: stop))
    (Focus · e ·) (Nested · e ·) (Nested' · e ·))

include deeper

/-- What can be nested can stand in parentheses, with one level more. -/
theorem basic_of_parenthesized {e : Expression}
    (spelling : Disjunction Literal Nested (word ++ stop) e stop) (isTest : e.IsTest)
    : Basic Literal Nested' (.char '(' :: (word ++ .char ')' :: stop)) e stop :=
  .parentheses (.mk .none ((deeper e).move spelling _) isTest .none)

include literals nested focus

/-- In a conjunction, a run of operands can be parenthesised, and one operand may have the
focus.
-/
theorem exchanges_conjunction (e : Expression)
    : Exchanges (word ++ stop) (.char '(' :: (word ++ .char ')' :: stop))
        (InConjunction Literal Nested Focus (word ++ stop) stop · e ·)
        (Conjunction Literal Nested · e ·) (Conjunction Literal Nested' · e ·) := by
  have carries := carries_basic literals nested
  intro t rest h
  cases h with
  | inside inside areTests =>
      have exchanges := exchanges_basic literals nested focus
      obtain ⟨spelling, before, rfl, changed⟩ := exchanges_joined carries exchanges _ inside
      exact ⟨conjunction_iff.mpr ⟨_, spelling, areTests, rfl⟩, before, rfl,
        conjunction_iff.mpr ⟨_, changed, areTests, rfl⟩⟩
  | @run _ front run back _ spelling _ areTests =>
      have conjunction : Conjunction Literal Nested (word ++ stop) (.conjoin run) stop :=
        conjunction_iff.mpr
          ⟨_, joined_of_run spelling, fun _ e member => areTests e (by simp [member]), rfl⟩
      have grouped := basic_of_parenthesized deeper (.one conjunction)
      rw [Expression.conjoin_eq_merge] at grouped ⊢
      obtain ⟨spelling, before, operands, rfl, changed, areTests', same⟩ :=
        exchanges_merged (fun _ => rfl) Expression.isTest_conjunction carries spelling areTests
          grouped
      refine ⟨?_, before, rfl, ?_⟩
      · exact conjunction_iff.mpr
          ⟨_, spelling, fun _ => areTests, by rw [Expression.conjoin_eq_merge]⟩
      · exact conjunction_iff.mpr
          ⟨_, changed, fun _ => areTests', by rw [Expression.conjoin_eq_merge, same]⟩

/-- In a disjunction, a run of conjunctions can be parenthesised, and one conjunction may have
the focus.
-/
theorem exchanges_disjunction (e : Expression)
    : Exchanges (word ++ stop) (.char '(' :: (word ++ .char ')' :: stop))
        (InDisjunction Literal Nested Focus (word ++ stop) stop · e ·)
        (Disjunction Literal Nested · e ·) (Disjunction Literal Nested' · e ·) := by
  have carries := carries_conjunction literals nested
  intro t rest h
  cases h with
  | inside inside areTests =>
      have exchanges := exchanges_conjunction literals nested deeper focus
      obtain ⟨spelling, before, rfl, changed⟩ := exchanges_joined carries exchanges _ inside
      exact ⟨disjunction_iff.mpr ⟨_, spelling, areTests, rfl⟩, before, rfl,
        disjunction_iff.mpr ⟨_, changed, areTests, rfl⟩⟩
  | @run _ front run back _ spelling _ areTests =>
      have disjunction : Disjunction Literal Nested (word ++ stop) (.disjoin run) stop :=
        disjunction_iff.mpr
          ⟨_, joined_of_run spelling, fun _ e member => areTests e (by simp [member]), rfl⟩
      have grouped isTest : Conjunction Literal Nested' _ (.disjoin run) stop :=
        .one (basic_of_parenthesized deeper disjunction isTest)
      rw [Expression.disjoin_eq_merge] at grouped ⊢
      obtain ⟨spelling, before, operands, rfl, changed, areTests', same⟩ :=
        exchanges_merged (fun _ => rfl) Expression.isTest_disjunction carries spelling areTests
          grouped
      refine ⟨?_, before, rfl, ?_⟩
      · exact disjunction_iff.mpr
          ⟨_, spelling, fun _ => areTests, by rw [Expression.disjoin_eq_merge]⟩
      · exact disjunction_iff.mpr
          ⟨_, changed, fun _ => areTests', by rw [Expression.disjoin_eq_merge, same]⟩

end Parentheses

-----------------------------------------------------------------------------------------
-- Filters
-----------------------------------------------------------------------------------------

section Filters

variable {word stop t : Text} {e : Expression}

/-- Parentheses in a logical expression take one level more, by induction on the levels. -/
theorem exchanges_logical (depth : Nat) (e : Expression)
    : Exchanges (word ++ stop) (.char '(' :: (word ++ .char ')' :: stop))
        (InLogical Literal (word ++ stop) stop depth · e ·) (Logical Literal depth · e ·)
        (Logical Literal (depth + 1) · e ·) := by
  induction depth generalizing e with
  | zero =>
      intro t rest h
      cases h
  | succ depth ih =>
      exact exchanges_disjunction carries_literal
        (carries_logical carries_literal (Nat.le_succ depth)) (isLocal_logical (depth + 1)) ih e

/-- Parentheses around operands in a row keep the expression that a body spells, one level
deeper.
-/
theorem body_parenthesized {depth : Nat} (h : InBody Literal (word ++ stop) stop depth t e)
    : IsBody Literal depth t e
      ∧ ∃ before, t = before ++ (word ++ stop)
        ∧ IsBody Literal (depth + 1) (before ++ .char '(' :: (word ++ .char ')' :: stop)) e := by
  cases h with
  | operands blanks inside isTest after =>
      obtain ⟨blanks', rfl, areBlanks⟩ := isLocal_blanks blanks
      obtain ⟨spelling, before, rfl, changed⟩ := exchanges_logical depth e inside
      refine ⟨.mk blanks spelling isTest after, blanks' ++ before, by simp, ?_⟩
      rw [List.append_assoc]
      exact .mk (areBlanks _) changed isTest after
  | whole blanks left spelling isTest right after =>
      have body := IsBody.mk (blanks_trans blanks left) spelling isTest (blanks_trans right after)
      obtain ⟨blanks', rfl, areBlanks⟩ := isLocal_blanks blanks
      obtain ⟨left', text, isLeft⟩ := isLocal_blanks left
      obtain ⟨inner, rfl, spells⟩ := isLocal_logical depth e spelling
      obtain ⟨right', rfl, isRight⟩ := isLocal_blanks right
      obtain rfl : word = left' ++ (inner ++ right') := by
        simpa only [← List.append_assoc, List.append_cancel_right_eq] using text
      have parentheses : Parentheses (Logical Literal depth)
          (.char '(' :: ((left' ++ (inner ++ right')) ++ .char ')' :: stop)) e stop := by
        simp only [List.append_assoc]
        exact .mk (isLeft _) (spells _) isTest (isRight _)
      have spelling' := logical_of_basic (.parentheses parentheses)
      exact ⟨body, blanks', rfl, .mk (areBlanks _) spelling' isTest after⟩

/-- A filter spells the same with parentheses around operands or around all of it. -/
theorem filter_parenthesized {depth : Nat} (h : InFilter Literal (word ++ stop) stop depth t e)
    : IsFilter Literal depth t e
      ∧ ∃ before, t = before ++ (word ++ stop)
        ∧ IsFilter Literal (depth + 1) (before ++ .char '(' :: (word ++ .char ')' :: stop)) e := by
  cases h with
  | plain inside =>
      obtain ⟨body, before, text, changed⟩ := body_parenthesized inside
      exact ⟨body.isFilter, before, text, changed.isFilter⟩
  | marked blanks inside =>
      obtain ⟨blanks', rfl, areBlanks⟩ := isLocal_blanks blanks
      obtain ⟨body, before, rfl, changed⟩ := body_parenthesized inside
      refine ⟨body.isFilter_marked blanks, blanks' ++ .char '?' :: before, by simp, ?_⟩
      rw [List.append_assoc]
      exact changed.isFilter_marked (areBlanks _)

end Filters

end Grammar

end JsonPath
