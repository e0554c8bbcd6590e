import JsonPath.Proofs.Reading.Shape

/-! Repeated reading, of lists with commas and of operands with operators between them, is as
sound and as complete as the reading of the items.
-/

namespace JsonPath.Syntax

open Grammar Outcome

/-- A reader is sound for a production when it returns only what its text spells. -/
def IsSound {α : Type} (reader : Text → Except Fault (α × Text)) (Item : Production α) : Prop :=
  ∀ t a rest, reader t = .ok (a, rest) → Item t a rest

/-- An item behind blanks, after which the reader may have skipped further blanks. -/
inductive Padded {α : Type} (Item : Production α) : Production α
  | mk {t start item stop rest} (before : Blanks t start) (spelling : Item start item stop)
    (after : Blanks stop rest)
    : Padded Item t item rest

/-- Repeated reading returns repeated items, by induction on the number of readings. -/
theorem many_sound {α : Type} {next : Text → Except Fault (Option (α × Text))}
    {Item : Production α}
    (sound : ∀ t a rest, next t = .ok (some (a, rest)) → Item t a rest)
    {limit : Nat} {t rest : Text} {items : List α} (h : many next limit t = .ok (items, rest))
    : Repeated Item t items rest := by
  induction limit generalizing t items with
  | zero =>
      obtain ⟨rfl, rfl⟩ := Prod.mk.inj (Except.ok.inj h)
      exact .none
  | succ limit ih =>
      simp only [many, bind_eq_ok] at h
      obtain ⟨found, first, h⟩ := h
      cases found with
      | none =>
          obtain ⟨rfl, rfl⟩ := Prod.mk.inj (pure_eq_ok.mp h)
          exact .none
      | some found =>
          obtain ⟨item, afterItem⟩ := found
          simp only [bind_eq_ok] at h
          obtain ⟨⟨others, end_⟩, tail, result⟩ := h
          obtain ⟨rfl, rfl⟩ := Prod.mk.inj (pure_eq_ok.mp result)
          exact .more (sound _ _ _ first) (ih tail)

/-- An item that is read behind a comma stands there, behind blanks. -/
theorem afterComma_eq_some {α : Type} {item : Text → Except Fault (α × Text)} {t rest : Text}
    {a : α} (h : afterComma item t = .ok (some (a, rest)))
    : ∃ behind, Blanks t (.char ',' :: behind) ∧ item behind = .ok (a, rest) := by
  have blanks := blanks_skipBlanks t
  unfold afterComma at h
  split at h
  next behind eq =>
    obtain ⟨pair, read, eqPair⟩ := map_eq_ok.mp h
    obtain rfl := Option.some.inj eqPair
    exact ⟨behind, eq ▸ blanks, read⟩
  next => cases h

/-- An operand that is read behind an operator stands there, behind blanks. -/
theorem afterOperator_eq_some {α : Type} {operator : Char}
    {item : Text → Except Fault (α × Text)} {t rest : Text} {a : α}
    (h : afterOperator operator item t = .ok (some (a, rest)))
    : ∃ behind start,
      Blanks t ([.char operator, .char operator] ++ behind)
      ∧ Blanks behind start
      ∧ item start = .ok (a, rest) := by
  have blanks := blanks_skipBlanks t
  unfold afterOperator at h
  split at h
  next c d behind eq =>
    split at h
    next same =>
      obtain ⟨rfl, rfl⟩ := same
      obtain ⟨pair, read, eqPair⟩ := map_eq_ok.mp h
      obtain rfl := Option.some.inj eqPair
      rw [eq] at blanks
      exact ⟨behind, _, blanks, blanks_skipBlanks behind, read⟩
    next => cases h
  next => cases h

/-- Items that are read with commas between them make up a list up to any end behind blanks,
by induction on the items after the first.
-/
theorem listed_sound {α β : Type} {item : Text → Except Fault (β × Text)}
    {Item : Production α} {f : β → α} {limit : Nat} {t stop rest : Text} {found : List β}
    (sound : ∀ t b rest, item t = .ok (b, rest) → Padded Item t (f b) rest)
    (h : oneOrMore (afterComma item) item limit t = .ok (found, stop))
    (after : Blanks stop rest)
    : Listed Item t (found.map f) rest := by
  simp only [oneOrMore, bind_eq_ok] at h
  obtain ⟨⟨first, afterFirst⟩, readFirst, ⟨others, end_⟩, readOthers, result⟩ := h
  obtain ⟨rfl, rfl⟩ := Prod.mk.inj (pure_eq_ok.mp result)
  have repeated := many_sound (fun _ _ _ => afterComma_eq_some) readOthers
  replace readFirst := sound _ _ _ readFirst
  clear readOthers result
  dsimp only at repeated
  induction repeated generalizing t first with
  | none =>
      obtain ⟨before, spelling, behind⟩ := readFirst
      exact .one before spelling (blanks_trans behind after)
  | more next _ ih =>
      obtain ⟨before, spelling, behind⟩ := readFirst
      obtain ⟨afterComma, comma, read⟩ := next
      exact .more before spelling (blanks_trans behind comma)
        (ih _ after (sound _ _ _ read))

/-- Operands that are read with operators between them are joined by these, by induction on
the operands after the first.
-/
theorem joined_sound {α : Type} {operator : Char} {item : Text → Except Fault (α × Text)}
    {Item : Production α} {limit : Nat} {t rest : Text} {found : List α}
    (sound : IsSound item Item)
    (h : oneOrMore (afterOperator operator item) item limit t = .ok (found, rest))
    : Joined [.char operator, .char operator] Item t found rest := by
  simp only [oneOrMore, bind_eq_ok] at h
  obtain ⟨⟨first, afterFirst⟩, readFirst, ⟨others, end_⟩, readOthers, result⟩ := h
  obtain ⟨rfl, rfl⟩ := Prod.mk.inj (pure_eq_ok.mp result)
  have repeated := many_sound (fun _ _ _ => afterOperator_eq_some) readOthers
  replace readFirst := sound _ _ _ readFirst
  clear readOthers result
  dsimp only at repeated
  induction repeated generalizing t first with
  | none => exact .one readFirst
  | more next _ ih =>
      obtain ⟨behind, start, before, after, read⟩ := next
      exact .more readFirst before after (ih _ (sound _ _ _ read))

-----------------------------------------------------------------------------------------
-- Completeness
-----------------------------------------------------------------------------------------

/-- A reader reads the proper spellings of a production up to the characters that can follow
them.
-/
structure IsReader {α : Type} (Bad : Fault → Prop) (limit : Nat) (others stops : List Char)
    (good : α → Bool) (reader : Text → Except Fault (α × Text)) (Item : Production α) : Prop
    extends IsProper others Item where
  complete
    : ∀ {t a rest},
      Item t a rest → t.length ≤ limit → EndsAt stops rest
      → Yields Bad (good a) (reader t) (a, rest)

theorem many_of_none {α : Type} {next : Text → Except Fault (Option (α × Text))} {t : Text}
    (stop : next t = .ok none) (count : Nat)
    : many next count t = .ok ([], t) := by
  cases count with
  | zero => rfl
  | succ count => rw [many, stop]; rfl

/-- Where a next item is found, repeating is reading one or more. -/
theorem many_of_some {α : Type} {next : Text → Except Fault (Option (α × Text))}
    {item : Text → Except Fault (α × Text)} {t start : Text}
    (found : next t = some <$> item start) (count : Nat)
    : many next (count + 1) t = oneOrMore next item count start := by
  rw [many, found, oneOrMore]
  cases item start <;> rfl

/-- Repeated items are read one after another up to where no next one is found, by induction
on the items.
-/
theorem many_complete {α : Type} {next : Text → Except Fault (Option (α × Text))}
    {Item : Production α} {Bad : Fault → Prop} {good : α → Bool} {limit count : Nat}
    {follows : List Char}
    (complete
      : ∀ {t a rest},
        Item t a rest
        → t.length ≤ limit
        → EndsAt follows rest
        → Yields Bad (good a) (next t) (some (a, rest)))
    (shorter : ∀ {t a rest}, Item t a rest → rest.length < t.length)
    (starts : ∀ {t a rest}, Item t a rest → EndsAt follows t)
    {t rest : Text} {items : List α} (h : Repeated Item t items rest)
    (bound : t.length ≤ limit) (enough : t.length ≤ count) (ends : EndsAt follows rest)
    (stop : next rest = .ok none)
    : Yields Bad (items.all good) (many next count t) (items, rest) := by
  induction h generalizing count with
  | none => exact .of_ok (many_of_none stop count)
  | @more _ _ mid _ _ first others ih =>
      have lessText := shorter first
      have endsFirst : EndsAt follows mid := by
        cases others with
        | none => exact ends
        | more second _ => exact starts second
      cases count with
      | zero => omega
      | succ count =>
          exact (complete first bound endsFirst).bind
            ((ih (by omega) (by omega) ends stop).bind_ok rfl)

/-- Behind a comma, the next item is read. -/
theorem afterComma_of_comma {α : Type} {item : Text → Except Fault (α × Text)} {t rest : Text}
    (h : Text.skipBlanks t = .char ',' :: rest)
    : afterComma item t = some <$> item rest := by
  simp [afterComma, h]

/-- Where another stop than a comma stands, the list ends. -/
theorem afterComma_eq_none {α : Type} {item : Text → Except Fault (α × Text)} {t : Text}
    {stops : List Char} (ends : EndsAt stops t) (noComma : ',' ∉ stops)
    : afterComma item t = .ok none := by
  unfold afterComma
  split
  next eq => exact absurd (ends.mem eq) noComma
  next => rfl

/-- Behind an operator, the next operand is read. -/
theorem afterOperator_of_operator {α : Type} {operator : Char}
    {item : Text → Except Fault (α × Text)} {t behind : Text}
    (h : Text.skipBlanks t = .char operator :: .char operator :: behind)
    : afterOperator operator item t = some <$> item (Text.skipBlanks behind) := by
  simp [afterOperator, h]

/-- Where another stop than the operator stands, the row ends. -/
theorem afterOperator_eq_none {α : Type} {operator : Char}
    {item : Text → Except Fault (α × Text)} {t : Text} {stops : List Char}
    (ends : EndsAt stops t) (noOperator : operator ∉ stops)
    : afterOperator operator item t = .ok none := by
  unfold afterOperator
  split
  next eq =>
    refine if_neg ?_
    rintro ⟨rfl, _⟩
    exact noOperator (ends.mem eq)
  next => rfl

/-- What is read of a list: items that `f` maps to what is spelled, up to blanks behind it.
-/
theorem listed_complete {α β : Type} {item : Text → Except Fault (β × Text)}
    {Item : Production α} {f : β → α} {Bad : Fault → Prop} {good : α → Bool} {limit count : Nat}
    (close : Char)
    (notComma : close ≠ ',')
    (complete
      : ∀ {t start a rest},
        Blanks t start
        → Item start a rest
        → start.length ≤ limit
        → EndsAt [',', close] rest
        → ∃ b stop,
          f b = a
          ∧ Text.skipBlanks stop = Text.skipBlanks rest
          ∧ Yields Bad (good a) (item t) (b, stop))
    (shorter : ∀ {t a rest}, Item t a rest → rest.length < t.length)
    {t rest : Text} {items : List α} (h : Listed Item t items rest) (bound : t.length ≤ limit)
    (enough : t.length ≤ count) (ends : EndsAt [close] rest)
    : ∃ found stop,
      found.map f = items
      ∧ Text.skipBlanks stop = Text.skipBlanks rest
      ∧ Yields Bad (items.all good) (oneOrMore (afterComma item) item count t) (found, stop) := by
  induction h generalizing count with
  | one before spelling after =>
      have lessBlanks := length_le_of_blanks before
      obtain ⟨b, stop, rfl, sameStop, reads⟩ :=
        complete before spelling (by omega) ((ends.of_blanks after).mono (by simp))
      rw [skipBlanks_of_blanks after] at sameStop
      have endsStop : EndsAt [close] stop := fun c rest eq => ends c rest (sameStop ▸ eq)
      have noNext : afterComma item stop = .ok none :=
        afterComma_eq_none endsStop (by simpa using notComma.symm)
      refine ⟨[b], stop, rfl, sameStop, ?_⟩
      simp only [List.all_cons, List.all_nil, Bool.and_true]
      refine reads.bind_ok ?_
      simp only [many_of_none noNext]
      rfl
  | more before spelling after others ih =>
      have lessBlanks := length_le_of_blanks before
      have lessItem := shorter spelling
      have lessComma := length_le_of_blanks after
      rw [List.length_cons] at lessComma
      obtain ⟨b, stop, rfl, sameStop, reads⟩ :=
        complete before spelling (by omega)
          (.of_blanks after (.cons (by simp) rfl))
      rw [skipBlanks_of_blanks after, isSolid_cons rfl] at sameStop
      obtain ⟨count, rfl⟩ : ∃ less, count = less + 1 := ⟨count - 1, by omega⟩
      obtain ⟨found, last, rfl, sameLast, readsOthers⟩ :=
        @ih count (by omega) (by omega) ends
      refine ⟨b :: found, last, rfl, sameLast, ?_⟩
      refine reads.bind ?_
      simp only [many_of_some (afterComma_of_comma sameStop)]
      exact readsOthers.bind_ok rfl

/-- Operands are read with the operators between them, by induction on the operands. -/
theorem joined_complete {α : Type} {operator : Char} {item : Text → Except Fault (α × Text)}
    {Item : Production α} {Bad : Fault → Prop} {good : α → Bool} {limit count : Nat}
    {others stops : List Char}
    (notBlank : (CodePoint.char operator).isBlank = false)
    (reader : IsReader Bad limit others (operator :: stops) good item Item)
    (noOperator : operator ∉ stops) {t rest : Text} {items : List α}
    (h : Joined [.char operator, .char operator] Item t items rest) (bound : t.length ≤ limit)
    (enough : t.length ≤ count) (ends : EndsAt stops rest)
    : Yields Bad (items.all good) (oneOrMore (afterOperator operator item) item count t)
        (items, rest) := by
  induction h generalizing count with
  | one spelling =>
      simp only [List.all_cons, List.all_nil, Bool.and_true]
      refine (reader.complete spelling bound (ends.mono (by simp +contextual))).bind_ok ?_
      simp only [many_of_none (afterOperator_eq_none ends noOperator)]
      rfl
  | @more _ _ afterItem behind start _ _ first before after next ih =>
      have lessItem := reader.length_lt first
      have lessBefore := length_le_of_blanks before
      have lessAfter := length_le_of_blanks after
      rw [List.length_append] at lessBefore
      have skipped := skipBlanks_eq before (isSolid_cons notBlank)
      have solid := ((isProper_joined reader.toIsProper).starts next).isSolid
      have found : afterOperator operator item afterItem = some <$> item start := by
        rw [afterOperator_of_operator skipped]
        exact congrArg (some <$> item ·) (skipBlanks_eq after solid)
      obtain ⟨count, rfl⟩ : ∃ less, count = less + 1 := ⟨count - 1, by omega⟩
      refine (reader.complete first bound
        (.of_blanks before (.cons (by simp) notBlank))).bind ?_
      simp only [many_of_some found]
      exact (ih (by omega) (by omega) ends).bind_ok rfl

end JsonPath.Syntax
