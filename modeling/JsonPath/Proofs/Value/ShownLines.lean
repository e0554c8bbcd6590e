import JsonPath.Proofs.Value.Constants

/-! The line that is shown with an error. Lines are counted by line feeds, but the line to
show is looked up among lines at every kind of line end, and an end that nothing follows opens
no line there. Where both agree, the line of the error is shown and its place is marked.
-/

namespace JsonPath

namespace Text

/-- A line between line feeds is shown without the carriage return that can end it. Nothing
else on it ends a line.
-/
structure ShownAs (line shown : Text) : Prop where
  plain : ∀ c ∈ shown, CodePoint.isLineEnd c = false
  ending : line = shown ∨ line = shown ++ [.char '\r']

-----------------------------------------------------------------------------------------
-- Lines at every kind of line end
-----------------------------------------------------------------------------------------

/-- A character that ends no line belongs to the current one. -/
theorem linesFrom_cons {c : CodePoint} (noEnd : c.isLineEnd = false) (line t : Text)
    : linesFrom line (c :: t) = linesFrom (c :: line) t := by
  have notReturn : c ≠ .char '\r' := by
    rintro rfl
    cases noEnd
  rw [linesFrom, if_neg (by simp [noEnd])]
  exact fun _ isReturn => absurd isReturn notReturn

/-- A word without line ends belongs to the current line, by induction on the word. -/
theorem linesFrom_append {word : Text} (plain : ∀ c ∈ word, CodePoint.isLineEnd c = false)
    (line t : Text)
    : linesFrom line (word ++ t) = linesFrom (word.reverse ++ line) t := by
  induction word generalizing line with
  | nil => rfl
  | cons c word ih =>
      obtain ⟨first, others⟩ := List.forall_mem_cons.mp plain
      rw [List.cons_append, linesFrom_cons first, ih others, List.reverse_cons,
        List.append_assoc, List.singleton_append]

/-- A line in front of a line feed is shown, and the others follow it. -/
theorem lines_of_shownAs_feed {line shown : Text} (h : ShownAs line shown) (rest : Text)
    : lines (line ++ .char '\n' :: rest) = shown :: lines rest := by
  obtain ⟨plain, rfl | rfl⟩ := h
  · rw [lines, linesFrom_append plain, List.append_nil]
    exact congrArg (· :: lines rest) (List.reverse_reverse line)
  · rw [lines, List.append_assoc, linesFrom_append plain, List.append_nil]
    exact congrArg (· :: lines rest) (List.reverse_reverse shown)

/-- The last line is shown unless it is empty. -/
theorem lines_of_shownAs {line shown : Text} (h : ShownAs line shown) (notOver : line ≠ [])
    : lines line = [shown] := by
  obtain ⟨plain, rfl | rfl⟩ := h
  · rw [lines, ← List.append_nil line, linesFrom_append plain]
    simp [linesFrom, notOver]
  · rw [lines, linesFrom_append plain, List.append_nil]
    exact congrArg ([·]) (List.reverse_reverse shown)

/-- Lines between line feeds that have no other ends are the lines at every kind of line
end, by induction on their number.
-/
theorem exists_shownAs {index : Nat} {t line : Text}
    (isLine : (t.splitOn (.char '\n'))[index]? = some line)
    (plain : ∀ line ∈ (t.splitOn (.char '\n')).take (index + 1), ∃ shown, ShownAs line shown)
    (notOver : line = [] → index + 1 < (t.splitOn (.char '\n')).length)
    : ∃ shown, ShownAs line shown ∧ (lines t)[index]? = some shown := by
  induction index generalizing t with
  | zero =>
      by_cases member : .char '\n' ∈ t
      · obtain ⟨first, rest, rfl, absent⟩ := List.eq_append_cons_of_mem member
        rw [List.splitOn_append_cons_self_of_not_mem absent] at isLine plain
        obtain rfl := Option.some.inj isLine
        obtain ⟨shown, isShown⟩ := plain first (by simp)
        exact ⟨shown, isShown, by rw [lines_of_shownAs_feed isShown]; rfl⟩
      · rw [List.splitOn_eq_singleton member] at isLine plain notOver
        obtain rfl := Option.some.inj isLine
        obtain ⟨shown, isShown⟩ := plain t (by simp)
        have notEmpty : t ≠ [] := fun empty => absurd (notOver empty) (by simp)
        exact ⟨shown, isShown, by rw [lines_of_shownAs isShown notEmpty]; rfl⟩
  | succ index ih =>
      have member : .char '\n' ∈ t := by
        by_contra absent
        rw [List.splitOn_eq_singleton absent] at isLine
        cases isLine
      obtain ⟨first, rest, rfl, absent⟩ := List.eq_append_cons_of_mem member
      rw [List.splitOn_append_cons_self_of_not_mem absent] at isLine plain notOver
      obtain ⟨firstShown, isShown⟩ := plain first (by simp)
      rw [lines_of_shownAs_feed isShown]
      refine ih isLine (fun other inside => plain other ?_) fun empty => ?_
      · exact List.mem_cons_of_mem _ inside
      · simpa using notOver empty

/-- No line holds the end of a line, by induction along the text. -/
theorem forall_mem_linesFrom {line t : Text} (plain : ∀ c ∈ line, CodePoint.isLineEnd c = false)
    : ∀ found ∈ linesFrom line t, ∀ c ∈ found, CodePoint.isLineEnd c = false := by
  fun_induction linesFrom line t with
  | case1 line empty => exact nofun
  | case2 line notEmpty => simpa using plain
  | case3 line rest ih => exact List.forall_mem_cons.mpr ⟨by simpa using plain, ih nofun⟩
  | case4 line c rest notReturn isEnd ih =>
      exact List.forall_mem_cons.mpr ⟨by simpa using plain, ih nofun⟩
  | case5 line c rest notReturn noEnd ih =>
      exact ih (List.forall_mem_cons.mpr ⟨by simpa using noEnd, plain⟩)

end Text

namespace MalformedJson

/-- The first line of a message: the cause and its place. -/
def summary (error : MalformedJson) : Text :=
  error.cause.message ++ " (line " ++ Numeral.ofNat error.line ++ " column "
    ++ Numeral.ofNat error.column ++ ")"

/-- The last line of a message: a mark behind as many dashes as there are characters before
its place on the line above.
-/
def marker (error : MalformedJson) : Text :=
  List.replicate (error.column + 5) (CodePoint.char '-') ++ "^"

/-- Up to the line of the error all lines end at line feeds, possibly behind a carriage
return, and that line is not the end of a document that is over with a line feed.
-/
structure IsOnPlainLine (error : MalformedJson) : Prop where
  plain : ∀ line ∈ (error.document.splitOn (.char '\n')).take error.line,
    ∃ shown, Text.ShownAs line shown
  notOver : error.document ≠ []
    → (error.document.splitOn (.char '\n'))[error.line - 1]? = some []
    → error.line < (error.document.splitOn (.char '\n')).length

-----------------------------------------------------------------------------------------
-- The lines of a message
-----------------------------------------------------------------------------------------

/-- The message is the summary, the line and the marker, one below the other. -/
theorem message_eq (error : MalformedJson)
    : error.message = error.summary
        ++ .char '\n' :: (("Line: " : Text) ++ error.shownLine ++ .char '\n' :: error.marker) := by
  have middle : (")\nLine: " : Text) = ")" ++ .char '\n' :: ("Line: " : Text) := by decide
  have feed : ("\n" : Text) = [.char '\n'] := by decide
  rw [message, summary, marker, middle, feed]
  simp only [List.append_assoc, List.cons_append, List.nil_append]

theorem feed_not_mem_ofNat (n : Nat) : .char '\n' ∉ Numeral.ofNat n := by
  intro member
  have isDigit := (Numeral.isDigits_ofNat n).2 _ member
  cases isDigit

/-- For literals: unlike their encoding, their list of characters is decided on at once. -/
theorem feed_not_mem_ofList {cs : List Char} (h : '\n' ∉ cs)
    : .char '\n' ∉ (String.ofList cs : Text) := by
  simpa [Text.ofString] using h

/-- The constants have no line feeds. -/
theorem feed_not_mem_constant {name : Text} (h : name ∈ Document.constants)
    : .char '\n' ∉ name := by
  simp only [Document.constants, List.mem_cons, List.not_mem_nil, or_false] at h
  rcases h with rfl | rfl | rfl
  all_goals exact feed_not_mem_ofList (by decide)

/-- The text of a cause has no line feed when its constant is a known one. -/
theorem feed_not_mem_message {cause : Malformation}
    (h : ∀ name, cause = .constant name → name ∈ Document.constants)
    : .char '\n' ∉ cause.message := by
  cases cause with
  | constant name =>
      rw [Malformation.message, List.mem_append, not_or]
      exact ⟨feed_not_mem_ofList (by decide), feed_not_mem_constant (h name rfl)⟩
  | oversizedInteger digits =>
      simp only [Malformation.message, Numeral.oversizedMessage, Numeral.limitMessage,
        List.mem_append, not_or]
      exact ⟨feed_not_mem_ofList (by decide),
        ⟨⟨⟨feed_not_mem_ofList (by decide), feed_not_mem_ofNat _⟩,
          feed_not_mem_ofList (by decide)⟩,
          ⟨feed_not_mem_ofList (by decide), feed_not_mem_ofNat _⟩,
          feed_not_mem_ofList (by decide)⟩,
        feed_not_mem_ofList (by decide)⟩
  | _ => exact feed_not_mem_ofList (by decide)

/-- The summary is a single line. -/
theorem feed_not_mem_summary {error : MalformedJson}
    (h : ∀ name, error.cause = .constant name → name ∈ Document.constants)
    : .char '\n' ∉ error.summary := by
  simp only [summary, List.mem_append, not_or]
  exact ⟨⟨⟨⟨⟨feed_not_mem_message h, feed_not_mem_ofList (by decide)⟩, feed_not_mem_ofNat _⟩,
    feed_not_mem_ofList (by decide)⟩, feed_not_mem_ofNat _⟩, feed_not_mem_ofList (by decide)⟩

/-- The line that is shown has no line ends. -/
theorem plain_shownLine (error : MalformedJson)
    : ∀ c ∈ error.shownLine, CodePoint.isLineEnd c = false := by
  intro c member
  simp only [shownLine] at member
  cases found : error.document.lines[min error.line error.document.lines.length - 1]? with
  | none =>
      rw [found] at member
      cases member
  | some line =>
      rw [found] at member
      have isLine := List.mem_of_getElem? found
      exact Text.forall_mem_linesFrom (List.forall_mem_nil _) line isLine c member

/-- The message has three lines: the summary, the shown line and the marker. -/
theorem splitOn_message {error : MalformedJson}
    (h : ∀ name, error.cause = .constant name → name ∈ Document.constants)
    : error.message.splitOn (.char '\n')
      = [error.summary, ("Line: " : Text) ++ error.shownLine, error.marker] := by
  have noFeed : .char '\n' ∉ ("Line: " : Text) ++ error.shownLine := by
    rw [List.mem_append, not_or]
    refine ⟨feed_not_mem_ofList (by decide), fun member => ?_⟩
    exact absurd (plain_shownLine error _ member) (by decide)
  have marker : .char '\n' ∉ error.marker := by
    rw [MalformedJson.marker, List.mem_append, not_or]
    exact ⟨by simp [List.mem_replicate], feed_not_mem_ofList (by decide)⟩
  rw [message_eq, List.splitOn_append_cons_self_of_not_mem (feed_not_mem_summary h),
    List.splitOn_append_cons_self_of_not_mem noFeed, List.splitOn_eq_singleton marker]

-----------------------------------------------------------------------------------------
-- The line of the error
-----------------------------------------------------------------------------------------

/-- Where lines end alike, the line of the error is shown. -/
theorem shownAs_shownLine {error : MalformedJson} {line : Text} (located : 0 < error.line)
    (isLine : (error.document.splitOn (.char '\n'))[error.line - 1]? = some line)
    (h : error.IsOnPlainLine)
    : Text.ShownAs line error.shownLine := by
  by_cases empty : error.document = []
  · have nothing : error.shownLine = [] := by
      simp [shownLine, empty, Text.lines, Text.linesFrom]
    rw [empty, List.splitOn_nil, List.getElem?_singleton] at isLine
    split at isLine
    next =>
      obtain rfl := Option.some.inj isLine
      exact ⟨by simp [nothing], .inl nothing.symm⟩
    next => cases isLine
  · have index : error.line - 1 + 1 = error.line := Nat.sub_add_cancel located
    have notOver (isEmpty : line = [])
        : error.line - 1 + 1 < (error.document.splitOn (.char '\n')).length := by
      rw [index]
      exact h.notOver empty (isEmpty ▸ isLine)
    obtain ⟨shown, isShown, found⟩ :=
      Text.exists_shownAs isLine (by rw [index]; exact h.plain) notOver
    have few : error.line - 1 < error.document.lines.length :=
      (List.getElem?_eq_some_iff.mp found).1
    have same : error.shownLine = shown := by
      simp only [shownLine]
      rw [Nat.min_eq_left (by omega), found]
      rfl
    rw [same]
    exact isShown

/-- A character of a line is shown in its column, behind the six characters in front. -/
theorem getElem?_shown {text shown : Text} {column : Nat} {c : CodePoint}
    (h : Text.ShownAs text shown) (onLine : text[column]? = some c) (noEnd : c.isLineEnd = false)
    : (("Line: " : Text) ++ shown)[column + 6]? = some c := by
  have length : ("Line: " : Text).length = 6 := rfl
  rw [List.getElem?_append_right (by rw [length]; omega), length, Nat.add_sub_cancel]
  obtain ⟨-, rfl | rfl⟩ := h
  · exact onLine
  · rw [List.getElem?_append] at onLine
    split at onLine
    next => exact onLine
    next =>
      obtain rfl := List.mem_singleton.mp (List.mem_of_getElem? onLine)
      cases noEnd

end MalformedJson

namespace Document

open Outcome

/-- A fault stands in the document or at its end. -/
theorem position_le (fault : Fault) (document : Text)
    : fault.position document ≤ document.length := by
  unfold Fault.position
  split
  next => exact Nat.zero_le _
  next =>
    split
    next => exact Nat.sub_le _ _
    next => exact Nat.zero_le _
  next =>
    split
    next => exact Nat.sub_le _ _
    next => exact Nat.zero_le _
  next => exact Nat.sub_le _ _

/-- An error is located where reading has failed, and its cause names no other text than one
of the constants.
-/
theorem located_of_decode {depth : Nat} {document : Text} {error : MalformedJson}
    (h : decodeWithin depth document = .error error)
    : ∃ cause position, error = .located cause document position ∧ position ≤ document.length
      ∧ ∀ name, cause = .constant name → name ∈ constants := by
  obtain ⟨⟨cause, rest⟩, failed, rfl⟩ := mapError_eq_error.mp h
  refine ⟨cause, _, rfl, position_le _ document, ?_⟩
  rintro name rfl
  exact (withoutConstant_of_read failed).2.1

/-- An error is shown in three lines. When lines end alike up to its place, the second one is
the line of that place, as it stands between line feeds, and the mark in the third one stands
below the character there.
-/
theorem message_of_decode {depth : Nat} {document : Text} {error : MalformedJson}
    (h : decodeWithin depth document = .error error)
    : error.IsBehind (document.take error.position)
      ∧ ∃ line rest shown, (document.splitOn (.char '\n'))[error.line - 1]? = some line
        ∧ document.drop error.position = line.drop (error.column - 1) ++ rest
        ∧ MalformedJson.EndsLine rest
        ∧ error.message.splitOn (.char '\n')
          = [error.summary, ("Line: " : Text) ++ shown,
            List.replicate (error.column + 5) (CodePoint.char '-') ++ "^"]
        ∧ (error.IsOnPlainLine → Text.ShownAs line shown
            ∧ ∀ c, document[error.position]? = some c → c.isLineEnd = false
              → (("Line: " : Text) ++ shown)[error.column + 5]? = some c) := by
  obtain ⟨cause, position, rfl, inside, named⟩ := located_of_decode h
  have behind := MalformedJson.isBehind_located cause inside
  obtain ⟨line, rest, isLine, goesOn, ends⟩ := behind.exists_line (document.drop position)
  rw [List.take_append_drop] at isLine
  refine ⟨behind, line, rest, _, isLine, goesOn, ends, MalformedJson.splitOn_message named, ?_⟩
  intro alike
  have isShown := MalformedJson.shownAs_shownLine (Nat.succ_pos _) isLine alike
  refine ⟨isShown, fun c isThere noEnd => MalformedJson.getElem?_shown isShown ?_ noEnd⟩
  have notFeed : c ≠ .char '\n' := by
    rintro rfl
    cases noEnd
  exact MalformedJson.getElem?_of_endsLine goesOn ends isThere notFeed

deriving instance DecidableEq for MalformedJson

/-- An object over lines that end with carriage return and line feed. -/
def returnLines : Text :=
  "\x7b\r\n  \"a\": [1, NaN]\r\n\x7d"

/-- With carriage returns in front of line feeds, the line is shown without them. -/
theorem message_of_decode_returnLines
    : ∃ error line shown, decode returnLines = .error error ∧ error.IsOnPlainLine
      ∧ (returnLines.splitOn (.char '\n'))[error.line - 1]? = some line ∧ Text.ShownAs line shown
      ∧ error.message.splitOn (.char '\n')
        = [error.summary, ("Line: " : Text) ++ shown,
          List.replicate (error.column + 5) (CodePoint.char '-') ++ "^"] := by
  have decoded : decode returnLines = .error (.located (.constant "NaN") returnLines 14) := by
    decide +kernel
  have alike : (MalformedJson.located (.constant "NaN") returnLines 14).IsOnPlainLine := by
    have upTo : (returnLines.splitOn (.char '\n')).take
          (MalformedJson.located (.constant "NaN") returnLines 14).line
        = [("\x7b" : Text) ++ [.char '\r'], ("  \"a\": [1, NaN]" : Text) ++ [.char '\r']] := by
      decide +kernel
    refine ⟨fun line member => ?_, fun _ => by decide +kernel⟩
    have member := upTo ▸ member
    simp only [List.mem_cons, List.not_mem_nil, or_false] at member
    rcases member with rfl | rfl
    · exact ⟨_, by decide, .inr rfl⟩
    · exact ⟨_, by decide, .inr rfl⟩
  obtain ⟨-, line, _, shown, isLine, -, -, message, onPlain⟩ := message_of_decode decoded
  exact ⟨_, line, shown, decoded, alike, isLine, (onPlain alike).1, message⟩

/-- An array with a line separator in a string, and an `x` on its second line. -/
def separated : Text :=
  "[\"\u2028\",\nx]"

/-- An array that is over with its first line. -/
def unfinished : Text :=
  "[1,\n"

/-- The line that is shown need not be the line of the error. A line separator ends a line
when the line is looked up, but is not counted, and no line is found behind the last line feed.
-/
theorem shownLine_ne_line
    : (∃ error, decode separated = .error error ∧ error.line = 2
        ∧ (separated.splitOn (.char '\n'))[1]? = some ("x]" : Text)
        ∧ (error.message.splitOn (.char '\n'))[1]? = some ("Line: \"," : Text))
      ∧ ∃ error, decode unfinished = .error error ∧ error.line = 2
        ∧ (unfinished.splitOn (.char '\n'))[1]? = some []
        ∧ (error.message.splitOn (.char '\n'))[1]? = some ("Line: [1," : Text) :=
  ⟨⟨.located .expectedValue separated 6, by decide +kernel⟩,
    .located .expectedValue unfinished 4, by decide +kernel⟩

end Document

end JsonPath
