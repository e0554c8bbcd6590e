import JsonPath.Value.Malformed
import Mathlib.Data.List.Induction

/-! Places in a document. The line and the column of a place are counted from the line feeds
before it.
-/

namespace JsonPath

namespace MalformedJson

/-- The index of the last line feed of a text, and -1 when there is none. -/
inductive LastFeed : Text → Int → Prop
  | none {t} (absent : .char '\n' ∉ t) : LastFeed t (-1)
  | some {front line} (absent : .char '\n' ∉ line)
    : LastFeed (front ++ .char '\n' :: line) front.length

/-- The error is reported at the end of `before`: on the line after as many line feeds, and
in the column that counts from the last one of them.
-/
structure IsBehind (error : MalformedJson) (before : Text) : Prop where
  position : error.position = before.length
  line : error.line = before.count (.char '\n') + 1
  column : ∃ feed, LastFeed before feed ∧ error.column = error.position - feed

/-- A character that is no line feed leaves the last one where it is. -/
theorem LastFeed.concat {t : Text} {feed : Int} {c : CodePoint} (h : LastFeed t feed)
    (notFeed : c ≠ .char '\n')
    : LastFeed (t ++ [c]) feed := by
  cases h with
  | none absent => exact .none (by simp [absent, notFeed.symm])
  | some absent =>
      rw [List.append_assoc, List.cons_append]
      exact .some (by simp [absent, notFeed.symm])

/-- What is counted from the end of a text is the distance from its last line feed, by
induction from its end.
-/
theorem exists_lastFeed (t : Text)
    : ∃ feed, LastFeed t feed
      ∧ ((t.reverse.takeWhile (· ≠ .char '\n')).length + 1 : Int) = t.length - feed := by
  induction t using List.reverseRecOn with
  | nil => exact ⟨-1, .none List.not_mem_nil, rfl⟩
  | append_singleton t c ih =>
      by_cases isFeed : c = .char '\n'
      · subst isFeed
        have behind : (t ++ [CodePoint.char '\n']).reverse.takeWhile (· ≠ .char '\n') = [] := by
          simp
        refine ⟨t.length, .some List.not_mem_nil, ?_⟩
        rw [behind, List.length_append, List.length_singleton, List.length_nil]
        omega
      · obtain ⟨feed, isLast, distance⟩ := ih
        refine ⟨feed, isLast.concat isFeed, ?_⟩
        have behind : (t ++ [c]).reverse.takeWhile (· ≠ .char '\n')
            = c :: t.reverse.takeWhile (· ≠ .char '\n') := by
          simp [isFeed]
        rw [behind, List.length_cons, List.length_append, List.length_singleton]
        omega

/-- The line and the column of a position are those of the text in front of it. -/
theorem isBehind_located (cause : Malformation) {document : Text} {position : Nat}
    (inside : position ≤ document.length)
    : (located cause document position).IsBehind (document.take position) where
  position := (List.length_take_of_le inside).symm
  line := rfl
  column := by
    obtain ⟨feed, isLast, column⟩ := exists_lastFeed (document.take position)
    refine ⟨feed, isLast, ?_⟩
    rw [List.length_take_of_le inside] at column
    exact column

-----------------------------------------------------------------------------------------
-- The line of a place
-----------------------------------------------------------------------------------------

/-- There is one line more than line feeds. -/
theorem length_splitOn_feed (t : Text)
    : (t.splitOn (.char '\n')).length = t.count (.char '\n') + 1 := by
  induction t with
  | nil => rfl
  | cons c t ih =>
      rw [List.splitOn_cons_eq_if_modifyHead, List.count_cons]
      split
      next => simp [ih]
      next => simp [ih]

/-- Nothing is left on the line. -/
def EndsLine (t : Text) : Prop :=
  ∀ c rest, t = c :: rest → c = .char '\n'

/-- Every text starts with a line, up to a line feed or to its end. -/
theorem exists_endsLine (t : Text)
    : ∃ line rest, t = line ++ rest ∧ .char '\n' ∉ line ∧ EndsLine rest := by
  by_cases member : .char '\n' ∈ t
  · obtain ⟨line, rest, rfl, absent⟩ := List.eq_append_cons_of_mem member
    refine ⟨line, _, rfl, absent, fun c after eq => ?_⟩
    exact (List.cons.inj eq).1.symm
  · exact ⟨t, [], (List.append_nil t).symm, member, nofun⟩

/-- The first line is what stands in front of the first line feed. -/
theorem head_splitOn_feed {line rest : Text} (absent : .char '\n' ∉ line)
    (ends : EndsLine rest)
    : ((line ++ rest).splitOn (.char '\n'))[0]? = some line := by
  cases rest with
  | nil => rw [List.append_nil, List.splitOn_eq_singleton absent]; rfl
  | cons c rest =>
      obtain rfl := ends c rest rfl
      rw [List.splitOn_append_cons_self_of_not_mem absent]
      rfl

/-- The line and the column of an error lead to its place: from that column on, the line
between line feeds goes on as the document does.
-/
theorem IsBehind.exists_line {error : MalformedJson} {before : Text} (h : error.IsBehind before)
    (after : Text)
    : ∃ line rest, ((before ++ after).splitOn (.char '\n'))[error.line - 1]? = some line
      ∧ after = line.drop (error.column - 1) ++ rest ∧ EndsLine rest := by
  obtain ⟨position, line, feed, isLast, column⟩ := h
  obtain ⟨tail, rest, rfl, absentTail, ends⟩ := exists_endsLine after
  rw [line, Nat.add_sub_cancel]
  cases isLast with
  | none absent =>
      have whole : error.column - 1 = before.length := by omega
      refine ⟨before ++ tail, rest, ?_, ?_, ends⟩
      · rw [List.count_eq_zero.mpr absent, ← List.append_assoc]
        exact head_splitOn_feed (by simp [absent, absentTail]) ends
      · rw [whole, List.drop_left]
  | @some front last absent =>
      have onLine : error.column - 1 = last.length := by
        rw [List.length_append, List.length_cons] at position
        omega
      refine ⟨last ++ tail, rest, ?_, ?_, ends⟩
      · have feeds : (front ++ .char '\n' :: last).count (.char '\n')
            = (front.splitOn (.char '\n')).length := by
          simp [length_splitOn_feed, List.count_eq_zero.mpr absent]
        rw [feeds, List.append_assoc, List.cons_append, List.splitOn_append_cons_self,
          List.getElem?_append_right (Nat.le_refl _), Nat.sub_self, ← List.append_assoc]
        exact head_splitOn_feed (by simp [absent, absentTail]) ends
      · rw [onLine, List.drop_left]

/-- What stands at a place and is no line feed stands on the line, in the same column. -/
theorem getElem?_of_endsLine {document text rest : Text} {position index : Nat} {c : CodePoint}
    (goesOn : document.drop position = text.drop index ++ rest) (ends : EndsLine rest)
    (isThere : document[position]? = some c) (notFeed : c ≠ .char '\n')
    : text[index]? = some c := by
  have first : (text.drop index ++ rest)[0]? = some c := by
    rw [← goesOn, List.getElem?_drop]
    exact isThere
  have onLine : text[index]? = (text.drop index)[0]? := by
    rw [List.getElem?_drop]
    rfl
  rw [onLine]
  cases behind : text.drop index with
  | nil =>
      rw [behind, List.nil_append, ← List.head?_eq_getElem?, List.head?_eq_some_iff] at first
      obtain ⟨after, eq⟩ := first
      exact absurd (ends c after eq) notFeed
  | cons d after =>
      rw [behind] at first
      exact first

end MalformedJson

end JsonPath
