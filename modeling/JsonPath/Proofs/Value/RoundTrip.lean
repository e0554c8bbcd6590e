import JsonPath.Proofs.Rendering.Literals
import JsonPath.Proofs.Value.Documents
import JsonPath.Value.Printer

/-! Writing a value and reading it back. Only infinite numbers stand in the way: they are
written as constants that are no JSON. Everything else is read as it was written, whatever
the indentation.
-/

namespace JsonPath

-----------------------------------------------------------------------------------------
-- Values without infinities
-----------------------------------------------------------------------------------------

namespace Value

mutual

/-- Whether no number in the value is infinite, at any depth. -/
def allFinite : Value → Bool
  | array elements => elementsAllFinite elements
  | object members => membersAllFinite members
  | value => value.isFinite

def elementsAllFinite : List Value → Bool
  | [] => true
  | value :: values => value.allFinite && elementsAllFinite values

def membersAllFinite : Members → Bool
  | [] => true
  | (_, value) :: members => value.allFinite && membersAllFinite members

end

/-- The only number in a literal is the literal. -/
theorem allFinite_of_isLiteral {value : Value} (h : value.IsLiteral)
    : value.allFinite = value.isFinite := by
  cases value with
  | array _ => cases h
  | object _ => cases h
  | _ => rfl

/-- A document can have the value, with this many levels of nesting at most: its integers
are not too long, and names are distinct in every object.
-/
inductive IsReadable : Nat → Value → Prop
  | literal {depth value} (isLiteral : value.IsLiteral) : IsReadable (depth + 1) value
  | array {depth elements} (parts : ∀ element ∈ elements, IsReadable depth element)
    : IsReadable (depth + 1) (.array elements)
  | object {depth members} (distinct : (members.map Prod.fst).Nodup)
    (parts : ∀ member ∈ members, IsReadable depth (Prod.snd member))
    : IsReadable (depth + 1) (.object members)

end Value

namespace Members

/-- A name that is new is set at the end. -/
theorem set_of_not_mem {name : Text} {members : Members} (value : Value)
    (new : name ∉ members.map Prod.fst)
    : set name value members = members ++ [(name, value)] := by
  induction members with
  | nil => rfl
  | cons first members ih =>
      obtain ⟨name', value'⟩ := first
      simp only [List.map_cons, List.mem_cons, not_or] at new
      rw [set, if_neg (Ne.symm new.1), ih new.2, List.cons_append]

/-- New names are set one after another, by induction on the members. -/
theorem foldl_set_of_nodup {members found : Members}
    (distinct : ((found ++ members).map Prod.fst).Nodup)
    : members.foldl (fun found (name, value) => set name value found) found
      = found ++ members := by
  induction members generalizing found with
  | nil => exact (List.append_nil found).symm
  | cons first members ih =>
      obtain ⟨name, value⟩ := first
      have new : name ∉ found.map Prod.fst := by
        intro member
        rw [List.map_append] at distinct
        exact (List.nodup_append.mp distinct).2.2 name member name (by simp) rfl
      have step : set name value found = found ++ [(name, value)] := set_of_not_mem value new
      rw [List.append_cons] at distinct ⊢
      rw [List.foldl_cons, ← ih distinct]
      simp only [step]

/-- Members with distinct names are kept as they are listed. -/
theorem ofList_of_nodup {members : Members} (distinct : (members.map Prod.fst).Nodup)
    : ofList members = members := by
  have distinct : (([] ++ members).map Prod.fst).Nodup := distinct
  exact foldl_set_of_nodup distinct

end Members

namespace Document

open Grammar Outcome Syntax

/-- The fault is a constant that is no JSON. -/
def Fault.IsConstant (fault : Fault) : Prop :=
  ∃ name, fault.cause = .constant name

/-- A reading that fails at a constant unless the value is finite. -/
abbrev ReadsBack {α : Type} (finite : Bool) (reading : Except Fault α) (result : α) : Prop :=
  Yields Fault.IsConstant finite reading result

-----------------------------------------------------------------------------------------
-- Layout
-----------------------------------------------------------------------------------------

/-- Line breaks and indents are blanks. -/
theorem blanks_lineBreak (indent : Option Nat) (level : Nat) (rest : Text)
    : Blanks (lineBreak indent level ++ rest) rest := by
  have spaces (n : Nat) : Blanks (List.replicate n (.char ' ') ++ rest) rest := by
    induction n with
    | zero => exact .none
    | succ n ih =>
        rw [List.replicate_succ, List.cons_append]
        exact .more rfl ih
  cases indent with
  | none => exact .none
  | some width => exact .more rfl (spaces _)

/-- Parts are separated by a comma and blanks. -/
theorem separator_append (indent : Option Nat) (level : Nat) {t : Text} (solid : IsSolid t)
    : ∃ behind, separator indent level ++ t = .char ',' :: behind ∧ Text.skipBlanks behind = t := by
  cases indent with
  | none => exact ⟨.char ' ' :: t, rfl, skipBlanks_eq (.more rfl .none) solid⟩
  | some width =>
      exact ⟨lineBreak (some width) level ++ t, rfl, skipBlanks_eq (blanks_lineBreak _ _ t) solid⟩

/-- Literals are written as in queries, whatever the indent. -/
theorem write_of_isLiteral {value : Value} (h : value.IsLiteral) (indent : Option Nat)
    (level : Nat)
    : write indent level value = value.text := by
  cases value with
  | bool b => cases b <;> rfl
  | array _ => cases h
  | object _ => cases h
  | _ => rfl

/-- What starts no written value. -/
def offValue : List Char :=
  [']', '\uFEFF']

/-- What is written starts with no blank and ends no value. -/
theorem starts_write (indent : Option Nat) (level : Nat) (value : Value) (rest : Text)
    : StartsOff offValue (write indent level value ++ rest) := by
  cases value with
  | null => exact starts_of_char rfl (by decide)
  | bool b => cases b <;> exact starts_of_char rfl (by decide)
  | string content => exact starts_of_char rfl (by decide)
  | array values => cases values <;> exact starts_of_char rfl (by decide)
  | object members => cases members <;> exact starts_of_char rfl (by decide)
  | number n =>
      have whole (n : Nat) : StartsOff offValue (Numeral.ofNat n ++ rest) :=
        starts_of_whole (Numeral.whole_ofNat n) (by decide)
      cases n with
      | int n => exact starts_of_minus (minus_ofInt n rest) (whole _) (by decide)
      | float x =>
          cases infinite : x.isInfinite with
          | false =>
              obtain ⟨literal, ⟨sign, isWhole, _, _⟩, _⟩ := numeric_text infinite rest
              exact starts_of_minus sign (starts_of_whole isWhole (by decide)) (by decide)
          | true =>
              have isLiteral : (Value.number (.float x)).IsLiteral := trivial
              have notFinite : (Value.number (.float x)).isFinite = false := by
                simp [Value.isFinite, Number.isInfinite, infinite]
              rcases text_of_not_isFinite notFinite with text | text
              all_goals
                rw [write_of_isLiteral isLiteral, text]
                exact starts_of_char rfl (by decide)

/-- What bounds the length of a written value is no zero. -/
theorem exists_bound {indent : Option Nat} {level bound : Nat} {value : Value} {rest : Text}
    (short : (write indent level value ++ rest).length ≤ bound)
    : ∃ fewer, bound = fewer + 1 := by
  obtain ⟨c, after, eq, _⟩ := starts_write indent level value rest
  rw [eq, List.length_cons] at short
  exact Nat.exists_eq_succ_of_ne_zero (by omega)

-----------------------------------------------------------------------------------------
-- Values without parts
-----------------------------------------------------------------------------------------

section Reading

variable {limit : Nat} {nested : Text → Except Fault (Value × Text)} {rest : Text}

/-- A value that is no string and has no parts is a scalar. -/
theorem valueWith_of_starts {t : Text} (starts : StartsOff ['"', '[', '\x7b'] t)
    : valueWith limit nested t = scalar t := by
  unfold valueWith
  split
  next => exact absurd rfl (fun eq => starts.ne eq (by simp))
  next => exact absurd rfl (fun eq => starts.ne eq (by simp))
  next => exact absurd rfl (fun eq => starts.ne eq (by simp))
  next => rfl

/-- A written string is read back up to its quote, by induction on the content. -/
theorem stringRest_writeString (start content : Text)
    (bound : (content.flatMap writeChar ++ .char '"' :: rest).length ≤ limit)
    : stringRest start limit (content.flatMap writeChar ++ .char '"' :: rest)
      = .ok (content, rest) :=
  stringRest_complete start (repeated_flatMap stringCharacter_writeChar content _) rfl bound

theorem writeString_append (content : Text)
    : writeString content ++ rest
      = .char '"' :: (content.flatMap writeChar ++ .char '"' :: rest) := by
  simp [writeString]

/-- What stands behind a written value: the end of the text, or the next character of the
layout around it.
-/
def valueStops : List Char :=
  [',', ']', '\x7d']

/-- A number of few enough digits is read back from its literal. -/
theorem valueWith_number {literal : NumberLiteral} {t : Text}
    (spelling : Numeric t literal rest) (short : (Value.number literal.value).isWritable)
    (ends : EndsAt valueStops rest)
    : valueWith limit nested t = .ok (.number literal.value, rest) := by
  have starts : StartsOff ['"', '[', '\x7b'] t := by
    obtain ⟨sign, isWhole, _, _⟩ := spelling
    exact starts_of_minus sign (starts_of_whole isWhole (by decide)) (by decide)
  have avoids : Avoids isNumberPart rest := ends.avoids (blank_avoids (by decide)) (by decide)
  rw [valueWith_of_starts starts, scalar_of_numeric spelling short avoids]

/-- A written literal is read back, unless it is infinite. -/
theorem valueWith_literal {value : Value} (isLiteral : value.IsLiteral)
    (bound : (value.text ++ rest).length ≤ limit) (ends : EndsAt valueStops rest)
    : ReadsBack value.isFinite (valueWith limit nested (value.text ++ rest)) (value, rest) := by
  cases finite : value.isFinite with
  | false =>
      rcases text_of_not_isFinite finite with text | text
      · rw [text]
        exact ⟨⟨.constant "Infinity", _⟩, rfl, "Infinity", rfl⟩
      · rw [text]
        exact ⟨⟨.constant "-Infinity", _⟩, rfl, "-Infinity", rfl⟩
  | true =>
      refine .of_ok ?_
      cases value with
      | null => rfl
      | bool b => cases b <;> rfl
      | number n =>
          cases n with
          | int n =>
              have short : (Value.number (.int n)).isWritable :=
                (Numeral.isWritable_iff n).mpr isLiteral
              rw [← value_integerLiteral n] at short
              have read : valueWith limit nested _ = _ :=
                valueWith_number (numeric_ofInt n rest) short ends
              rwa [value_integerLiteral] at read
          | float x =>
              have notInfinite : x.isInfinite = false := by
                simpa [Value.isFinite, Number.isInfinite] using finite
              obtain ⟨_, spelling, value⟩ := numeric_text notInfinite rest
              have short : (Value.number (.float x)).isWritable := rfl
              rw [← value] at short
              have read : valueWith limit nested _ = _ := valueWith_number spelling short ends
              rwa [value] at read
      | string content =>
          have text : Value.text (.string content) = writeString content := rfl
          rw [text, writeString_append] at bound ⊢
          rw [valueWith, stringRest_writeString _ content (Nat.le_of_succ_le bound)]
          rfl
      | array _ => cases isLiteral
      | object _ => cases isLiteral

-----------------------------------------------------------------------------------------
-- Elements and members
-----------------------------------------------------------------------------------------

/-- Written at a level, the value is read back in front of every text that the layout can
go on with, as long as the whole text is within the limit.
-/
def IsReadBack (limit : Nat) (nested : Text → Except Fault (Value × Text))
    (indent : Option Nat) (level : Nat) (value : Value)
    : Prop :=
  ∀ rest,
    (write indent level value ++ rest).length ≤ limit
    → EndsAt valueStops rest
    → ReadsBack value.allFinite (nested (write indent level value ++ rest)) (value, rest)

variable {indent : Option Nat} {level : Nat} {stop : Text}

/-- What is left to read behind a comma is shorter than the text. -/
theorem length_behindComma_le {before behind : Text} {bound : Nat}
    (short : (before ++ .char ',' :: behind).length ≤ bound + 1)
    : (Text.skipBlanks behind).length ≤ bound := by
  have skipped := length_le_of_blanks (blanks_skipBlanks behind)
  rw [List.length_append, List.length_cons] at short
  omega

/-- The first element and those after it are read up to the bracket, by induction on those
after it.
-/
theorem elements_write {value : Value} {values : List Value} {bound : Nat}
    (readBack : ∀ element ∈ value :: values, IsReadBack limit nested indent level element)
    (blanks : Blanks stop (.char ']' :: rest))
    (short
      : (write indent level value ++ (writeElements indent level values ++ stop)).length
        ≤ bound)
    (within : bound ≤ limit)
    : ReadsBack (Value.elementsAllFinite (value :: values))
        (elements nested bound
          (write indent level value ++ (writeElements indent level values ++ stop)))
        (value :: values, rest) := by
  induction values generalizing value bound with
  | nil =>
      obtain ⟨bound, rfl⟩ := exists_bound short
      have ends : EndsAt valueStops stop := .of_blanks blanks (.cons (by simp [valueStops]) rfl)
      have first := readBack value (by simp) stop (short.trans within) ends
      have atBracket : Text.skipBlanks stop = .char ']' :: rest :=
        skipBlanks_eq blanks (isSolid_cons rfl)
      rw [Value.elementsAllFinite, Value.elementsAllFinite, Bool.and_true, writeElements,
        List.nil_append, elements]
      refine first.bind_ok ?_
      simp only [atBracket]
      rfl
  | cons next values ih =>
      obtain ⟨bound, rfl⟩ := exists_bound short
      obtain ⟨behind, text, atNext⟩ :=
        separator_append indent level (starts_write indent level next _).isSolid
      have atComma : Text.skipBlanks (.char ',' :: behind) = .char ',' :: behind := isSolid_cons rfl
      rw [writeElements, List.append_assoc, List.append_assoc, text] at short ⊢
      have first := readBack value (by simp) _ (short.trans within)
        (.cons (by simp [valueStops]) rfl)
      have fewer := length_behindComma_le short
      rw [atNext] at fewer
      have others := ih (fun element member => readBack element (List.mem_cons_of_mem _ member))
        fewer (Nat.le_of_succ_le within)
      rw [Value.elementsAllFinite, elements]
      refine first.bind ?_
      simp only [atComma, atNext]
      exact others.bind_ok rfl

/-- The name of a written member and the colon are read in front of the value. -/
theorem members_writeString {name t : Text} {bound : Nat} (solid : IsSolid t)
    (short : (writeString name ++ (": " ++ t)).length ≤ bound + 1)
    : members nested (bound + 1) (writeString name ++ (": " ++ t))
      = (do
        let (value, rest) ← nested t
        match Text.skipBlanks rest with
        | .char '\x7d' :: rest => return ([(name, value)], rest)
        | .char ',' :: rest =>
          let (others, rest) ← members nested bound (Text.skipBlanks rest)
          return ((name, value) :: others, rest)
        | rest => fail .expectedComma rest) := by
  have atColon : Text.skipBlanks (": " ++ t) = .char ':' :: .char ' ' :: t := isSolid_cons rfl
  have atValue : Text.skipBlanks (.char ' ' :: t) = t := skipBlanks_eq (.more rfl .none) solid
  rw [writeString_append] at short ⊢
  rw [members, stringRest_writeString _ name (Nat.le_of_succ_le_succ short), ok_bind]
  simp only [atColon]
  exact congrArg (nested · >>= _) atValue

/-- The length of a written member bounds that of its value. -/
theorem exists_memberBound {name t : Text} {bound : Nat}
    (short : (writeString name ++ (": " ++ t)).length ≤ bound)
    : ∃ fewer, bound = fewer + 1 ∧ t.length ≤ fewer := by
  have shorter : t.length < (writeString name ++ (": " ++ t)).length := by
    simp only [List.length_append, Text.ofString, List.length_map]
    simp
    omega
  exact ⟨bound - 1, by omega, by omega⟩

/-- The first member and those after it are read up to the brace, by induction on those after
it.
-/
theorem members_write {name : Text} {value : Value} {others : Members} {bound : Nat}
    (readBack
      : ∀ member ∈ (name, value) :: others, IsReadBack limit nested indent level member.2)
    (blanks : Blanks stop (.char '\x7d' :: rest))
    (short
      : (writeString name
          ++ (": " ++ (write indent level value
            ++ (writeMembers indent level others ++ stop)))).length
        ≤ bound)
    (within : bound ≤ limit)
    : ReadsBack (Value.membersAllFinite ((name, value) :: others))
        (members nested bound
          (writeString name
            ++ (": " ++ (write indent level value ++ (writeMembers indent level others ++ stop)))))
        ((name, value) :: others, rest) := by
  induction others generalizing name value bound with
  | nil =>
      obtain ⟨bound, rfl, less⟩ := exists_memberBound short
      have ends : EndsAt valueStops stop := .of_blanks blanks (.cons (by simp [valueStops]) rfl)
      have first : ReadsBack _ (nested (write indent level value ++ stop)) (value, stop) :=
        readBack (name, value) (by simp) stop (less.trans (Nat.le_of_succ_le within)) ends
      have atBrace : Text.skipBlanks stop = .char '\x7d' :: rest :=
        skipBlanks_eq blanks (isSolid_cons rfl)
      rw [Value.membersAllFinite, Value.membersAllFinite, Bool.and_true,
        members_writeString (starts_write _ _ _ _).isSolid short, writeMembers, List.nil_append]
      refine first.bind_ok ?_
      simp only [atBrace]
      rfl
  | cons next others ih =>
      obtain ⟨bound, rfl, less⟩ := exists_memberBound short
      obtain ⟨nextName, next⟩ := next
      have solid (t : Text) : IsSolid (writeString nextName ++ t) := isSolid_cons rfl
      obtain ⟨behind, text, atNext⟩ := separator_append indent level
        (solid (": " ++ (write indent level next ++ (writeMembers indent level others ++ stop))))
      have atComma : Text.skipBlanks (.char ',' :: behind) = .char ',' :: behind := isSolid_cons rfl
      have listed : writeMembers indent level ((nextName, next) :: others) ++ stop
          = .char ',' :: behind := by
        rw [← text]
        simp [writeMembers]
      rw [listed] at short less ⊢
      have first : ReadsBack _ (nested (write indent level value ++ .char ',' :: behind))
          (value, .char ',' :: behind) :=
        readBack (name, value) (by simp) _ (less.trans (Nat.le_of_succ_le within))
          (.cons (by simp [valueStops]) rfl)
      have fewer := length_behindComma_le (Nat.le_succ_of_le less)
      rw [atNext] at fewer
      have others := ih (fun member among => readBack member (List.mem_cons_of_mem _ among))
        fewer (Nat.le_of_succ_le within)
      rw [Value.membersAllFinite, members_writeString (starts_write _ _ _ _).isSolid short]
      refine first.bind ?_
      simp only [atComma, atNext]
      exact others.bind_ok rfl

-----------------------------------------------------------------------------------------
-- Whole values
-----------------------------------------------------------------------------------------

/-- Behind a bracket and blanks, elements are read. -/
theorem valueWith_bracket {t start : Text} (blanks : Blanks t start)
    (starts : StartsOff offValue start)
    : valueWith limit nested (.char '[' :: t)
      = (do
        let (values, rest) ← elements nested limit start
        return (.array values, rest)) := by
  rw [valueWith, skipBlanks_eq blanks starts.isSolid]
  split
  next => exact absurd rfl (fun eq => starts.ne eq (by simp [offValue]))
  next => rfl

/-- Behind a brace and blanks, members are read when a name follows. -/
theorem valueWith_brace {t name after : Text} (blanks : Blanks t (writeString name ++ after))
    : valueWith limit nested (.char '\x7b' :: t)
      = (do
        let (found, rest) ← members nested limit (writeString name ++ after)
        return (.object (Members.ofList found), rest)) := by
  rw [valueWith, skipBlanks_eq blanks (isSolid_cons rfl)]
  rfl

/-- Every value that a document can have is read back, by induction on its levels of nesting.
-/
theorem isReadBack_of_isReadable {depth : Nat} {value : Value} (readable : value.IsReadable depth)
    (level : Nat)
    : IsReadBack limit (Document.value limit depth) indent level value := by
  induction readable generalizing level with
  | literal isLiteral =>
      intro rest bound ends
      rw [write_of_isLiteral isLiteral] at bound ⊢
      rw [Value.allFinite_of_isLiteral isLiteral]
      exact valueWith_literal isLiteral bound ends
  | @array depth elements parts ih =>
      intro rest bound _
      cases elements with
      | nil => exact .of_ok rfl
      | cons value values =>
          have text : write indent level (.array (value :: values)) ++ rest
              = .char '[' :: (lineBreak indent (level + 1)
                ++ (write indent (level + 1) value
                  ++ (writeElements indent (level + 1) values
                    ++ (lineBreak indent level ++ .char ']' :: rest)))) := by
            simp [write, Text.ofString]
          rw [text, List.length_cons, List.length_append] at bound
          rw [text, Document.value,
            valueWith_bracket (blanks_lineBreak _ _ _) (starts_write _ _ _ _)]
          have read := elements_write (fun element member => ih element member (level + 1))
            (blanks_lineBreak indent level (.char ']' :: rest)) (by omega) le_rfl
          exact read.bind_ok rfl
  | @object depth members distinct parts ih =>
      intro rest bound _
      cases members with
      | nil => exact .of_ok rfl
      | cons member members =>
          obtain ⟨name, value⟩ := member
          have text : write indent level (.object ((name, value) :: members)) ++ rest
              = .char '\x7b' :: (lineBreak indent (level + 1)
                ++ (writeString name ++ ((": " : Text) ++ (write indent (level + 1) value
                  ++ (writeMembers indent (level + 1) members
                    ++ (lineBreak indent level ++ .char '\x7d' :: rest)))))) := by
            simp [write, Text.ofString]
          rw [text, List.length_cons, List.length_append] at bound
          rw [text, Document.value, valueWith_brace (blanks_lineBreak _ _ _)]
          have read := members_write (fun member among => ih member among (level + 1))
            (blanks_lineBreak indent level (.char '\x7d' :: rest)) (by omega) le_rfl
          refine read.bind_ok ?_
          simp only [Members.ofList_of_nodup distinct]
          rfl

end Reading

/-- What was decoded can be read again at the same depth. -/
theorem isReadable_of_decode {depth : Nat} {document : Text} {found : Value}
    (h : decodeWithin depth document = .ok found)
    : found.IsReadable depth := by
  obtain ⟨start, rest, read⟩ := value_of_decode h
  exact forall_of_value (P := Value.IsReadable) (fun _ _ => .literal) (fun _ _ _ => .array)
    (fun _ _ => .object) read

/-- What is readable is read back from its encoding, unless it contains an infinite number. -/
theorem read_encode {depth : Nat} {found : Value} (readable : found.IsReadable depth)
    (indent : Option Int)
    : ReadsBack found.allFinite (read depth (encode found indent)) found := by
  have starts := starts_write (indent.map Int.toNat) 0 found []
  have readBack : IsReadBack ((encode found indent).length + 1)
      (value ((encode found indent).length + 1) depth) (indent.map Int.toNat) 0 found :=
    isReadBack_of_isReadable readable 0
  have whole := readBack []
  rw [List.append_nil] at starts whole
  have whole := whole (Nat.le_succ _) (.nil _)
  unfold read
  split
  next eq => exact absurd rfl (fun same => starts.ne (eq.trans same) (by simp [offValue]))
  next =>
    rw [encode, starts.isSolid]
    exact whole.bind_ok rfl

/-- Values that come from a text or from bytes are written so that reading gives them back
exactly if no number in them is infinite; with an infinite number, reading fails at a
constant that is no JSON. This holds for every indentation and at any bound on the nesting of
values.
-/
theorem decode_encode {depth : Nat} {found : Value}
    (decoded : (∃ document, decodeWithin depth document = .ok found)
      ∨ ∃ bytes, decodeBytesWithin depth bytes = .ok found)
    (indent : Option Int)
    : (decodeWithin depth (encode found indent) = .ok found ↔ found.allFinite)
      ∧ (found.allFinite = false
        → ∃ error name,
          decodeWithin depth (encode found indent) = .error error
          ∧ error.cause = .constant name) := by
  have readable : found.IsReadable depth := by
    rcases decoded with ⟨document, decoded⟩ | ⟨bytes, decoded⟩
    · exact isReadable_of_decode decoded
    · unfold decodeBytesWithin at decoded
      split at decoded
      next => exact isReadable_of_decode decoded
      next => cases decoded
  have readBack := read_encode readable indent
  cases finite : found.allFinite with
  | true =>
      rw [finite] at readBack
      simp [decodeWithin, readBack.eq_ok, Except.mapError]
  | false =>
      rw [finite] at readBack
      obtain ⟨fault, error, name, isConstant⟩ := readBack.exists_error
      simp [decodeWithin, error, Except.mapError, MalformedJson.located, isConstant]

/-- The infinite number that `1e999` denotes. -/
def infinity : Value :=
  .number (.float (.ofIndex false Binary64.infinityIndex))

/-- A number beyond the range is decoded as infinity. -/
theorem decode_infinity : decode "[1e999]" = .ok (.array [infinity]) := by
  have number : value 8 959 "1e999]" = .ok (infinity, "]") := rfl
  have parts : elements (value 8 959) 8 "1e999]" = .ok ([infinity], []) := by
    rw [elements, number]
    rfl
  have whole : value 8 960 "[1e999]" = .ok (.array [infinity], []) := by
    have starts : StartsOff offValue "1e999]" := starts_of_char rfl (by decide)
    have isArray : valueWith 8 (value 8 959) (.char '[' :: ("1e999]" : Text)) = _ :=
      valueWith_bracket .none starts
    rw [parts] at isArray
    exact isArray
  have read : read 960 "[1e999]" = value 8 960 "[1e999]" >>= _ := rfl
  rw [decode, maxDepth, decodeWithin, read, whole]
  rfl

/-- An array of a number that is too large is written, but not read back. -/
theorem decode_encode_infinity
    : decode "[1e999]" = .ok (.array [infinity])
      ∧ decode (encode (.array [infinity]) (some 2)) ≠ .ok (.array [infinity])
      ∧ ∃ error name,
        decode (encode (.array [infinity]) (some 2)) = .error error
        ∧ error.cause = .constant name := by
  have infinite : (Value.array [infinity]).allFinite = false := by
    simp [infinity, Value.allFinite, Value.elementsAllFinite, Value.isFinite,
      Number.isInfinite, Binary64.isInfinite, Binary64.ofIndex]
  obtain ⟨same, fails⟩ := decode_encode (.inl ⟨_, decode_infinity⟩) (some 2)
  refine ⟨decode_infinity, fun back => ?_, fails infinite⟩
  rw [same.mp back] at infinite
  cases infinite

end Document

end JsonPath
