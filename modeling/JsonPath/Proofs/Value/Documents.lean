import JsonPath.Proofs.Value.Scalars

/-! Documents: the values that reading can return. The names in an object are distinct there,
since the last of several members with one name counts, and arrays are bounded by the length
of the text. Values that are only known to have distinct names in every object are keyed.
-/

namespace JsonPath

namespace Members

theorem mem_of_get? {name : Text} {members : Members} {value : Value}
    (h : get? name members = some value)
    : (name, value) ∈ members := by
  induction members with
  | nil => cases h
  | cons first others ih =>
      obtain ⟨name', value'⟩ := first
      rw [get?] at h
      split at h
      next same =>
        obtain rfl := Option.some.inj h
        simp [same]
      next => exact List.mem_cons_of_mem _ (ih h)

/-- With distinct names, every member is found. -/
theorem get?_of_mem {name : Text} {members : Members} {value : Value}
    (distinct : (members.map Prod.fst).Nodup) (h : (name, value) ∈ members)
    : get? name members = some value := by
  induction members with
  | nil => cases h
  | cons first others ih =>
      obtain ⟨name', value'⟩ := first
      obtain ⟨notAgain, distinct⟩ := List.nodup_cons.mp distinct
      rw [get?]
      rcases List.mem_cons.mp h with same | member
      · obtain ⟨rfl, rfl⟩ := Prod.mk.inj same
        rw [if_pos rfl]
      · have different : name' ≠ name := by
          rintro rfl
          exact notAgain (List.mem_map.mpr ⟨_, member, rfl⟩)
        rw [if_neg different]
        exact ih distinct member

/-- Setting a member adds no name but its own. -/
theorem names_set_subset (name : Text) (value : Value) (members : Members)
    : (set name value members).map Prod.fst ⊆ name :: members.map Prod.fst := by
  induction members with
  | nil => simp [set]
  | cons first others ih =>
      obtain ⟨name', value'⟩ := first
      rw [set]
      split
      next same => simp
      next =>
        intro other member
        rcases List.mem_cons.mp member with rfl | member
        · simp
        · have inside := ih member
          simp only [List.map_cons, List.mem_cons] at inside ⊢
          exact inside.imp_right .inr

/-- Setting a member keeps the names distinct. -/
theorem nodup_set (name : Text) (value : Value) {members : Members}
    (distinct : (members.map Prod.fst).Nodup)
    : ((set name value members).map Prod.fst).Nodup := by
  induction members with
  | nil => simp [set]
  | cons first others ih =>
      obtain ⟨name', value'⟩ := first
      rw [set]
      split
      next same =>
        subst same
        exact distinct
      next different =>
        obtain ⟨notAgain, distinct⟩ := List.nodup_cons.mp distinct
        refine List.nodup_cons.mpr ⟨fun member => ?_, ih distinct⟩
        rcases List.mem_cons.mp (names_set_subset name value others member) with same | member
        · exact different same
        · exact notAgain member

/-- Setting a member adds no other one. -/
theorem mem_set {name : Text} {value : Value} {members : Members} {member : Text × Value}
    (h : member ∈ set name value members)
    : member = (name, value) ∨ member ∈ members := by
  induction members with
  | nil => exact .inl (List.mem_singleton.mp h)
  | cons first others ih =>
      obtain ⟨name', value'⟩ := first
      rw [set] at h
      split at h
      next =>
        rcases List.mem_cons.mp h with rfl | h
        · exact .inl rfl
        · exact .inr (List.mem_cons_of_mem _ h)
      next =>
        rcases List.mem_cons.mp h with rfl | h
        · exact .inr (by simp)
        · exact (ih h).imp_right (List.mem_cons_of_mem _)

/-- What is set one after another keeps names distinct and takes all members from the list,
by induction on it.
-/
theorem foldl_set {P : Text × Value → Prop} {list : List (Text × Value)} {found : Members}
    (distinct : (found.map Prod.fst).Nodup) (holds : ∀ member ∈ found, P member)
    (all : ∀ member ∈ list, P member)
    : ((list.foldl (fun found (name, value) => set name value found) found).map Prod.fst).Nodup
      ∧ ∀ member ∈ list.foldl (fun found (name, value) => set name value found) found,
          P member := by
  induction list generalizing found with
  | nil => exact ⟨distinct, holds⟩
  | cons first others ih =>
      refine ih (nodup_set _ _ distinct) ?_ fun member inside => all member (by simp [inside])
      intro member inside
      rcases mem_set inside with rfl | inside
      · exact all _ (by simp)
      · exact holds member inside

/-- Members that are set one after the other have distinct names, and all come from the list.
-/
theorem of_ofList {P : Text × Value → Prop} {list : List (Text × Value)}
    (all : ∀ member ∈ list, P member)
    : ((ofList list).map Prod.fst).Nodup ∧ ∀ member ∈ ofList list, P member :=
  foldl_set List.nodup_nil (fun _ member => nomatch member) all

end Members

/-- Names are distinct in every object. -/
inductive Value.IsKeyed : Value → Prop
  | null : IsKeyed .null
  | bool {b} : IsKeyed (.bool b)
  | number {n} : IsKeyed (.number n)
  | string {content} : IsKeyed (.string content)
  | array {elements} (parts : ∀ element ∈ elements, IsKeyed element) : IsKeyed (.array elements)
  | object {members} (distinct : (members.map Prod.fst).Nodup)
    (parts : ∀ member ∈ members, IsKeyed (Prod.snd member))
    : IsKeyed (.object members)

/-- Names are distinct in every object, and every array has at most 2 ^ 53 elements. -/
inductive Value.IsDocument : Value → Prop
  | null : IsDocument .null
  | bool {b} : IsDocument (.bool b)
  | number {n} : IsDocument (.number n)
  | string {content} : IsDocument (.string content)
  | array {elements} (short : elements.length ≤ Nat.pow 2 53)
    (parts : ∀ element ∈ elements, IsDocument element)
    : IsDocument (.array elements)
  | object {members} (distinct : (members.map Prod.fst).Nodup)
    (parts : ∀ member ∈ members, IsDocument (Prod.snd member))
    : IsDocument (.object members)

/-- What can be decoded has no repeated member name. -/
theorem Value.IsDocument.isKeyed {value : Value} (h : value.IsDocument) : value.IsKeyed := by
  induction h with
  | null => exact .null
  | bool => exact .bool
  | number => exact .number
  | string => exact .string
  | array _ _ ih => exact .array ih
  | object distinct _ ih => exact .object distinct ih

/-- A literal can be decoded. -/
theorem Value.isDocument_of_isLiteral {value : Value} (h : value.IsLiteral)
    : value.IsDocument := by
  cases value with
  | null => exact .null
  | bool _ => exact .bool
  | number _ => exact .number
  | string _ => exact .string
  | array _ => cases h
  | object _ => cases h

namespace Document

open Outcome

section Parts

variable {nested : Text → Except Fault (Value × Text)} {P : Value → Prop}
  (holds : ∀ {t value rest}, nested t = .ok (value, rest) → P value)

include holds

/-- There are at most as many elements as the limit says, by induction on it. -/
theorem forall_of_elements {limit : Nat} {t rest : Text} {values : List Value}
    (h : elements nested limit t = .ok (values, rest))
    : values.length ≤ limit ∧ ∀ value ∈ values, P value := by
  induction limit generalizing t rest values with
  | zero => cases h
  | succ limit ih =>
      simp only [elements, bind_eq_ok] at h
      obtain ⟨⟨value, after⟩, first, h⟩ := h
      split at h
      next =>
        obtain ⟨rfl, -⟩ := Prod.mk.inj (pure_eq_ok.mp h)
        exact ⟨by simp, by simpa using holds first⟩
      next =>
        obtain ⟨⟨others, _⟩, read, h⟩ := bind_eq_ok.mp h
        obtain ⟨rfl, -⟩ := Prod.mk.inj (pure_eq_ok.mp h)
        obtain ⟨short, all⟩ := ih read
        refine ⟨Nat.succ_le_succ short, fun other member => ?_⟩
        rcases List.mem_cons.mp member with rfl | member
        · exact holds first
        · exact all other member
      next => cases h

/-- What is read as members has what holds of nested values, by recursion on the limit. -/
theorem forall_of_members {limit : Nat} {t rest : Text} {found : List (Text × Value)}
    (h : members nested limit t = .ok (found, rest))
    : ∀ member ∈ found, P member.2 := by
  induction limit generalizing t rest found with
  | zero => cases h
  | succ limit ih =>
      unfold members at h
      split at h
      next =>
        simp only [bind_eq_ok] at h
        obtain ⟨⟨name, afterName⟩, _, h⟩ := h
        split at h
        next =>
          simp only [bind_eq_ok] at h
          obtain ⟨⟨value, afterValue⟩, first, h⟩ := h
          split at h
          next =>
            obtain ⟨rfl, -⟩ := Prod.mk.inj (pure_eq_ok.mp h)
            simpa using holds first
          next =>
            obtain ⟨⟨others, _⟩, read, h⟩ := bind_eq_ok.mp h
            obtain ⟨rfl, -⟩ := Prod.mk.inj (pure_eq_ok.mp h)
            intro other member
            rcases List.mem_cons.mp member with rfl | member
            · exact holds first
            · exact ih read other member
          next => cases h
        next => cases h
      next => cases h

end Parts

/-- What holds of literals, of arrays within the limit and of objects with distinct names as
soon as it holds of their parts one level deeper, holds of all values that are read, by
induction on the levels of nesting.
-/
theorem forall_of_value {P : Nat → Value → Prop} {limit depth : Nat}
    (literal : ∀ depth value, value.IsLiteral → P (depth + 1) value)
    (array
      : ∀ depth (elements : List Value),
          elements.length ≤ limit
          → (∀ element ∈ elements, P depth element)
          → P (depth + 1) (.array elements))
    (object
      : ∀ depth (members : Members),
          (members.map Prod.fst).Nodup
          → (∀ member ∈ members, P depth member.2)
          → P (depth + 1) (.object members))
    {t rest : Text} {found : Value} (h : value limit depth t = .ok (found, rest))
    : P depth found := by
  induction depth generalizing t rest found with
  | zero => cases h
  | succ depth ih =>
      unfold value valueWith at h
      split at h
      next =>
        obtain ⟨⟨content, after⟩, _, h⟩ := bind_eq_ok.mp h
        obtain ⟨rfl, -⟩ := Prod.mk.inj (pure_eq_ok.mp h)
        exact literal depth (.string content) trivial
      next =>
        split at h
        next =>
          obtain ⟨rfl, -⟩ := Prod.mk.inj (Except.ok.inj h)
          exact array depth [] (Nat.zero_le _) (List.forall_mem_nil _)
        next =>
          obtain ⟨⟨values, after⟩, read, h⟩ := bind_eq_ok.mp h
          obtain ⟨rfl, -⟩ := Prod.mk.inj (pure_eq_ok.mp h)
          obtain ⟨short, parts⟩ := forall_of_elements ih read
          exact array depth values short parts
      next =>
        split at h
        next =>
          obtain ⟨rfl, -⟩ := Prod.mk.inj (Except.ok.inj h)
          exact object depth [] List.nodup_nil (List.forall_mem_nil _)
        next =>
          obtain ⟨⟨members, after⟩, read, h⟩ := bind_eq_ok.mp h
          obtain ⟨rfl, -⟩ := Prod.mk.inj (pure_eq_ok.mp h)
          obtain ⟨distinct, parts⟩ := Members.of_ofList (forall_of_members ih read)
          exact object depth _ distinct parts
      next =>
        have spelling := shortLiteral_of_scalar h
        exact literal depth found (Syntax.isLiteral_of_shortLiteral spelling)

/-- What is decoded is read as a value at some start. -/
theorem value_of_decode {depth : Nat} {t : Text} {found : Value}
    (h : decodeWithin depth t = .ok found)
    : ∃ start rest, value (t.length + 1) depth start = .ok (found, rest) := by
  rw [decodeWithin, mapError_eq_ok] at h
  unfold read at h
  split at h
  next => cases h
  next =>
    obtain ⟨⟨value, rest⟩, read, h⟩ := bind_eq_ok.mp h
    dsimp only at h
    split at h
    next =>
      obtain rfl := pure_eq_ok.mp h
      exact ⟨_, rest, read⟩
    next => cases h

/-- The names in every object of a value that a text spells are distinct. -/
theorem isKeyed_of_decode {depth : Nat} {t : Text} {found : Value}
    (h : decodeWithin depth t = .ok found)
    : found.IsKeyed := by
  obtain ⟨start, rest, read⟩ := value_of_decode h
  refine forall_of_value (P := fun _ => Value.IsKeyed) ?_ (fun _ _ _ => .array)
    (fun _ _ => .object) read
  intro _ value isLiteral
  exact (Value.isDocument_of_isLiteral isLiteral).isKeyed

theorem isKeyed_of_decodeBytes {depth : Nat} {bytes : List UInt8} {found : Value}
    (h : decodeBytesWithin depth bytes = .ok found)
    : found.IsKeyed := by
  unfold decodeBytesWithin at h
  split at h
  next => exact isKeyed_of_decode h
  next => cases h

/-- The value of a text is a document unless the text is too long. -/
theorem isDocument_of_decode {depth : Nat} {t : Text} {found : Value}
    (short : t.length < Nat.pow 2 53) (h : decodeWithin depth t = .ok found)
    : found.IsDocument := by
  obtain ⟨start, rest, read⟩ := value_of_decode h
  refine forall_of_value (P := fun _ => Value.IsDocument) ?_ ?_ (fun _ _ => .object) read
  · intro _ value isLiteral
    exact Value.isDocument_of_isLiteral isLiteral
  · intro _ elements within parts
    exact .array (Nat.le_trans within short) parts

end Document

end JsonPath
