import JsonPath.Proofs.Location.Placement
import JsonPath.Value.Printer

/-! Values that can be written. Only an integer of too many digits cannot be, and none of these
is in a value that has been read. A part of a value that can be written can be written.
-/

namespace JsonPath

namespace Value

/-- Elements can be written when each one can, by induction on these. -/
theorem areWritable_iff {values : List Value}
    : areWritable values ↔ ∀ value ∈ values, value.isWritable := by
  induction values with
  | nil => simp [areWritable]
  | cons value values ih => simp [areWritable, ih]

theorem membersWritable_iff {members : Members}
    : membersWritable members ↔ ∀ member ∈ members, Value.isWritable member.2 := by
  induction members with
  | nil => simp [membersWritable]
  | cons member members ih =>
      obtain ⟨name, value⟩ := member
      simp [membersWritable, ih]

/-- An array can be written when all of its elements can. -/
theorem isWritable_array {elements : List Value}
    : (array elements).isWritable ↔ ∀ element ∈ elements, element.isWritable := by
  rw [isWritable, areWritable_iff]

theorem isWritable_object {members : Members}
    : (object members).isWritable ↔ ∀ member ∈ members, Value.isWritable member.2 := by
  rw [isWritable, membersWritable_iff]

/-- Literals have no integers that are too long. -/
theorem isWritable_of_isLiteral {value : Value} (h : value.IsLiteral) : value.isWritable := by
  cases value with
  | number n =>
      cases n with
      | int n => exact (Numeral.isWritable_iff n).mpr h
      | float _ => rfl
  | array _ => cases h
  | object _ => cases h
  | null | bool _ | string _ => rfl

/-- What can be written has children that can. -/
theorem isWritable_child {value child : Value} {step : Step} (h : value.isWritable)
    (leads : value.child? step = some child)
    : child.isWritable := by
  rcases part_of_child? leads with ⟨members, name, rfl, member⟩ | ⟨elements, rfl, member⟩
  · exact isWritable_object.mp h _ member
  · exact isWritable_array.mp h _ member

/-- What stands at a location of a value can be written when the value can be, by induction on
the location.
-/
theorem isWritable_follow {location : Location} {value target : Value} (h : value.isWritable)
    (leads : follow? location value = some target)
    : target.isWritable := by
  induction location generalizing value with
  | nil =>
      obtain rfl := Option.some.inj leads
      exact h
  | cons step location ih =>
      rw [follow?] at leads
      obtain ⟨child, stepLeads, leads⟩ := Option.bind_eq_some_iff.mp leads
      exact ih (isWritable_child h stepLeads) leads

end Value

namespace Document

/-- The value of a text has been read digit by digit, within the same limit. -/
theorem isWritable_of_decode {depth : Nat} {t : Text} {found : Value}
    (h : decodeWithin depth t = .ok found)
    : found.isWritable := by
  obtain ⟨start, rest, read⟩ := value_of_decode h
  refine forall_of_value (P := fun _ value => value.isWritable) ?_ ?_ ?_ read
  · exact fun _ _ => Value.isWritable_of_isLiteral
  · exact fun _ _ _ parts => Value.isWritable_array.mpr parts
  · exact fun _ _ _ parts => Value.isWritable_object.mpr parts

theorem isWritable_of_decodeBytes {depth : Nat} {bytes : List UInt8} {found : Value}
    (h : decodeBytesWithin depth bytes = .ok found)
    : found.isWritable := by
  unfold decodeBytesWithin at h
  split at h
  next => exact isWritable_of_decode h
  next => cases h

end Document

end JsonPath
