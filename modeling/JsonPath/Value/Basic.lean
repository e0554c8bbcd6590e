import JsonPath.Number.Basic

/-! JSON values. The members of an object keep their order, and their names are distinct in
every value that comes from a document. Comparing two values is total here: the stack of a
host, which ends the recursion on values that are nested some hundreds of levels deep, is left
aside, unlike the bounds of the readers.
-/

namespace JsonPath

inductive Value where
  | null
  | bool (b : Bool)
  | number (n : Number)
  | string (text : Text)
  | array (elements : List Value)
  | object (members : List (Text × Value))
  deriving Inhabited

/-- The members of an object, in order. -/
abbrev Members := List (Text × Value)

namespace Members

/-- The value of the member with this name. -/
def get? (name : Text) : Members → Option Value
  | [] => none
  | (name', value) :: rest => if name' = name then some value else get? name rest

/-- Gives the member a value: in its place when the name is there already, at the end
otherwise.
-/
def set (name : Text) (value : Value) : Members → Members
  | [] => [(name, value)]
  | (name', value') :: rest =>
    if name' = name then (name, value) :: rest else (name', value') :: set name value rest

/-- The members of a list in which the last of several values for one name counts, in the
place of the first.
-/
def ofList (members : List (Text × Value)) : Members :=
  members.foldl (fun found (name, value) => set name value found) []

end Members

namespace Value

mutual

/-- Equality of documents: numbers by value, arrays in order and objects in any order. -/
def isEqual : Value → Value → Bool
  | null, null => true
  | bool a, bool b => a = b
  | number a, number b => a.isEqual b
  | string a, string b => a = b
  | array a, array b => elementsEqual a b
  | object a, object b => a.length = b.length && membersEqual a b
  | _, _ => false

/-- Whether two lists of values are equal element by element. -/
def elementsEqual : List Value → List Value → Bool
  | [], [] => true
  | a :: as, b :: bs => isEqual a b && elementsEqual as bs
  | _, _ => false

/-- Whether each member has an equal one of the same name among the others. -/
def membersEqual : Members → Members → Bool
  | [], _ => true
  | (name, value) :: rest, others =>
    (match Members.get? name others with
      | some other => isEqual value other
      | none => false) && membersEqual rest others

end

end Value

end JsonPath
