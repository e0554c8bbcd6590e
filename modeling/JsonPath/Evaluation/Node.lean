import JsonPath.Query.Printer

/-! The nodes of a document: values together with the steps that lead to them from the root.
-/

namespace JsonPath

/-- A step from a value to one of its children. -/
inductive Step where
  | name (name : Text)
  | position (position : Int)
  deriving DecidableEq

/-- The way from the root of a document to a value. -/
abbrev Location := List Step

/-- The step in brackets, with a name in quotes. -/
def Step.text : Step → Text
  | .name t => .char '[' :: quoteName t ++ [.char ']']
  | .position n => .char '[' :: Numeral.ofInt n ++ [.char ']']

/-- The query that finds only the value at a location. -/
def Location.path (location : Location) : Text :=
  .char '$' :: location.flatMap Step.text

/-- A value of a document and its location. -/
structure Node where
  value : Value
  location : Location

namespace Node

/-- The elements from a position on, as nodes below a location. -/
def ofElements (location : Location) (position : Nat) : List Value → List Node
  | [] => []
  | value :: values =>
    ⟨value, location ++ [.position position]⟩ :: ofElements location (position + 1) values

/-- Members as nodes below a location. -/
def ofMembers (location : Location) (members : Members) : List Node :=
  members.map fun (name, value) => ⟨value, location ++ [.name name]⟩

/-- The elements or the values of the members of a node, in order. -/
def children (node : Node) : List Node :=
  match node.value with
  | .array elements => ofElements node.location 0 elements
  | .object members => ofMembers node.location members
  | _ => []

/-- The size of the values of some nodes together. -/
noncomputable def totalSize : List Node → Nat
  | [] => 0
  | node :: nodes => sizeOf node.value + totalSize nodes

theorem totalSize_append (nodes others : List Node)
    : totalSize (nodes ++ others) = totalSize nodes + totalSize others := by
  induction nodes with
  | nil => simp [totalSize]
  | cons node nodes ih =>
      simp only [List.cons_append, totalSize, ih]
      omega

theorem totalSize_ofElements (location : Location) (position : Nat) (elements : List Value)
    : totalSize (ofElements location position elements) < sizeOf elements := by
  induction elements generalizing position with
  | nil => simp [ofElements, totalSize]
  | cons element elements ih =>
      have others := ih (position + 1)
      simp only [ofElements, totalSize, List.cons.sizeOf_spec]
      omega

theorem totalSize_ofMembers (location : Location) (members : Members)
    : totalSize (ofMembers location members) < sizeOf members := by
  induction members with
  | nil => simp [ofMembers, totalSize]
  | cons member members ih =>
      obtain ⟨name, value⟩ := member
      simp only [ofMembers, List.map_cons, totalSize, List.cons.sizeOf_spec,
        Prod.mk.sizeOf_spec] at ih ⊢
      omega

/-- All children of a node together are smaller than the node. -/
theorem totalSize_children (node : Node) : totalSize node.children < sizeOf node.value := by
  obtain ⟨value, location⟩ := node
  cases value with
  | array elements =>
      have parts := totalSize_ofElements location 0 elements
      simp only [children, Value.array.sizeOf_spec]
      omega
  | object members =>
      have parts := totalSize_ofMembers location members
      simp only [children, Value.object.sizeOf_spec]
      omega
  | null | bool _ | number _ | string _ =>
      simp only [children, totalSize, Value.null.sizeOf_spec, Value.bool.sizeOf_spec,
        Value.number.sizeOf_spec, Value.string.sizeOf_spec]
      omega

/-- The nodes on a stack and all nodes below them. The node on top is taken, and its
children are put in its place, the first one on top.
-/
@[semireducible]
def walk : List Node → List Node
  | [] => []
  | node :: stack => node :: walk (node.children ++ stack)
termination_by stack => totalSize stack
decreasing_by
  have smaller := totalSize_children node
  simp only [totalSize_append, totalSize]
  omega

/-- A node and its descendants, each in front of its children. -/
def descendants (node : Node) : List Node :=
  walk [node]

end Node

end JsonPath
