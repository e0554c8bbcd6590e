import JsonPath.Function.Registry

/-! Catalogues: functions, or what is offered as functions, by name. Offers are checked and
entered one after another when a document gets its functions, on top of those that every
query can call.
-/

namespace JsonPath

/-- Items by name, each name once. -/
abbrev Catalogue (α : Type) := List (Text × α)

namespace Catalogue

/-- Enters an item under a name: in the place of the one that is there already, at the end
otherwise.
-/
def enter {α : Type} (name : Text) (item : α) : Catalogue α → Catalogue α
  | [] => [(name, item)]
  | (name', item') :: others =>
    if name' = name then (name, item) :: others else (name', item') :: enter name item others

/-- The functions that every query can call. -/
def builtins : Catalogue Function :=
  Builtin.all.map fun builtin => (builtin.name, builtin.function)

/-- Enters the functions that are offered, up to the first offer that cannot be registered.
-/
def load (functions : Catalogue Function)
    : Catalogue Candidate → Except RegistrationError (Catalogue Function)
  | [] => .ok functions
  | (name, candidate) :: offers => do
    let function ← candidate.validate name
    load (enter name function functions) offers

end Catalogue

namespace Context

/-- The context of a document with functions besides those that every query can call. -/
def load (root : Value) (offers : Catalogue Candidate) : Except RegistrationError Context := do
  let functions ← Catalogue.load .builtins offers
  return { root, function? := fun name => functions.lookup name }

/-- The nodes that a query finds in the document. -/
def find (context : Context) (query : Query) : Except EvaluationError (List Node) :=
  apply context query [⟨context.root, []⟩]

end Context

end JsonPath
