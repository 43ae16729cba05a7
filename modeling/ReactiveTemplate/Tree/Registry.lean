import ReactiveTemplate.Source.Location
import ReactiveTemplate.Tree.Scope

/-!
# Expressions and their registry

The registry lists the expressions of one compilation in order of registration.  Each gets an id
made of the kind of its site and a number; the numbers are never used twice, whatever the kind and
whatever has been removed since.
-/

namespace ReactiveTemplate

/-- A piece of code with its id, its place in the source and its reactive scope. -/
structure Expression where
  /-- Name by which bindings refer to the expression. -/
  id : String
  /-- Code text. -/
  code : String
  /-- Where the code starts. -/
  location : Location
  /-- Variables of enclosing loops. -/
  scope : Option Scope
  deriving DecidableEq, Repr

/-- The expressions of one compilation. -/
structure Registry where
  /-- Registered expressions, in order of registration. -/
  expressions : List Expression := []
  /-- Number of the next id. -/
  next : Nat := 0
  deriving DecidableEq, Repr, Inhabited

namespace Registry

/-- The id with a given kind and number. -/
def idOf (kind : String) (number : Nat) : String := kind ++ "_" ++ toString number

/-- Register code under a fresh id. -/
def register (registry : Registry) (kind code : String) (location : Location)
    (scope : Option Scope) : String × Registry :=
  let id := idOf kind registry.next
  (id,
    { expressions := registry.expressions ++ [{ id, code, location, scope }]
      next := registry.next + 1 })

/-- The expression with the given id. -/
def get? (registry : Registry) (id : String) : Option Expression :=
  registry.expressions.find? (·.id == id)

/-- Some expression has the given id. -/
def contains (registry : Registry) (id : String) : Bool :=
  registry.expressions.any (·.id == id)

/-- Change the expression with the given id. -/
def modify (registry : Registry) (id : String) (change : Expression → Expression) : Registry :=
  { registry with
    expressions := registry.expressions.map fun e => if e.id == id then change e else e }

/-- Replace the code of an expression. -/
def setCode (registry : Registry) (id code : String) : Registry :=
  registry.modify id ({ · with code })

/-- Replace the location of an expression. -/
def setLocation (registry : Registry) (id : String) (location : Location) : Registry :=
  registry.modify id ({ · with location })

/-- Replace the scope of an expression. -/
def setScope (registry : Registry) (id : String) (scope : Option Scope) : Registry :=
  registry.modify id ({ · with scope })

/-- Forget the expression with the given id. -/
def remove (registry : Registry) (id : String) : Registry :=
  { registry with expressions := registry.expressions.filter (·.id != id) }

/-- Forget all expressions with the given ids. -/
def removeAll (registry : Registry) (ids : List String) : Registry :=
  ids.foldl remove registry

/-- The number of expressions. -/
def size (registry : Registry) : Nat := registry.expressions.length

/-- The ids in order of registration. -/
def ids (registry : Registry) : List String := registry.expressions.map (·.id)

end Registry
end ReactiveTemplate
