import Mathlib.Logic.Function.Basic
import ReactiveTemplate.Tree.Registry

/-!
# Registries with positions

A table is a registry that also knows where each expression stands, so that expressions are found
without going through the list.  Expressions behind one that is removed move up by one place and are
entered anew.
-/

namespace ReactiveTemplate

/-- The expressions of one compilation, with their positions. -/
structure Table where
  /-- Registered expressions, in order of registration. -/
  expressions : List Expression := []
  /-- Number of the next id. -/
  next : Nat := 0
  /-- Where the expression with a given id stands. -/
  position : String → Option Nat := fun _ => none

namespace Table

/-- The table without positions. -/
def registry (table : Table) : Registry where
  expressions := table.expressions
  next := table.next

/-- Register code under a fresh id. -/
def register (table : Table) (kind code : String) (location : Location) (scope : Option Scope) :
    String × Table :=
  let id := Registry.idOf kind table.next
  (id,
    { expressions := table.expressions ++ [{ id, code, location, scope }]
      next := table.next + 1
      position := Function.update table.position id (some table.expressions.length) })

/-- The expression with the given id. -/
def get? (table : Table) (id : String) : Option Expression :=
  (table.position id).bind fun i => table.expressions[i]?

/-- Some expression has the given id. -/
def contains (table : Table) (id : String) : Bool := (table.position id).isSome

/-- Change the expression with the given id. -/
def modify (table : Table) (id : String) (change : Expression → Expression) : Table :=
  match table.position id with
  | none => table
  | some i => { table with expressions := table.expressions.modify i change }

/-- Replace the code of an expression. -/
def setCode (table : Table) (id code : String) : Table := table.modify id ({ · with code })

/-- Replace the location of an expression. -/
def setLocation (table : Table) (id : String) (location : Location) : Table :=
  table.modify id ({ · with location })

/-- Replace the scope of an expression. -/
def setScope (table : Table) (id : String) (scope : Option Scope) : Table :=
  table.modify id ({ · with scope })

/-- Enter the positions of expressions that stand one behind the other, the first of them at `i`. -/
def enter (position : String → Option Nat) : Nat → List Expression → String → Option Nat
  | _, [] => position
  | i, e :: rest => enter (Function.update position e.id (some i)) (i + 1) rest

/-- Forget the expression with the given id. -/
def remove (table : Table) (id : String) : Table :=
  match table.position id with
  | none => table
  | some i =>
    let expressions := table.expressions.eraseIdx i
    { table with
      expressions
      position := enter (Function.update table.position id none) i (expressions.drop i) }

/-- Forget all expressions with the given ids, one after the other. -/
def removeAll (table : Table) (ids : List String) : Table := ids.foldl remove table

end Table
end ReactiveTemplate
