import ReactiveTemplate.Proofs.Tree.Table

/-!
# Histories of a table

Whatever is done to a table, starting from an empty one, its positions are those of its expressions.
The ids that are given out have the numbers of the registrations, one after the other, so that none
is given out twice.  What is left in the table has kept its order among them.
-/

namespace ReactiveTemplate

/-- The first id has a smaller number than the second one. -/
def Registry.Precedes (id id' : String) : Prop :=
  ∃ kind number kind' number', id = idOf kind number ∧ id' = idOf kind' number' ∧ number < number'

theorem Registry.Precedes.ne {id id' : String} (precedes : Precedes id id') : id ≠ id' := by
  obtain ⟨kind, number, kind', number', rfl, rfl, less⟩ := precedes
  intro same
  exact Nat.ne_of_lt less (number_eq_of_idOf_eq same)

namespace Table

open Registry

/-- What can be done to a table. -/
inductive Operation where
  /-- Register code under a fresh id. -/
  | register (kind code : String) (location : Location) (scope : Option Scope)
  /-- Replace the code of an expression. -/
  | setCode (id code : String)
  /-- Replace the location of an expression. -/
  | setLocation (id : String) (location : Location)
  /-- Replace the scope of an expression. -/
  | setScope (id : String) (scope : Option Scope)
  /-- Forget the expression with the given id. -/
  | remove (id : String)

/-- The table after an operation. -/
def perform (table : Table) : Operation → Table
  | .register kind code location scope => (table.register kind code location scope).2
  | .setCode id code => table.setCode id code
  | .setLocation id location => table.setLocation id location
  | .setScope id scope => table.setScope id scope
  | .remove id => table.remove id

/-- What the operation of that name does to a registry. -/
def Operation.apply (registry : Registry) : Operation → Registry
  | .register kind code location scope => (registry.register kind code location scope).2
  | .setCode id code => registry.setCode id code
  | .setLocation id location => registry.setLocation id location
  | .setScope id scope => registry.setScope id scope
  | .remove id => registry.remove id

/-- The id that an operation gives out. -/
def given? (table : Table) : Operation → Option String
  | .register kind code location scope => some (table.register kind code location scope).1
  | .setCode .. | .setLocation .. | .setScope .. | .remove .. => none

/-- The table after a history. -/
def performAll (table : Table) (operations : List Operation) : Table :=
  operations.foldl perform table

/-- The ids that a history gives out, in order. -/
def given (table : Table) : List Operation → List String
  | [] => []
  | operation :: rest => (table.given? operation).toList ++ (table.perform operation).given rest

variable {table : Table} {id : String} {operations : List Operation}

/-! ## Steps -/

theorem Reachable.perform (reachable : table.Reachable) (operation : Operation) :
    (table.perform operation).Reachable := by
  cases operation with
  | register kind code location scope => exact reachable.register kind code location scope
  | setCode id code => exact reachable.setCode id code
  | setLocation id location => exact reachable.setLocation id location
  | setScope id scope => exact reachable.setScope id scope
  | remove id => exact reachable.remove id

theorem registry_perform (indexed : table.Indexed) (operation : Operation) :
    (table.perform operation).registry = operation.apply table.registry := by
  cases operation with
  | register kind code location scope => exact registry_register table ..
  | setCode id code => exact indexed.registry_modify id
  | setLocation id location => exact indexed.registry_modify id
  | setScope id scope => exact indexed.registry_modify id
  | remove id => exact indexed.registry_remove id

/-- A change goes to the expression with the id, and to nothing else. -/
theorem Indexed.modify_eq (indexed : table.Indexed) (id : String)
    (change : Expression → Expression) :
    table.modify id change =
      { table with
        expressions := table.expressions.map fun e => if e.id == id then change e else e } := by
  have changed : (table.modify id change).expressions = table.expressions.map _ :=
    congrArg Registry.expressions (indexed.registry_modify id)
  have rest : table.modify id change =
      { table with expressions := (table.modify id change).expressions } := by
    rw [Table.modify]
    split <;> rfl
  rw [changed] at rest
  exact rest

theorem Indexed.ids_modify (indexed : table.Indexed) {change : Expression → Expression}
    (keeps : ∀ e, (change e).id = e.id) :
    (table.modify id change).registry.ids = table.registry.ids := by
  rw [indexed.registry_modify, Registry.ids_modify _ _ keeps]

theorem next_modify (table : Table) (id : String) (change : Expression → Expression) :
    (table.modify id change).next = table.next := by
  rw [modify]
  split <;> rfl

theorem next_remove (table : Table) (id : String) : (table.remove id).next = table.next := by
  rw [remove]
  split <;> rfl

/-- The next number grows with each id that is given out. -/
theorem next_perform (table : Table) (operation : Operation) :
    (table.perform operation).next = table.next + (table.given? operation).toList.length := by
  cases operation with
  | register kind code location scope => rfl
  | setCode id code => exact next_modify table id _
  | setLocation id location => exact next_modify table id _
  | setScope id scope => exact next_modify table id _
  | remove id => exact next_remove table id

theorem ids_perform (indexed : table.Indexed) (operation : Operation) :
    (table.perform operation).registry.ids.Sublist
      (table.registry.ids ++ (table.given? operation).toList) := by
  cases operation with
  | register kind code location scope =>
      rw [perform, registry_register, Registry.ids_register]
      exact List.Sublist.refl _
  | setCode id code | setLocation id location | setScope id scope =>
      rw [given?, Option.toList_none, List.append_nil]
      refine (congrArg (List.Sublist · _) (indexed.ids_modify fun _ => ?_)).mpr (.refl _)
      rfl
  | remove id =>
      rw [perform, indexed.registry_remove, ids_remove, given?, Option.toList_none, List.append_nil]
      exact List.filter_sublist

/-! ## Histories -/

theorem Reachable.performAll (reachable : table.Reachable) (operations : List Operation) :
    (table.performAll operations).Reachable := by
  induction operations generalizing table with
  | nil => exact reachable
  | cons operation rest induction => exact induction (reachable.perform operation)

/-- A table and its registry have the same history. -/
theorem registry_performAll (reachable : table.Reachable) (operations : List Operation) :
    (table.performAll operations).registry = operations.foldl Operation.apply table.registry := by
  induction operations generalizing table with
  | nil => rfl
  | cons operation rest induction =>
      rw [List.foldl_cons, ← registry_perform reachable.indexed.1]
      exact induction (reachable.perform operation)

theorem next_performAll (table : Table) (operations : List Operation) :
    (table.performAll operations).next = table.next + (table.given operations).length := by
  induction operations generalizing table with
  | nil => rfl
  | cons operation rest induction =>
      rw [Table.performAll, List.foldl_cons]
      refine (induction _).trans ?_
      rw [next_perform, given, List.length_append, Nat.add_assoc]

/-- What is left was there before or has been given out, in this order. -/
theorem ids_performAll (reachable : table.Reachable) (operations : List Operation) :
    (table.performAll operations).registry.ids.Sublist
      (table.registry.ids ++ table.given operations) := by
  induction operations generalizing table with
  | nil => exact List.sublist_append_left _ _
  | cons operation rest induction =>
      have first := ids_perform reachable.indexed.1 operation
      refine (induction (reachable.perform operation)).trans ?_
      rw [given, ← List.append_assoc]
      exact first.append_right _

/-- An id that is given out has a number that had not been reached yet. -/
theorem mem_given (member : id ∈ table.given operations) :
    ∃ kind ahead, id = idOf kind (table.next + ahead) := by
  induction operations generalizing table with
  | nil => cases member
  | cons operation rest induction =>
      rw [given, List.mem_append, Option.mem_toList] at member
      rcases member with now | later
      · cases operation with
        | register kind code location scope => exact ⟨kind, 0, (Option.some_inj.mp now).symm⟩
        | setCode | setLocation | setScope | remove => cases now
      · obtain ⟨kind, ahead, rfl⟩ := induction later
        rw [next_perform, Nat.add_assoc]
        exact ⟨kind, _, rfl⟩

theorem given_ordered (table : Table) (operations : List Operation) :
    (table.given operations).Pairwise Precedes := by
  induction operations generalizing table with
  | nil => exact .nil
  | cons operation rest induction =>
      rw [given]
      cases operation with
      | register kind code location scope =>
          refine List.pairwise_cons.mpr ⟨fun id member => ?_, induction _⟩
          obtain ⟨kind', ahead, rfl⟩ := mem_given member
          refine ⟨kind, table.next, kind', _, rfl, rfl, ?_⟩
          rw [next_perform]
          exact Nat.lt_add_right ahead (Nat.lt_succ_self table.next)
      | setCode | setLocation | setScope | remove => exact induction _

/-- After any history, a table is the registry with the same history, and its positions are exactly
those of the expressions.  No id is given out twice, and the expressions that are left stand in the
order of their numbers, which is that of their registration; there are as many numbers as
registrations.  Expressions are found by their ids, and a
replacement changes one part of the expression with the id, and nothing else. -/
theorem performAll_represents (operations : List Operation) :
    let table := performAll {} operations
    let ids := table.expressions.map Expression.id
    table.registry = operations.foldl Operation.apply {} ∧
    table.Indexed ∧ ids.Nodup ∧ ids.Pairwise Precedes ∧
    ids.Sublist (given {} operations) ∧ (given {} operations).Nodup ∧
    table.next = (given {} operations).length ∧
    (∀ id, table.get? id = table.expressions.find? (·.id == id)) ∧
    (∀ id, table.contains id = true ↔ id ∈ ids) ∧
    (∀ id code, table.setCode id code =
      { table with
        expressions := table.expressions.map fun e => if e.id == id then { e with code } else e }) ∧
    (∀ id location, table.setLocation id location =
      { table with
        expressions :=
          table.expressions.map fun e => if e.id == id then { e with location } else e }) ∧
    ∀ id scope, table.setScope id scope =
      { table with
        expressions :=
          table.expressions.map fun e => if e.id == id then { e with scope } else e } := by
  intro table ids
  have reachable : table.Reachable := Reachable.empty.performAll operations
  have indexed := reachable.indexed.1
  have left : ids.Sublist (given {} operations) := ids_performAll .empty operations
  have ordered := given_ordered {} operations
  have next := next_performAll {} operations
  rw [Nat.zero_add] at next
  refine ⟨registry_performAll .empty operations, indexed, indexed.distinct,
    ordered.sublist left, left, ordered.imp Precedes.ne, next, indexed.get?, fun id => ?_,
    fun id code => indexed.modify_eq id _, fun id location => indexed.modify_eq id _,
    fun id scope => indexed.modify_eq id _⟩
  rw [contains, Option.isSome_iff_exists]
  exact indexed.mem_ids.symm

end Table
end ReactiveTemplate
