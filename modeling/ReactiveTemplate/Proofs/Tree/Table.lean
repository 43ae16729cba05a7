import ReactiveTemplate.Proofs.Tree.Balance
import ReactiveTemplate.Tree.Table

/-!
# Tables are registries

A table is indexed when the positions are exactly those of its expressions.  Each operation keeps
this and does to the registry of the table what the operation of that name does there, so that an
indexed table is determined by its registry.  Ids can therefore be removed in any order, although
each removal moves other expressions.
-/

namespace ReactiveTemplate
namespace Table

/-- The positions are those of the expressions. -/
def Indexed (table : Table) : Prop :=
  ∀ id i, table.position id = some i ↔ ∃ e, table.expressions[i]? = some e ∧ e.id = id

variable {table table' : Table} {id : String}

/-! ## What an indexed table is -/

/-- The positions follow from the expressions. -/
theorem Indexed.eq (indexed : table.Indexed) (indexed' : table'.Indexed)
    (same : table.registry = table'.registry) : table = table' := by
  obtain ⟨expressions, next, position⟩ := table
  obtain ⟨expressions', next', position'⟩ := table'
  cases same
  have positions : position = position' := by
    funext id
    refine Option.ext fun i => ?_
    exact (indexed id i).trans (indexed' id i).symm
  rw [positions]

/-- No two expressions share an id. -/
theorem Indexed.injective (indexed : table.Indexed) {i j : Nat} {e e' : Expression}
    (here : table.expressions[i]? = some e) (there : table.expressions[j]? = some e')
    (same : e.id = e'.id) : i = j := by
  have left := (indexed e.id i).mpr ⟨e, here, rfl⟩
  have right := (indexed e.id j).mpr ⟨e', there, same.symm⟩
  exact Option.some_inj.mp (left.symm.trans right)

theorem Indexed.distinct (indexed : table.Indexed) :
    (table.expressions.map Expression.id).Nodup := by
  rw [List.nodup_iff_getElem?_ne_getElem?]
  intro i j before below same
  rw [List.length_map] at below
  have here := List.getElem?_eq_getElem (Nat.lt_trans before below)
  have there := List.getElem?_eq_getElem below
  rw [List.getElem?_map, List.getElem?_map, here, there, Option.map_some, Option.map_some,
    Option.some_inj] at same
  exact Nat.ne_of_lt before (indexed.injective here there same)

theorem Indexed.mem_ids (indexed : table.Indexed) :
    id ∈ table.registry.ids ↔ ∃ i, table.position id = some i := by
  rw [Registry.ids, List.mem_map]
  constructor
  · rintro ⟨e, listed, rfl⟩
    obtain ⟨i, here⟩ := List.mem_iff_getElem?.mp listed
    exact ⟨i, (indexed e.id i).mpr ⟨e, here, rfl⟩⟩
  · rintro ⟨i, stands⟩
    obtain ⟨e, here, own⟩ := (indexed id i).mp stands
    exact ⟨e, List.mem_of_getElem? here, own⟩

theorem Indexed.position_eq_none (indexed : table.Indexed) :
    table.position id = none ↔ id ∉ table.registry.ids := by
  rw [indexed.mem_ids, ← Option.isSome_iff_exists, Bool.not_eq_true, Option.isSome_eq_false_iff,
    Option.isNone_iff_eq_none]

/-- What stands at the position of an id is the expression with that id. -/
theorem Indexed.get? (indexed : table.Indexed) (id : String) :
    table.get? id = table.registry.get? id := by
  rw [Table.get?, Registry.get?]
  cases stands : table.position id with
  | none =>
      refine (List.find?_eq_none.mpr fun e listed => ?_).symm
      have absent := indexed.position_eq_none.mp stands
      rw [beq_iff_eq]
      rintro rfl
      exact absent (List.mem_map_of_mem listed)
  | some i =>
      obtain ⟨e, here, own⟩ := (indexed id i).mp stands
      rw [Option.bind_some, here]
      symm
      rw [List.find?_eq_some_iff_getElem]
      obtain ⟨below, rfl⟩ := List.getElem?_eq_some_iff.mp here
      refine ⟨beq_iff_eq.mpr own, i, below, rfl, fun j before => ?_⟩
      rw [Bool.not_eq_true', beq_eq_false_iff_ne]
      intro same
      have there := List.getElem?_eq_getElem (Nat.lt_trans before below)
      exact Nat.ne_of_lt before (indexed.injective there here (same.trans own.symm))

theorem Indexed.contains (indexed : table.Indexed) (id : String) :
    table.contains id = table.registry.contains id := by
  rw [Bool.eq_iff_iff, Table.contains, Option.isSome_iff_exists, ← indexed.mem_ids,
    Registry.contains, List.any_eq_true, Registry.ids, List.mem_map]
  simp only [beq_iff_eq]

/-! ## Registering -/

theorem registry_register (table : Table) (kind code : String) (location : Location)
    (scope : Option Scope) :
    (table.register kind code location scope).2.registry =
      (table.registry.register kind code location scope).2 := rfl

theorem Indexed.register (indexed : table.Indexed) {kind code : String} {location : Location}
    {scope : Option Scope} (fresh : Registry.idOf kind table.next ∉ table.registry.ids) :
    (table.register kind code location scope).2.Indexed := by
  intro id i
  rw [Table.register]
  dsimp only
  rw [Function.update_apply]
  split
  · rename_i new
    subst new
    constructor
    · intro last
      cases last
      exact ⟨_, List.getElem?_concat_length, rfl⟩
    · rintro ⟨e, here, own⟩
      rw [List.getElem?_append] at here
      split at here
      · exact absurd (own ▸ List.mem_map_of_mem (List.mem_of_getElem? here)) fresh
      · rename_i beyond
        rw [List.getElem?_singleton] at here
        split at here
        · exact congrArg some (by omega)
        · cases here
  · rename_i other
    rw [indexed id i]
    constructor
    · rintro ⟨e, here, own⟩
      have below := (List.getElem?_eq_some_iff.mp here).1
      exact ⟨e, (List.getElem?_append_left below).trans here, own⟩
    · rintro ⟨e, here, own⟩
      rw [List.getElem?_append] at here
      split at here
      · exact ⟨e, here, own⟩
      · rw [List.getElem?_singleton] at here
        split at here
        · cases here
          exact absurd own.symm other
        · cases here

/-! ## Changing -/

section

variable {change : Expression → Expression}

theorem map_of_absent {entries : List Expression} (absent : id ∉ entries.map Expression.id) :
    (entries.map fun e => if e.id == id then change e else e) = entries := by
  refine (List.map_congr_left fun e listed => if_neg ?_).trans (List.map_id entries)
  rw [beq_iff_eq]
  rintro rfl
  exact absent (List.mem_map_of_mem listed)

/-- Where ids are distinct, the expression at a position is the one with its id. -/
theorem modify_eq_map {entries : List Expression} (distinct : (entries.map Expression.id).Nodup)
    {i : Nat} {e : Expression} (here : entries[i]? = some e) :
    entries.modify i change =
      entries.map fun other => if other.id == e.id then change other else other := by
  induction entries generalizing i with
  | nil => cases here
  | cons first rest induction =>
      rw [List.map_cons, List.nodup_cons] at distinct
      cases i with
      | zero =>
          cases here
          rw [List.modify_zero_cons, List.map_cons, map_of_absent distinct.1, beq_self_eq_true,
            if_pos rfl]
      | succ i =>
          rw [List.getElem?_cons_succ] at here
          have other : first.id ≠ e.id := fun same =>
            distinct.1 (same ▸ List.mem_map_of_mem (List.mem_of_getElem? here))
          rw [List.modify_succ_cons, induction distinct.2 here, List.map_cons,
            beq_false_of_ne other]
          rfl

theorem Indexed.registry_modify (indexed : table.Indexed) (id : String) :
    (table.modify id change).registry = table.registry.modify id change := by
  rw [Table.modify]
  cases stands : table.position id with
  | none =>
      rw [indexed.position_eq_none] at stands
      exact congrArg (Registry.mk · table.next) (map_of_absent stands).symm
  | some i =>
      obtain ⟨e, here, rfl⟩ := (indexed id i).mp stands
      exact congrArg (Registry.mk · table.next) (modify_eq_map indexed.distinct here)

theorem Indexed.modify (indexed : table.Indexed) (keeps : ∀ e, (change e).id = e.id) :
    (table.modify id change).Indexed := by
  intro key j
  rw [Table.modify]
  split
  · exact indexed key j
  · rw [indexed key j]
    dsimp only
    rw [List.getElem?_modify]
    cases table.expressions[j]? with
    | none => simp
    | some e => split <;> simp [keeps]

end

/-! ## Removing -/

/-- The expressions that are entered last are found where they have been entered. -/
theorem enter_eq_some {position : String → Option Nat} {first : Nat} {entries : List Expression}
    (distinct : (entries.map Expression.id).Nodup) {j : Nat} :
    enter position first entries id = some j ↔
      (∃ k e, entries[k]? = some e ∧ e.id = id ∧ first + k = j) ∨
      (id ∉ entries.map Expression.id ∧ position id = some j) := by
  induction entries generalizing position first with
  | nil => simp [enter]
  | cons e rest induction =>
      rw [List.map_cons, List.nodup_cons] at distinct
      rw [enter, induction distinct.2, Function.update_apply, List.map_cons, List.mem_cons, not_or]
      constructor
      · rintro (⟨k, later, here, own, stands⟩ | ⟨absent, found⟩)
        · exact .inl ⟨k + 1, later, by rwa [List.getElem?_cons_succ], own, by omega⟩
        · split at found
          · rename_i same
            exact .inl ⟨0, e, rfl, same.symm, by injection found⟩
          · rename_i other
            exact .inr ⟨⟨other, absent⟩, found⟩
      · rintro (⟨k, later, here, own, stands⟩ | ⟨⟨other, absent⟩, found⟩)
        · cases k with
          | zero =>
              rw [List.getElem?_cons_zero, Option.some_inj] at here
              subst here
              subst own
              exact .inr ⟨distinct.1, by rw [if_pos rfl]; exact congrArg some stands⟩
          | succ k =>
              rw [List.getElem?_cons_succ] at here
              exact .inl ⟨k, later, here, own, by omega⟩
        · exact .inr ⟨absent, by rwa [if_neg other]⟩

theorem filter_of_absent {entries : List Expression} (absent : id ∉ entries.map Expression.id) :
    entries.filter (·.id != id) = entries := by
  refine List.filter_eq_self.mpr fun e listed => bne_iff_ne.mpr ?_
  rintro rfl
  exact absent (List.mem_map_of_mem listed)

/-- Where ids are distinct, taking out one expression leaves those with other ids. -/
theorem eraseIdx_eq_filter {entries : List Expression}
    (distinct : (entries.map Expression.id).Nodup) {i : Nat} {e : Expression} (here : entries[i]? = some e) :
    entries.eraseIdx i = entries.filter (·.id != e.id) := by
  induction entries generalizing i with
  | nil => cases here
  | cons first rest induction =>
      rw [List.map_cons, List.nodup_cons] at distinct
      cases i with
      | zero =>
          cases here
          rw [List.eraseIdx_cons_zero, List.filter_cons_of_neg (by simp),
            filter_of_absent distinct.1]
      | succ i =>
          rw [List.getElem?_cons_succ] at here
          have other : first.id ≠ e.id := fun same =>
            distinct.1 (same ▸ List.mem_map_of_mem (List.mem_of_getElem? here))
          rw [List.eraseIdx_cons_succ, List.filter_cons_of_pos (by simpa using other),
            induction distinct.2 here]

theorem Indexed.registry_remove (indexed : table.Indexed) (id : String) :
    (table.remove id).registry = table.registry.remove id := by
  rw [Table.remove]
  cases stands : table.position id with
  | none =>
      rw [indexed.position_eq_none] at stands
      exact congrArg (Registry.mk · table.next) (filter_of_absent stands).symm
  | some i =>
      obtain ⟨e, here, rfl⟩ := (indexed id i).mp stands
      exact congrArg (Registry.mk · table.next) (eraseIdx_eq_filter indexed.distinct here)

theorem Indexed.remove (indexed : table.Indexed) (id : String) : (table.remove id).Indexed := by
  intro key j
  rw [Table.remove]
  cases stands : table.position id with
  | none => exact indexed key j
  | some i =>
      obtain ⟨own, here, rfl⟩ := (indexed id i).mp stands
      have distinct : (((table.expressions.eraseIdx i).drop i).map Expression.id).Nodup := by
        refine indexed.distinct.sublist (List.Sublist.map _ ?_)
        exact (List.drop_sublist i _).trans (List.eraseIdx_sublist _ i)
      dsimp only
      rw [enter_eq_some distinct, Function.update_apply]
      by_cases before : j < i
      · -- nothing in front of the removed expression moves
        rw [List.getElem?_eraseIdx_of_lt before, ← indexed key j]
        constructor
        · rintro (⟨k, e, -, -, rfl⟩ | ⟨-, found⟩)
          · omega
          · split at found
            · cases found
            · exact found
        · intro found
          refine .inr ⟨fun member => ?_, ?_⟩
          · obtain ⟨e, listed, rfl⟩ := List.mem_map.mp member
            obtain ⟨k, behind⟩ := List.mem_iff_getElem?.mp listed
            rw [List.getElem?_drop, List.getElem?_eraseIdx_of_ge (Nat.le_add_right i k)] at behind
            have again := (indexed e.id _).mpr ⟨e, behind, rfl⟩
            rw [found, Option.some_inj] at again
            omega
          · rw [if_neg ?_]
            · exact found
            · rintro rfl
              rw [stands, Option.some_inj] at found
              omega
      · constructor
        · rintro (⟨k, e, behind, rfl, rfl⟩ | ⟨absent, found⟩)
          · rw [List.getElem?_drop] at behind
            exact ⟨e, behind, rfl⟩
          · -- the expression would have moved
            split at found
            · cases found
            · rename_i other
              obtain ⟨e, there, rfl⟩ := (indexed key j).mp found
              refine absurd (List.mem_map_of_mem (List.mem_of_getElem? (i := j - 1 - i) ?_)) absent
              have apart : i ≠ j := by
                rintro rfl
                rw [here, Option.some_inj] at there
                exact other (congrArg _ there.symm)
              rw [List.getElem?_drop, List.getElem?_eraseIdx_of_ge (by omega)]
              rw [← there]
              congr 1
              omega
        · rintro ⟨e, there, rfl⟩
          refine .inl ⟨j - i, e, ?_, rfl, by omega⟩
          rw [List.getElem?_drop, ← there]
          congr 1
          omega

/-! ## Reachable tables -/

/-- The tables that the operations lead to from an empty one. -/
inductive Reachable : Table → Prop where
  /-- Nothing is registered at first. -/
  | empty : Reachable {}
  /-- Code is registered. -/
  | register {table : Table} (kind code : String) (location : Location) (scope : Option Scope) :
      Reachable table → Reachable (table.register kind code location scope).2
  /-- The code of an expression is replaced. -/
  | setCode {table : Table} (id code : String) : Reachable table → Reachable (table.setCode id code)
  /-- The location of an expression is replaced. -/
  | setLocation {table : Table} (id : String) (location : Location) :
      Reachable table → Reachable (table.setLocation id location)
  /-- The scope of an expression is replaced. -/
  | setScope {table : Table} (id : String) (scope : Option Scope) :
      Reachable table → Reachable (table.setScope id scope)
  /-- An expression is removed. -/
  | remove {table : Table} (id : String) : Reachable table → Reachable (table.remove id)

/-- A reachable table is indexed, and its registry is reachable. -/
theorem Reachable.indexed (reachable : table.Reachable) :
    table.Indexed ∧ table.registry.Reachable := by
  induction reachable with
  | empty => exact ⟨fun id i => by simp, .empty⟩
  | @register table kind code location scope _ induction =>
      obtain ⟨indexed, reachable⟩ := induction
      refine ⟨indexed.register fun member => ?_, reachable.register kind code location scope⟩
      exact table.registry.not_issued_next kind (reachable.issued_of_mem member)
  | setCode id code _ induction =>
      refine ⟨induction.1.modify fun _ => rfl, ?_⟩
      rw [Table.setCode, induction.1.registry_modify]
      exact induction.2.setCode id code
  | setLocation id location _ induction =>
      refine ⟨induction.1.modify fun _ => rfl, ?_⟩
      rw [Table.setLocation, induction.1.registry_modify]
      exact induction.2.setLocation id location
  | setScope id scope _ induction =>
      refine ⟨induction.1.modify fun _ => rfl, ?_⟩
      rw [Table.setScope, induction.1.registry_modify]
      exact induction.2.setScope id scope
  | remove id _ induction =>
      refine ⟨induction.1.remove id, ?_⟩
      rw [induction.1.registry_remove]
      exact induction.2.remove id

/-- Every reachable registry is that of a reachable table. -/
theorem exists_of_reachable {registry : Registry} (reachable : registry.Reachable) :
    ∃ table : Table, table.Reachable ∧ table.registry = registry := by
  induction reachable with
  | empty => exact ⟨{}, .empty, rfl⟩
  | register kind code location scope _ induction =>
      obtain ⟨table, reachable, rfl⟩ := induction
      exact ⟨_, reachable.register kind code location scope, rfl⟩
  | setCode id code _ induction =>
      obtain ⟨table, reachable, rfl⟩ := induction
      exact ⟨_, reachable.setCode id code, reachable.indexed.1.registry_modify id⟩
  | setLocation id location _ induction =>
      obtain ⟨table, reachable, rfl⟩ := induction
      exact ⟨_, reachable.setLocation id location, reachable.indexed.1.registry_modify id⟩
  | setScope id scope _ induction =>
      obtain ⟨table, reachable, rfl⟩ := induction
      exact ⟨_, reachable.setScope id scope, reachable.indexed.1.registry_modify id⟩
  | remove id _ induction =>
      obtain ⟨table, reachable, rfl⟩ := induction
      exact ⟨_, reachable.remove id, reachable.indexed.1.registry_remove id⟩

/-! ## Removing many -/

theorem Indexed.removeAll (indexed : table.Indexed) (ids : List String) :
    (table.removeAll ids).Indexed ∧
      (table.removeAll ids).registry = table.registry.removeAll ids := by
  induction ids generalizing table with
  | nil => exact ⟨indexed, rfl⟩
  | cons id ids induction =>
      rw [Table.removeAll, List.foldl_cons, Registry.removeAll, List.foldl_cons,
        ← indexed.registry_remove]
      exact induction (indexed.remove id)

end Table

/-- What remains are the expressions with other ids. -/
theorem Registry.removeAll_eq_filter (registry : Registry) (ids : List String) :
    registry.removeAll ids =
      { registry with expressions := registry.expressions.filter (·.id ∉ ids) } := by
  induction ids generalizing registry with
  | nil => simp [removeAll]
  | cons id ids induction =>
      rw [removeAll, List.foldl_cons]
      refine (induction (registry.remove id)).trans ?_
      rw [remove, List.filter_filter]
      congr 2
      funext e
      rw [Bool.eq_iff_iff]
      simp [and_comm]

/-- It does not matter in which order ids are removed, nor how often. -/
theorem Registry.removeAll_congr (registry : Registry) {ids ids' : List String}
    (same : ∀ id, id ∈ ids ↔ id ∈ ids') : registry.removeAll ids = registry.removeAll ids' := by
  rw [removeAll_eq_filter, removeAll_eq_filter]
  simp only [same]

theorem Table.Indexed.removeAll_congr {table : Table} (indexed : table.Indexed)
    {ids ids' : List String} (same : ∀ id, id ∈ ids ↔ id ∈ ids') :
    table.removeAll ids = table.removeAll ids' := by
  obtain ⟨left, leaves⟩ := indexed.removeAll ids
  obtain ⟨right, leaves'⟩ := indexed.removeAll ids'
  exact left.eq right (by rw [leaves, leaves', Registry.removeAll_congr _ same])

end ReactiveTemplate
