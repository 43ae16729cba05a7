import Mathlib.Data.List.Basic
import ReactiveTemplate.Tree.Registry

/-!
# Reachable registries

An id is issued when its number is below that of the next id.  Every id in a registry that the
operations can reach has been issued, and the id that comes next has not: this is all that later
proofs need to know about the wording of ids.  Each operation is described by the entry it leaves
under every id.
-/

namespace ReactiveTemplate
namespace Registry

/-! ## Numbers of ids -/

private theorem toList_idOf (kind : String) (number : Nat) :
    (idOf kind number).toList = kind.toList ++ '_' :: Nat.toDigits 10 number := by
  simp [idOf]

private theorem takeWhile_reverse_idOf (kind : String) (number : Nat) :
    (idOf kind number).toList.reverse.takeWhile (· != '_') =
      (Nat.toDigits 10 number).reverse := by
  rw [toList_idOf, List.reverse_append, List.reverse_cons, List.append_assoc,
    List.takeWhile_append_of_pos]
  · simp
  · intro c member
    have digit : c ∈ Nat.toDigits 10 number := List.mem_reverse.mp member
    simp only [bne_iff_ne, ne_eq]
    rintro rfl
    exact Nat.underscore_not_in_toDigits digit

/-- What stands before the number in an id. -/
theorem dropWhile_reverse_idOf (kind : String) (number : Nat) :
    (idOf kind number).toList.reverse.dropWhile (· != '_') = '_' :: kind.toList.reverse := by
  rw [toList_idOf, List.reverse_append, List.reverse_cons, List.append_assoc,
    List.dropWhile_append_of_pos]
  · simp
  · intro c member
    have digit : c ∈ Nat.toDigits 10 number := List.mem_reverse.mp member
    simp only [bne_iff_ne, ne_eq]
    rintro rfl
    exact Nat.underscore_not_in_toDigits digit

/-- The number can be read off an id, whatever its kind. -/
theorem number_eq_of_idOf_eq {kind kind' : String} {number number' : Nat}
    (same : idOf kind number = idOf kind' number') : number = number' := by
  have digits : Nat.toDigits 10 number = Nat.toDigits 10 number' := by
    apply List.reverse_injective
    rw [← takeWhile_reverse_idOf kind, ← takeWhile_reverse_idOf kind', same]
  rw [← Nat.ofDigitChars_ten_toDigits (n := number), digits, Nat.ofDigitChars_ten_toDigits]

/-- The id has been given out, whether or not it has been removed since. -/
def Issued (registry : Registry) (id : String) : Prop :=
  ∃ kind number, number < registry.next ∧ id = idOf kind number

theorem Issued.mono {before after : Registry} {id : String} (issued : before.Issued id)
    (next_le : before.next ≤ after.next) : after.Issued id := by
  obtain ⟨kind, number, below, rfl⟩ := issued
  exact ⟨kind, number, Nat.lt_of_lt_of_le below next_le, rfl⟩

theorem not_issued_ahead (registry : Registry) (kind : String) (ahead : Nat) :
    ¬ registry.Issued (idOf kind (registry.next + ahead)) := by
  rintro ⟨kind', number, below, same⟩
  rw [← number_eq_of_idOf_eq same] at below
  omega

theorem not_issued_next (registry : Registry) (kind : String) :
    ¬ registry.Issued (idOf kind registry.next) := registry.not_issued_ahead kind 0

/-! ## Entries after each operation -/

@[simp]
theorem register_fst (registry : Registry) (kind code : String) (location : Location)
    (scope : Option Scope) :
    (registry.register kind code location scope).1 = idOf kind registry.next := rfl

@[simp]
theorem next_register (registry : Registry) (kind code : String) (location : Location)
    (scope : Option Scope) :
    (registry.register kind code location scope).2.next = registry.next + 1 := rfl

@[simp]
theorem next_modify (registry : Registry) (id : String) (change : Expression → Expression) :
    (registry.modify id change).next = registry.next := rfl

@[simp]
theorem next_remove (registry : Registry) (id : String) :
    (registry.remove id).next = registry.next := rfl

theorem get?_register_of_ne {registry : Registry} {kind code : String} {location : Location}
    {scope : Option Scope} {id : String} (other : id ≠ idOf kind registry.next) :
    (registry.register kind code location scope).2.get? id = registry.get? id := by
  have unmatched : (idOf kind registry.next == id) = false := by
    simpa using other.symm
  simp [register, get?, List.find?_append, unmatched]

theorem get?_modify {registry : Registry} {id other : String} {change : Expression → Expression}
    (keeps : ∀ e, (change e).id = e.id) :
    (registry.modify id change).get? other =
      (registry.get? other).map fun e => if e.id == id then change e else e := by
  have kept : ((fun e : Expression => e.id == other) ∘
      fun e : Expression => if e.id == id then change e else e) = fun e => e.id == other := by
    funext e
    simp only [Function.comp_apply]
    split
    · rw [keeps]
    · rfl
  rw [modify, get?, List.find?_map, kept, get?]

theorem id_of_get? {registry : Registry} {id : String} {entry : Expression}
    (found : registry.get? id = some entry) : entry.id = id := by
  simpa using List.find?_some found

theorem get?_modify_self {registry : Registry} {id : String} {change : Expression → Expression}
    (keeps : ∀ e, (change e).id = e.id) :
    (registry.modify id change).get? id = (registry.get? id).map change := by
  rw [get?_modify keeps]
  cases found : registry.get? id with
  | none => rfl
  | some entry => simp [id_of_get? found]

theorem get?_modify_of_ne {registry : Registry} {id other : String}
    {change : Expression → Expression} (keeps : ∀ e, (change e).id = e.id) (ne : other ≠ id) :
    (registry.modify id change).get? other = registry.get? other := by
  rw [get?_modify keeps]
  cases found : registry.get? other with
  | none => rfl
  | some entry => simp [id_of_get? found, ne]

theorem exists_of_get?_modify {registry : Registry} {id other : String} {entry : Expression}
    {change : Expression → Expression}
    (found : (registry.modify id change).get? other = some entry)
    (keeps : ∀ e, (change e).id = e.id) :
    ∃ former, registry.get? other = some former := by
  rw [get?_modify keeps, Option.map_eq_some_iff] at found
  obtain ⟨former, found, -⟩ := found
  exact ⟨former, found⟩

@[simp]
theorem get?_remove_self (registry : Registry) (id : String) :
    (registry.remove id).get? id = none := by
  simp [remove, get?, List.find?_filter]

theorem get?_remove_of_ne {registry : Registry} {id other : String} (ne : other ≠ id) :
    (registry.remove id).get? other = registry.get? other := by
  rw [remove, get?, List.find?_filter, get?]
  congr 1
  funext e
  by_cases matched : e.id = other <;> simp [matched, ne]

@[simp]
theorem next_removeAll (registry : Registry) (ids : List String) :
    (registry.removeAll ids).next = registry.next := by
  induction ids generalizing registry with
  | nil => rfl
  | cons id ids induction => exact induction (registry.remove id)

theorem get?_removeAll_of_notMem {registry : Registry} {ids : List String} {id : String}
    (absent : id ∉ ids) : (registry.removeAll ids).get? id = registry.get? id := by
  induction ids generalizing registry with
  | nil => rfl
  | cons first ids induction =>
      rw [List.mem_cons, not_or] at absent
      rw [removeAll, List.foldl_cons]
      exact (induction absent.2).trans (get?_remove_of_ne absent.1)

theorem get?_removeAll_of_mem {registry : Registry} {ids : List String} {id : String}
    (member : id ∈ ids) : (registry.removeAll ids).get? id = none := by
  induction ids generalizing registry with
  | nil => cases member
  | cons first ids induction =>
      by_cases later : id ∈ ids
      · exact induction later
      · have equal : id = first := (List.mem_cons.mp member).resolve_right later
        subst equal
        exact (get?_removeAll_of_notMem later).trans (get?_remove_self registry id)

/-! ## Reachability -/

/-- The registries that the operations lead to from an empty one. -/
inductive Reachable : Registry → Prop where
  /-- Nothing is registered at first. -/
  | empty : Reachable {}
  /-- Code is registered. -/
  | register {registry : Registry} (kind code : String) (location : Location)
      (scope : Option Scope) :
      Reachable registry → Reachable (registry.register kind code location scope).2
  /-- The code of an expression is replaced. -/
  | setCode {registry : Registry} (id code : String) :
      Reachable registry → Reachable (registry.setCode id code)
  /-- The location of an expression is replaced. -/
  | setLocation {registry : Registry} (id : String) (location : Location) :
      Reachable registry → Reachable (registry.setLocation id location)
  /-- The scope of an expression is replaced. -/
  | setScope {registry : Registry} (id : String) (scope : Option Scope) :
      Reachable registry → Reachable (registry.setScope id scope)
  /-- An expression is removed. -/
  | remove {registry : Registry} (id : String) :
      Reachable registry → Reachable (registry.remove id)

theorem Reachable.removeAll {registry : Registry} (reachable : registry.Reachable)
    (ids : List String) : (registry.removeAll ids).Reachable := by
  induction ids generalizing registry with
  | nil => exact reachable
  | cons id ids induction => exact induction (reachable.remove id)

/-- Every id in a reachable registry has been issued. -/
theorem Reachable.issued {registry : Registry} (reachable : registry.Reachable) {id : String}
    {entry : Expression} (found : registry.get? id = some entry) : registry.Issued id := by
  induction reachable generalizing entry with
  | empty => simp [get?] at found
  | @register registry kind code location scope _ induction =>
      by_cases fresh : id = idOf kind registry.next
      · exact ⟨kind, registry.next, Nat.lt_succ_self _, fresh⟩
      · rw [get?_register_of_ne fresh] at found
        exact (induction found).mono (Nat.le_succ _)
  | setCode key code _ induction =>
      obtain ⟨former, found⟩ := exists_of_get?_modify found fun _ => rfl
      exact induction found
  | setLocation key location _ induction =>
      obtain ⟨former, found⟩ := exists_of_get?_modify found fun _ => rfl
      exact induction found
  | setScope key scope _ induction =>
      obtain ⟨former, found⟩ := exists_of_get?_modify found fun _ => rfl
      exact induction found
  | @remove registry key _ induction =>
      by_cases removed : id = key
      · subst removed
        simp at found
      · rw [get?_remove_of_ne removed] at found
        exact induction found

theorem get?_next {registry : Registry} (reachable : registry.Reachable) (kind : String) :
    registry.get? (idOf kind registry.next) = none := by
  cases found : registry.get? (idOf kind registry.next) with
  | none => rfl
  | some entry => exact (registry.not_issued_next kind (reachable.issued found)).elim

theorem get?_register_self {registry : Registry} (reachable : registry.Reachable)
    (kind code : String) (location : Location) (scope : Option Scope) :
    (registry.register kind code location scope).2.get? (idOf kind registry.next) =
      some ⟨idOf kind registry.next, code, location, scope⟩ := by
  have unused := get?_next reachable kind
  rw [get?] at unused
  simp [register, get?, List.find?_append, unused]

end Registry
end ReactiveTemplate
