import ReactiveTemplate.Proofs.Tree.Expressions

/-!
# Balances

A registry lists every id once, so that it is an account of ids: a step takes some ids over and
hands others back, and whatever else is listed stays listed.  Steps add up, one after the other and
side by side.  Where nodes are rewritten, the ids that are neither in the new nodes nor removed are
left over, and the balance says which they are.
-/

namespace ReactiveTemplate
namespace Registry

variable {registry : Registry} {ids new : List String}

/-! ## Listed ids -/

theorem Reachable.issued_of_mem (reachable : registry.Reachable) {id : String}
    (member : id ∈ registry.ids) : registry.Issued id := by
  obtain ⟨entry, listed, rfl⟩ := List.mem_map.mp member
  cases found : registry.get? entry.id with
  | some held => exact reachable.issued found
  | none =>
      rw [get?, List.find?_eq_none] at found
      exact absurd (beq_self_eq_true entry.id) (found entry listed)

@[simp]
theorem ids_register (registry : Registry) (kind code : String) (location : Location)
    (scope : Option Scope) :
    (registry.register kind code location scope).2.ids = registry.ids ++ [idOf kind registry.next] := by
  simp [register, ids]

theorem ids_modify (registry : Registry) (id : String) {change : Expression → Expression}
    (keeps : ∀ e, (change e).id = e.id) : (registry.modify id change).ids = registry.ids := by
  rw [ids, modify, List.map_map]
  refine List.map_congr_left fun e _ => ?_
  rw [Function.comp_apply]
  split
  · exact keeps e
  · rfl

theorem ids_remove (registry : Registry) (id : String) :
    (registry.remove id).ids = registry.ids.filter (· != id) := by
  rw [ids, remove, ids, List.filter_map]
  rfl

/-- No id is registered twice. -/
theorem Reachable.distinct (reachable : registry.Reachable) : registry.ids.Nodup := by
  induction reachable with
  | empty => exact List.nodup_nil
  | @register registry kind code location scope reachable induction =>
      rw [ids_register, List.nodup_append]
      refine ⟨induction, List.nodup_singleton _, ?_⟩
      rintro id member _ last rfl
      rw [List.mem_singleton.mp last] at member
      exact registry.not_issued_next kind (reachable.issued_of_mem member)
  | setCode id code _ induction | setLocation id location _ induction
  | setScope id scope _ induction =>
      refine (congrArg List.Nodup (ids_modify _ id ?_)).mpr induction
      exact fun _ => rfl
  | remove id _ induction =>
      rw [ids_remove]
      exact induction.filter _

/-- Every entry is found under its id. -/
theorem Reachable.get?_of_mem (reachable : registry.Reachable) {e : Expression}
    (member : e ∈ registry.expressions) : registry.get? e.id = some e := by
  have distinct := reachable.distinct
  obtain ⟨before, rest, shape⟩ := List.append_of_mem member
  rw [ids, shape, List.map_append, List.map_cons, List.nodup_append] at distinct
  refine List.find?_eq_some_iff_append.mpr ⟨beq_self_eq_true _, before, rest, shape, ?_⟩
  intro other earlier
  have apart := distinct.2.2 other.id (List.mem_map_of_mem earlier) e.id List.mem_cons_self
  simpa using apart

/-- The registry lists the given ids and no other. -/
structure Lists (registry : Registry) (ids : List String) : Prop where
  /-- The registry is reachable. -/
  reachable : registry.Reachable
  /-- The order of the ids does not matter. -/
  same : registry.ids.Perm ids

theorem Lists.perm (lists : registry.Lists ids) (same : ids.Perm new) : registry.Lists new :=
  ⟨lists.reachable, lists.same.trans same⟩

theorem Lists.remove {id : String} (lists : registry.Lists (id :: ids)) :
    (registry.remove id).Lists ids := by
  refine ⟨lists.reachable.remove id, ?_⟩
  have distinct := lists.same.nodup_iff.mp lists.reachable.distinct
  have rest : (id :: ids).filter (· != id) = ids := by
    rw [List.filter_cons_of_neg (by simp), List.filter_eq_self]
    intro other member
    simp only [bne_iff_ne, ne_eq]
    rintro rfl
    exact (List.nodup_cons.mp distinct).1 member
  rw [ids_remove]
  exact rest ▸ lists.same.filter _

end Registry

open Registry

/-! ## Steps -/

/-- A step takes the ids `old` over and hands the ids `new` back, whatever else is listed. -/
def Balance (before : Registry) (old : List String) (after : Registry) (new : List String) : Prop :=
  ∀ others, before.Lists (old ++ others) → after.Lists (new ++ others)

namespace Balance

variable {before middle after : Registry} {old fresh new es fs es' fs' : List String}

theorem refl (registry : Registry) (ids : List String) : Balance registry ids registry ids :=
  fun _ lists => lists

/-- One step after the other. -/
theorem trans (first : Balance before old middle fresh) (second : Balance middle fresh after new) :
    Balance before old after new :=
  fun others lists => second others (first others lists)

/-- The order of ids does not matter. -/
theorem perm (balance : Balance before es after fs) (taken : old.Perm es) (made : fs.Perm new) :
    Balance before old after new := fun others lists =>
  (balance others (lists.perm (taken.append_right others))).perm (made.append_right others)

/-- One step after the other, with the ids in another order. -/
theorem reorder (first : Balance before old middle es) (same : es.Perm fs)
    (second : Balance middle fs after new) : Balance before old after new :=
  first.trans (second.perm same (List.Perm.refl _))

/-- A step beside ids that it leaves alone, on their left. -/
theorem beside_left (balance : Balance before old after new) (ids : List String) :
    Balance before (old ++ ids) after (new ++ ids) := fun others lists => by
  rw [List.append_assoc] at lists ⊢
  exact balance (ids ++ others) lists

/-- A step beside ids that it leaves alone, on their right. -/
theorem beside_right (balance : Balance before old after new) (ids : List String) :
    Balance before (ids ++ old) after (ids ++ new) :=
  (balance.beside_left ids).perm List.perm_append_comm List.perm_append_comm

/-- Two steps side by side, the left one first. -/
theorem append (left : Balance before es middle es') (right : Balance middle fs after fs') :
    Balance before (es ++ fs) after (es' ++ fs') :=
  (left.beside_left fs).trans (right.beside_right es')

theorem register (registry : Registry) (kind code : String) (location : Location)
    (scope : Option Scope) :
    Balance registry [] (registry.register kind code location scope).2
      [(registry.register kind code location scope).1] := by
  intro others lists
  refine ⟨lists.reachable.register kind code location scope, ?_⟩
  rw [ids_register, register_fst]
  exact (lists.same.append_right _).trans List.perm_append_comm

theorem remove (registry : Registry) (id : String) :
    Balance registry [id] (registry.remove id) [] := fun _ lists => lists.remove

theorem removeAll (registry : Registry) (ids : List String) :
    Balance registry ids (registry.removeAll ids) [] := by
  induction ids generalizing registry with
  | nil => exact refl registry []
  | cons id rest induction => exact (remove registry id).append (induction (registry.remove id))

theorem modify {registry : Registry} {id : String} {change : Expression → Expression}
    (reachable : registry.Reachable → (registry.modify id change).Reachable)
    (keeps : ∀ e, (change e).id = e.id) (ids : List String) :
    Balance registry ids (registry.modify id change) ids := fun _ lists =>
  ⟨reachable lists.reachable, ids_modify registry id keeps ▸ lists.same⟩

end Balance

/-! ## Traversals -/

namespace Traversal

/-- Steps that balance at each expression balance for a tree. -/
theorem nodes_balance {t : Traversal Registry}
    (step : ∀ registry e, Balance registry [e.id] (t.expression registry e).2
      [(t.expression registry e).1.id]) (registry : Registry) (nodes : List Node) :
    Balance registry (Node.idsOfList nodes) (t.nodes registry nodes).2
      (Node.idsOfList (t.nodes registry nodes).1) := by
  have run (es : List Expression) (registry : Registry) :
      Balance registry (es.map Expression.id) (t.run registry es).2
        ((t.run registry es).1.map Expression.id) := by
    induction es generalizing registry with
    | nil => exact .refl registry []
    | cons e rest induction => exact (step registry e).append (induction _)
  have whole := run (Node.expressionsOfList nodes) registry
  rw [← nodes_run] at whole
  rwa [Node.idsOfList_eq, Node.idsOfList_eq]

end Traversal

namespace Node

theorem rekey_balance (registry : Registry) (nodes : List Node) :
    Balance registry [] (rekey registry nodes).2 (idsOfList (rekey registry nodes).1) := by
  have run (es : List Expression) (registry : Registry) (renamed : Renaming) :
      Balance registry [] (rekeying.run (registry, renamed) es).2.1
        ((rekeying.run (registry, renamed) es).1.map Expression.id) := by
    induction es generalizing registry renamed with
    | nil => exact .refl registry []
    | cons e rest induction =>
        exact (Balance.register registry (kindOf e.id) e.code e.location
          (renameScope renamed e.scope)).append (induction _ _)
  have whole := run (expressionsOfList nodes) registry []
  rw [← Traversal.nodes_run] at whole
  rw [idsOfList_eq]
  exact whole

theorem relocate_balance (location : Location) (registry : Registry) (nodes : List Node) :
    Balance registry (idsOfList nodes) (relocate location registry nodes).2
      (idsOfList (relocate location registry nodes).1) := by
  refine Traversal.nodes_balance (fun registry e => ?_) registry nodes
  exact .modify (·.setLocation e.id location) (fun _ => rfl) [e.id]

theorem rebind_balance (scope : Option Scope) (registry : Registry) (nodes : List Node) :
    Balance registry (idsOfList nodes) (rebind scope registry nodes).2
      (idsOfList (rebind scope registry nodes).1) := by
  rw [rebind]
  split
  · exact .refl _ _
  · refine Traversal.nodes_balance (fun registry e => ?_) registry nodes
    exact .modify (·.setScope e.id _) (fun _ => rfl) [e.id]

@[simp]
theorem idsOfList_append (left right : List Node) :
    idsOfList (left ++ right) = idsOfList left ++ idsOfList right := by
  rw [idsOfList_eq, expressionsOfList_append, List.map_append, ← idsOfList_eq, ← idsOfList_eq]

theorem idsOfList_singleton (node : Node) : idsOfList [node] = node.ids := List.append_nil _

theorem idsOfList_perm {left right : List Node} (same : left.Perm right) :
    (idsOfList left).Perm (idsOfList right) := by
  rw [idsOfList_eq, idsOfList_eq]
  exact (expressionsOfList_perm same).map _

end Node

/-! ## Rewriting -/

/-- A registry, and ids that are to be put into the tree. -/
structure Account where
  /-- The registry. -/
  registry : Registry
  /-- The ids that no node has yet. -/
  held : List String := []

namespace Account

/-- Nodes are rewritten, and the ids `left` stay registered without being in any node. -/
def Moves (before : Account) (old : List Node) (after : Account) (new : List Node)
    (left : List String) : Prop :=
  Balance before.registry (before.held ++ Node.idsOfList old) after.registry
    (after.held ++ (Node.idsOfList new ++ left))

namespace Moves

variable {before middle after : Account} {first first' rest rest' old new : List Node}
variable {left left' : List String}

theorem refl (account : Account) (nodes : List Node) : Moves account nodes account nodes [] := by
  rw [Moves, List.append_nil]
  exact .refl _ _

/-- Without anything held or left, the ids of the nodes balance. -/
theorem of_balance {registry registry' : Registry}
    (balance : Balance registry (Node.idsOfList old) registry' (Node.idsOfList new)) :
    Moves { registry } old { registry := registry' } new [] := by
  rw [Moves, List.append_nil]
  exact balance

theorem balance {registry registry' : Registry}
    (moves : Moves { registry } old { registry := registry' } new []) :
    Balance registry (Node.idsOfList old) registry' (Node.idsOfList new) := by
  rwa [Moves, List.append_nil] at moves

/-- The order in which nodes are rewritten does not matter. -/
theorem of_perm {ordered : List Node} (moves : Moves before ordered after new left)
    (same : old.Perm ordered) : Moves before old after new left :=
  Balance.perm moves ((Node.idsOfList_perm same).append_left _) (List.Perm.refl _)

/-- The first nodes, then the rest. -/
theorem append (one : Moves before first middle first' left)
    (two : Moves middle rest after rest' left') :
    Moves before (first ++ rest) after (first' ++ rest') (left ++ left') := by
  have start := Balance.beside_left one (Node.idsOfList rest)
  have finish := Balance.beside_right two (Node.idsOfList first' ++ left)
  refine (start.trans (finish.perm ?_ (List.Perm.refl _))).perm ?_ ?_
  all_goals
    simp only [List.perm_iff_count, List.count_append, Node.idsOfList_append]
    omega

/-- Nodes inside others, of which the ids `head` stay. -/
theorem within {outer outer' : List Node} (moves : Moves before old after new left)
    (head : List String) (taken : Node.idsOfList outer = head ++ Node.idsOfList old)
    (made : Node.idsOfList outer' = head ++ Node.idsOfList new) :
    Moves before outer after outer' left := by
  refine (Balance.beside_right moves head).perm ?_ ?_
  all_goals
    simp only [List.perm_iff_count, List.count_append, taken, made]
    omega

/-- Nodes inside others that are dropped, of which the ids `head` are left. -/
theorem unwrap {outer : List Node} (moves : Moves before old after new left)
    (head : List String) (taken : Node.idsOfList outer = head ++ Node.idsOfList old) :
    Moves before outer after new (head ++ left) := by
  refine (Balance.beside_right moves head).perm ?_ ?_
  all_goals
    simp only [List.perm_iff_count, List.count_append, taken]
    omega

theorem element (tag : String) (attributes : List Attribute) (site : Site)
    (moves : Moves before old after new left) :
    Moves before [.element tag attributes old site] after [.element tag attributes new site]
      left :=
  moves.within (Attribute.ids attributes) (Node.idsOfList_singleton _) (Node.idsOfList_singleton _)

theorem component (name : String) (attributes : List Attribute) (site : Site)
    (moves : Moves before old after new left) :
    Moves before [.component name attributes old site] after [.component name attributes new site]
      left :=
  moves.within (Attribute.ids attributes) (Node.idsOfList_singleton _) (Node.idsOfList_singleton _)

theorem conditional (id condition : String) (site : Site)
    (one : Moves before first middle first' left)
    (two : Moves middle rest after rest' left') :
    Moves before [.conditional id condition first rest site] after
      [.conditional id condition first' rest' site] (left ++ left') := by
  refine (one.append two).within [id] ?_ ?_
  all_goals rw [Node.idsOfList_singleton, Node.ids, Node.idsOfList_append, List.singleton_append]

theorem optional (id condition : String) (site : Site)
    (moves : Moves before old after new left) :
    Moves before [.optional id condition old site] after [.optional id condition new site] left :=
  moves.within [id] (Node.idsOfList_singleton _) (Node.idsOfList_singleton _)

theorem loop (id source : String) (binder : LoopBinder) (site : Site)
    (moves : Moves before old after new left) :
    Moves before [.loop id source binder old site] after [.loop id source binder new site] left :=
  moves.within [id] (Node.idsOfList_singleton _) (Node.idsOfList_singleton _)

end Moves
end Account
end ReactiveTemplate
