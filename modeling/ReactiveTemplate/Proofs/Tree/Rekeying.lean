import Mathlib.Data.Set.Function
import ReactiveTemplate.Proofs.Tree.Balance
import ReactiveTemplate.Proofs.Tree.Renaming

/-!
# Copies with fresh ids

A tree that is given fresh ids is the same tree with its ids renamed: each new id is of the kind of
the old one and has the next number, in the order of the ids, and a loop that is named inside its
body is named by its new id.  The registry gets one entry for each id, behind those it has.
-/

namespace ReactiveTemplate
namespace Node

open Registry

/-! ## New ids in order -/

/-- The ids that follow for old ids, where the next number is known. -/
def nextIds (number : Nat) : List String → List String
  | [] => []
  | id :: rest => idOf (kindOf id) number :: nextIds (number + 1) rest

theorem mem_nextIds {number : Nat} {ids : List String} {id : String}
    (member : id ∈ nextIds number ids) : ∃ kind ahead, id = idOf kind (number + ahead) := by
  induction ids generalizing number with
  | nil => cases member
  | cons old rest induction =>
      rcases List.mem_cons.mp member with rfl | later
      · exact ⟨kindOf old, 0, rfl⟩
      · obtain ⟨kind, ahead, rfl⟩ := induction later
        exact ⟨kind, ahead + 1, by rw [Nat.add_right_comm, Nat.add_assoc]⟩

theorem nextIds_nodup (number : Nat) (ids : List String) : (nextIds number ids).Nodup := by
  induction ids generalizing number with
  | nil => exact List.nodup_nil
  | cons old rest induction =>
      refine List.nodup_cons.mpr ⟨fun member => ?_, induction (number + 1)⟩
      obtain ⟨kind, ahead, same⟩ := mem_nextIds member
      have numbers := number_eq_of_idOf_eq same
      omega

theorem map_kindOf_nextIds (number : Nat) (ids : List String) :
    (nextIds number ids).map kindOf = ids.map kindOf := by
  induction ids generalizing number with
  | nil => rfl
  | cons old rest induction => simp [nextIds, induction]

/-- The registry gets an entry for each expression that is visited, under the next id. -/
theorem rekeying_run_appends (state : Registry × Renaming) (es : List Expression) :
    (rekeying.run state es).1.map Expression.id = nextIds state.1.next (es.map Expression.id) ∧
      (rekeying.run state es).2.1.expressions =
        state.1.expressions ++ (rekeying.run state es).1 := by
  induction es generalizing state with
  | nil => exact ⟨rfl, (List.append_nil _).symm⟩
  | cons e rest induction =>
      obtain ⟨ids, entries⟩ := induction (rekeying.expression state e).2
      constructor
      · rw [Traversal.run, List.map_cons, List.map_cons, nextIds, ids]
        rfl
      · rw [Traversal.run, entries]
        simp [rekeying, register]

/-- Every id that is visited is found under its new name afterwards. -/
theorem lookup_rekeying_run_self {es : List Expression} (distinct : (es.map Expression.id).Nodup)
    (state : Registry × Renaming) :
    (es.map Expression.id).map (fun id => (rekeying.run state es).2.2.lookup id) =
      ((rekeying.run state es).1.map Expression.id).map some := by
  induction es generalizing state with
  | nil => rfl
  | cons e rest induction =>
      rw [List.map_cons, List.nodup_cons] at distinct
      simp only [Traversal.run, List.map_cons, List.cons.injEq]
      refine ⟨?_, induction distinct.2 _⟩
      rw [lookup_rekeying_run distinct.1]
      simp [rekeying]

/-! ## Renaming -/

section

variable {fresh : String → String} {loops : List String} {before middle after : Renaming}
variable {left right : List String}

/-- The ids of a part of a tree have their new names once the part has been visited, and the loops
around it have theirs before. -/
structure Ready (fresh : String → String) (loops : List String) (before after : Renaming)
    (ids : List String) : Prop where
  distinct : ids.Nodup
  apart : loops.Disjoint ids
  around : ∀ loop ∈ loops, (before.lookup loop).getD loop = fresh loop
  named : ∀ id ∈ ids, after.lookup id = some (fresh id)

/-- One part after the other. -/
theorem Ready.split (left right : List String)
    (ready : Ready fresh loops before after (left ++ right))
    (first : ∀ {id}, id ∉ left → middle.lookup id = before.lookup id)
    (second : ∀ {id}, id ∉ right → after.lookup id = middle.lookup id) :
    Ready fresh loops before middle left ∧ Ready fresh loops middle after right := by
  obtain ⟨distinct, apart, around, named⟩ := ready
  rw [List.disjoint_append_right] at apart
  have disjoint := List.disjoint_of_nodup_append distinct
  refine ⟨⟨distinct.of_append_left, apart.1, around, fun id member => ?_⟩,
    ⟨distinct.of_append_right, apart.2, fun loop member => ?_, fun id member => ?_⟩⟩
  · rw [← second (disjoint member)]
    exact named id (List.mem_append_left _ member)
  · rw [first (apart.1 member)]
    exact around loop member
  · exact named id (List.mem_append_right _ member)

/-- Inside a loop that has been visited. -/
theorem Ready.inside {id : String} (own : Ready fresh loops before middle [id])
    (body : Ready fresh loops middle after right) (new : id ∉ right) :
    Ready fresh (id :: loops) middle after right := by
  refine ⟨body.distinct, List.disjoint_cons_left.mpr ⟨new, body.apart⟩, ?_, body.named⟩
  intro loop member
  rcases List.mem_cons.mp member with rfl | outer
  · rw [own.named loop (List.mem_singleton_self _)]
    rfl
  · exact body.around loop outer

/-- The new name stands for the old one. -/
abbrev Follows (fresh : String → String) (id new : String) : Prop := new = fresh id

theorem Ready.scope {ids : List String} {scope : Option Scope}
    (ready : Ready fresh loops before after ids) (inside : Scope.Inside loops scope) :
    Scope.Renamed (Follows fresh) scope (renameScope before scope) := by
  cases scope with
  | none => exact .none
  | some scope =>
      obtain ⟨bound, loop⟩ := scope
      cases loop with
      | none => exact .some ⟨rfl, .none⟩
      | some loop =>
          have known := ready.around loop (inside loop rfl)
          simp only [renameScope, Option.map_some, Option.bind_some]
          cases found : before.lookup loop with
          | none | some =>
              rw [found] at known
              exact .some ⟨rfl, .some known⟩

theorem Ready.site {ids : List String} {site : Site} {state : Registry × Renaming}
    (ready : Ready fresh loops state.2 after ids) (inside : Scope.Inside loops site.scope) :
    site.Renamed (Follows fresh) (rekeying.site state site) :=
  ⟨rfl, ready.scope inside⟩

theorem Ready.expression {e : Expression} {state : Registry × Renaming}
    (ready : Ready fresh loops state.2 (rekeying.expression state e).2.2 [e.id])
    (inside : Scope.Inside loops e.scope) :
    e.Renamed (Follows fresh) (rekeying.expression state e).1 := by
  refine ⟨?_, rfl, rfl, ready.scope inside⟩
  have named := ready.named e.id (List.mem_singleton_self _)
  simpa [rekeying] using named

theorem lookup_rekeying_expression {e : Expression} {id : String} (absent : id ∉ [e.id])
    (state : Registry × Renaming) :
    (rekeying.expression state e).2.2.lookup id = state.2.lookup id := by
  have differs : (id == e.id) = false := by simpa using absent
  simp [rekeying, List.lookup_cons, differs]

private theorem rekeying_attrs_renamed {attributes : List Attribute}
    {state : Registry × Renaming}
    (ready : Ready fresh loops state.2 (rekeying.attrs state attributes).2.2
      (Attribute.ids attributes))
    (enclosed : ∀ attr ∈ attributes, attr.Enclosed loops) :
    List.Forall₂ (Attribute.Renamed (Follows fresh)) attributes
      (rekeying.attrs state attributes).1 := by
  induction attributes generalizing state with
  | nil => exact .nil
  | cons attr rest induction =>
      obtain ⟨name, value, site⟩ := attr
      rw [List.forall_mem_cons] at enclosed
      obtain ⟨⟨inside, inner⟩, behind⟩ := enclosed
      cases value with
      | fixed text => exact .cons ⟨rfl, .fixed text, ready.site inside⟩ (induction ready behind)
      | dynamic e =>
          obtain ⟨own, later⟩ := ready.split [e.id] (Attribute.ids rest)
            (fun absent => lookup_rekeying_expression absent state)
            (fun absent => lookup_rekeying_attrs absent _)
          rw [AttributeValue.expressions, List.forall_mem_singleton] at inner
          exact .cons ⟨rfl, .dynamic (own.expression inner), ready.site inside⟩
            (induction later behind)

mutual

private theorem rekeying_node_renamed :
    ∀ (node : Node) (state : Registry × Renaming) {loops : List String},
      Ready fresh loops state.2 (rekeying.node state node).2.2 node.ids → node.Enclosed loops →
      Renamed (Follows fresh) [node] [(rekeying.node state node).1]
  | element _ attributes children _, state, loops, ready, enclosed => by
      rw [Enclosed] at enclosed
      obtain ⟨header, body⟩ := ready.split _ _ (fun absent => lookup_rekeying_attrs absent state)
        (fun absent => lookup_rekeying absent (rekeying.attrs state attributes).2)
      exact .element (rekeying_attrs_renamed header enclosed.2.1) (ready.site enclosed.1)
        (rekeying_nodes_renamed children _ body enclosed.2.2) .nil
  | component _ attributes children _, state, loops, ready, enclosed => by
      rw [Enclosed] at enclosed
      obtain ⟨header, body⟩ := ready.split _ _ (fun absent => lookup_rekeying_attrs absent state)
        (fun absent => lookup_rekeying absent (rekeying.attrs state attributes).2)
      exact .component (rekeying_attrs_renamed header enclosed.2.1) (ready.site enclosed.1)
        (rekeying_nodes_renamed children _ body enclosed.2.2) .nil
  | text _ site, state, loops, ready, enclosed => by
      rw [Enclosed] at enclosed
      exact .text (ready.site enclosed) .nil
  | expression e, state, loops, ready, enclosed => by
      rw [Enclosed] at enclosed
      exact .expression (Ready.expression ready enclosed) .nil
  | conditional id condition consequent alternate site, state, loops, ready, enclosed => by
      rw [Enclosed] at enclosed
      let head : Expression := ⟨id, condition, site.location, site.scope⟩
      obtain ⟨own, below⟩ := ready.split [id] _
        (fun absent => lookup_rekeying_expression (e := head) absent state)
        (fun {_} absent =>
          have apart := not_or.mp (fun member => absent (List.mem_append.mpr member))
          (lookup_rekeying apart.2 _).trans
            (lookup_rekeying apart.1 (rekeying.expression state head).2))
      obtain ⟨first, second⟩ := below.split _ _ (fun absent => lookup_rekeying absent _)
        (fun absent => lookup_rekeying absent
          (rekeying.nodes (rekeying.expression state head).2 consequent).2)
      exact .conditional (own.expression (e := head) enclosed.1)
        (rekeying_nodes_renamed consequent _ first enclosed.2.1)
        (rekeying_nodes_renamed alternate _ second enclosed.2.2) .nil
  | optional id condition branch site, state, loops, ready, enclosed => by
      rw [Enclosed] at enclosed
      let head : Expression := ⟨id, condition, site.location, site.scope⟩
      obtain ⟨own, below⟩ := ready.split [id] _
        (fun absent => lookup_rekeying_expression (e := head) absent state)
        (fun absent => lookup_rekeying absent (rekeying.expression state head).2)
      exact .optional (own.expression (e := head) enclosed.1)
        (rekeying_nodes_renamed branch _ below enclosed.2) .nil
  | loop id source binder body site, state, loops, ready, enclosed => by
      rw [Enclosed] at enclosed
      have new : id ∉ idsOfList body := (List.nodup_cons.mp ready.distinct).1
      let head : Expression := ⟨id, source, site.location, site.scope⟩
      obtain ⟨own, below⟩ := ready.split [id] _
        (fun absent => lookup_rekeying_expression (e := head) absent state)
        (fun absent => lookup_rekeying absent (rekeying.expression state head).2)
      exact .loop (own.expression (e := head) enclosed.1)
        (rekeying_nodes_renamed body _ (own.inside below new) enclosed.2) .nil
  | doctype .., _, _, _, _ => .doctype .nil

private theorem rekeying_nodes_renamed :
    ∀ (nodes : List Node) (state : Registry × Renaming) {loops : List String},
      Ready fresh loops state.2 (rekeying.nodes state nodes).2.2 (idsOfList nodes) →
      EnclosedAll loops nodes →
      Renamed (Follows fresh) nodes (rekeying.nodes state nodes).1
  | [], _, _, _, _ => .nil
  | first :: rest, state, loops, ready, enclosed => by
      rw [EnclosedAll] at enclosed
      obtain ⟨own, behind⟩ := ready.split _ _ (fun absent => lookup_rekeying_node absent state)
        (fun absent => lookup_rekeying absent (rekeying.node state first).2)
      exact (rekeying_node_renamed first state own enclosed.1).append
        (rekeying_nodes_renamed rest _ behind enclosed.2)

end

end

/-! ## Copies -/

variable {registry : Registry} {nodes : List Node} {loops : List String}

/-- A copy with fresh ids is the tree with its ids renamed one to one.  Kinds are kept, the new ids
have never been issued, and the registry gets just their entries, in order; loops around the tree
keep their names. -/
theorem rekey_renames (reachable : registry.Reachable) (distinct : (idsOfList nodes).Nodup)
    (apart : loops.Disjoint (idsOfList nodes)) (enclosed : EnclosedAll loops nodes) :
    let copy := rekey registry nodes
    ∃ fresh : String → String,
      Set.InjOn fresh {id | id ∈ idsOfList nodes} ∧
      (∀ id ∈ idsOfList nodes, kindOf (fresh id) = kindOf id ∧ ¬ registry.Issued (fresh id)) ∧
      (∀ id, id ∉ idsOfList nodes → fresh id = id) ∧
      Renamed (Follows fresh) nodes copy.1 ∧
      idsOfList copy.1 = (idsOfList nodes).map fresh ∧
      copy.2.expressions = registry.expressions ++ expressionsOfList copy.1 ∧
      (∀ e ∈ expressionsOfList copy.1, copy.2.get? e.id = some e) := by
  intro copy
  have run := rekeying.nodes_run nodes (registry, [])
  have visited : (rekeying.run (registry, []) (expressionsOfList nodes)).2 =
      (rekeying.nodes (registry, []) nodes).2 := congrArg Prod.snd run.symm
  have listed : (rekeying.run (registry, []) (expressionsOfList nodes)).1 =
      expressionsOfList copy.1 := congrArg Prod.fst run.symm
  obtain ⟨next, entries⟩ := rekeying_run_appends (registry, []) (expressionsOfList nodes)
  rw [listed, ← idsOfList_eq, ← idsOfList_eq] at next
  rw [listed, visited] at entries
  -- the new name of an id is what the copy has noted for it in the end
  let noted := (rekeying.nodes (registry, []) nodes).2.2
  let fresh (id : String) : String := (noted.lookup id).getD id
  have found : (idsOfList nodes).map (fun id => noted.lookup id) =
      (idsOfList copy.1).map some := by
    have own := lookup_rekeying_run_self (idsOfList_eq nodes ▸ distinct) (registry, [])
    rwa [listed, visited, ← idsOfList_eq, ← idsOfList_eq] at own
  have named : ∀ id ∈ idsOfList nodes, noted.lookup id = some (fresh id) := by
    intro id member
    have there := found ▸ List.mem_map_of_mem (f := fun id => noted.lookup id) member
    obtain ⟨new, -, same⟩ := List.mem_map.mp there
    simp only [fresh, ← same, Option.getD_some]
  have ids : idsOfList copy.1 = (idsOfList nodes).map fresh := by
    apply List.map_injective_iff.mpr (Option.some_injective String)
    rw [← found, List.map_map]
    exact List.map_congr_left named
  have around : ∀ loop ∈ loops, (([] : Renaming).lookup loop).getD loop = fresh loop := by
    intro loop member
    simp only [fresh, noted, lookup_rekeying (apart member) (registry, [])]
  have reachable' : copy.2.Reachable := (rekey_pass reachable nodes).keeps.reachable
  refine ⟨fresh, ?_, fun id member => ⟨?_, ?_⟩, fun id absent => ?_, ?_, ids, entries,
    fun e member => reachable'.get?_of_mem (entries ▸ List.mem_append_right _ member)⟩
  · have apart' := nextIds_nodup registry.next (idsOfList nodes)
    rw [← next, ids] at apart'
    exact List.inj_on_of_nodup_map apart'
  · have kinds := map_kindOf_nextIds registry.next (idsOfList nodes)
    rw [← next, ids, List.map_map] at kinds
    exact List.map_inj_left.mp kinds id member
  · have new : fresh id ∈ nextIds registry.next (idsOfList nodes) :=
      next ▸ ids ▸ List.mem_map_of_mem member
    obtain ⟨kind, ahead, same⟩ := mem_nextIds new
    rw [same]
    exact registry.not_issued_ahead kind ahead
  · simp only [fresh, noted, lookup_rekeying absent (registry, []), List.lookup_nil,
      Option.getD_none]
  · exact rekeying_nodes_renamed nodes (registry, []) ⟨distinct, apart, around, named⟩ enclosed

/-- Rows with a class and a name, inside a loop of another template. -/
def nestedRows : List Node :=
  let within (loop : String) : Option Scope := some ⟨["group", "row"], some loop⟩
  [.loop "loop_0" "group.rows" ⟨"row", none, ["row"]⟩
    [.element "li"
      [⟨"class", .dynamic ⟨"expr_1", "row.kind", {}, within "loop_0"⟩, ⟨{}, within "loop_0"⟩⟩]
      [.expression ⟨"expr_2", "row.name", {}, within "loop_0"⟩, .text "." ⟨{}, within "loop_9"⟩]
      ⟨{}, within "loop_0"⟩]
    ⟨{}, some ⟨["group"], some "loop_9"⟩⟩]

/-- The rows get the next three ids, though the numbers before are not all in use any more; what is
said of the loop around them stays. -/
theorem rekey_renames_nestedRows :
    let registry := ((({} : Registry).register "loop" "groups" {} none).2.register "cond" "a" {}
      none).2.remove "loop_0"
    let copy := rekey registry nestedRows
    registry.Reachable ∧ (idsOfList nestedRows).Nodup ∧
      ["loop_9"].Disjoint (idsOfList nestedRows) ∧ EnclosedAll ["loop_9"] nestedRows ∧
      idsOfList copy.1 = ["loop_2", "expr_3", "expr_4"] ∧
      ∃ fresh : String → String,
        Set.InjOn fresh {id | id ∈ idsOfList nestedRows} ∧ fresh "loop_0" = "loop_2" ∧
        fresh "loop_9" = "loop_9" ∧ ¬ registry.Issued "loop_2" ∧
        Renamed (Follows fresh) nestedRows copy.1 ∧
        copy.2.expressions = registry.expressions ++ expressionsOfList copy.1 := by
  intro registry copy
  have reachable : registry.Reachable := .remove _ (.register _ _ _ _ (.register _ _ _ _ .empty))
  have distinct : (idsOfList nestedRows).Nodup := by decide +kernel
  have listed : idsOfList nestedRows = ["loop_0", "expr_1", "expr_2"] := by decide +kernel
  have apart : ["loop_9"].Disjoint (idsOfList nestedRows) := by simp [listed]
  have enclosed : EnclosedAll ["loop_9"] nestedRows := by
    simp [nestedRows, Enclosed, Attribute.Enclosed, AttributeValue.expressions, Scope.Inside]
  have evaluates : idsOfList copy.1 = ["loop_2", "expr_3", "expr_4"] := by decide +kernel
  obtain ⟨fresh, injective, new, outside, renamed, ids, entries, -⟩ :=
    rekey_renames reachable distinct apart enclosed
  have loop : fresh "loop_0" = "loop_2" := by
    have heads := ids.symm.trans evaluates
    rw [listed, List.map_cons, List.cons.injEq] at heads
    exact heads.1
  refine ⟨reachable, distinct, apart, enclosed, evaluates, fresh, injective, loop,
    outside "loop_9" (by decide +kernel), ?_, renamed, entries⟩
  exact loop ▸ (new "loop_0" (listed ▸ List.mem_cons_self)).2

end Node
end ReactiveTemplate
