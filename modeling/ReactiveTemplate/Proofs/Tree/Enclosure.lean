import ReactiveTemplate.Proofs.Tree.Expressions

/-!
# Loops around a tree

A scope may name the loop that its site is repeated for.  A tree is enclosed by some loops when every
loop that is named in it is one of these or stands around the site inside the tree.  Passes that keep
ids keep this as long as they bring in no other loop.  Giving a tree fresh ids keeps it if the loops
around the tree are no part of it: then the names inside follow the loops they refer to, and all
others stay.
-/

namespace ReactiveTemplate

namespace Scope

/-- The loop that a scope names, if it names one, is among the given ones. -/
def Inside (loops : List String) (scope : Option Scope) : Prop :=
  ∀ id, scope.bind Scope.loop = some id → id ∈ loops

variable {loops loops' : List String} {scope own outer : Option Scope}

@[simp]
theorem inside_none (loops : List String) : Inside loops none := fun _ named => by cases named

theorem Inside.mono (inside : Inside loops scope) (part : loops ⊆ loops') : Inside loops' scope :=
  fun id named => part (inside id named)

theorem Inside.merge (left : Inside loops own) (right : Inside loops outer) :
    Inside loops (Scope.merge own outer) := by
  cases own with
  | none => exact right
  | some own =>
      cases outer with
      | none => exact left
      | some outer =>
          intro id named
          simp only [Scope.merge, widen, Option.bind_some, Option.or_eq_some_iff] at named
          rcases named with own_loop | ⟨-, outer_loop⟩
          · exact left id own_loop
          · exact right id outer_loop

/-- Inside a loop, the loop itself may be named. -/
theorem inside_insideLoop (outer : Option Scope) (id : String) (added loops : List String) :
    Inside (id :: loops) (some (insideLoop outer id added)) := by
  intro named same
  simp only [insideLoop, Option.bind_some, Option.some_inj] at same
  exact same ▸ List.mem_cons_self

end Scope

/-- The loops that an attribute and its value name are among the given ones. -/
def Attribute.Enclosed (loops : List String) (attr : Attribute) : Prop :=
  Scope.Inside loops attr.site.scope ∧ ∀ e ∈ attr.value.expressions, Scope.Inside loops e.scope

namespace Node

mutual

/-- Every loop that is named in a node, its attributes and everything below it is one of the given
ones or encloses the place where it is named. -/
def Enclosed (loops : List String) : Node → Prop
  | element _ attributes children site | component _ attributes children site =>
    Scope.Inside loops site.scope ∧ (∀ attr ∈ attributes, attr.Enclosed loops) ∧
      EnclosedAll loops children
  | text _ site => Scope.Inside loops site.scope
  | expression e => Scope.Inside loops e.scope
  | conditional _ _ consequent alternate site =>
    Scope.Inside loops site.scope ∧ EnclosedAll loops consequent ∧ EnclosedAll loops alternate
  | optional _ _ branch site => Scope.Inside loops site.scope ∧ EnclosedAll loops branch
  | loop id _ _ body site => Scope.Inside loops site.scope ∧ EnclosedAll (id :: loops) body
  | doctype .. => True

/-- All nodes of a list are enclosed by the given loops. -/
def EnclosedAll (loops : List String) : List Node → Prop
  | [] => True
  | node :: rest => Enclosed loops node ∧ EnclosedAll loops rest

end

variable {loops loops' : List String}

@[simp]
theorem enclosedAll_nil (loops : List String) : EnclosedAll loops [] := by
  rw [EnclosedAll]
  trivial

@[simp]
theorem enclosedAll_cons {node : Node} {rest : List Node} :
    EnclosedAll loops (node :: rest) ↔ node.Enclosed loops ∧ EnclosedAll loops rest := by
  rw [EnclosedAll]

@[simp]
theorem enclosedAll_append {left right : List Node} :
    EnclosedAll loops (left ++ right) ↔ EnclosedAll loops left ∧ EnclosedAll loops right := by
  induction left with
  | nil => simp
  | cons node rest induction => simp [induction, and_assoc]

theorem enclosedAll_iff {nodes : List Node} :
    EnclosedAll loops nodes ↔ ∀ node ∈ nodes, node.Enclosed loops := by
  induction nodes with
  | nil => simp
  | cons node rest induction => rw [enclosedAll_cons, List.forall_mem_cons, induction]

end Node

theorem Attribute.Enclosed.mono {loops loops' : List String} {attr : Attribute}
    (enclosed : attr.Enclosed loops) (part : loops ⊆ loops') : attr.Enclosed loops' :=
  ⟨enclosed.1.mono part, fun e member => (enclosed.2 e member).mono part⟩

namespace Node

mutual

theorem Enclosed.mono {loops loops' : List String} (part : loops ⊆ loops') :
    ∀ node : Node, node.Enclosed loops → node.Enclosed loops'
  | element _ _ children _, enclosed | component _ _ children _, enclosed => by
      rw [Enclosed] at enclosed ⊢
      obtain ⟨own, attributes, below⟩ := enclosed
      exact ⟨own.mono part, fun attr member => (attributes attr member).mono part,
        EnclosedAll.mono part children below⟩
  | text .., enclosed | expression _, enclosed => by
      rw [Enclosed] at enclosed ⊢
      exact enclosed.mono part
  | conditional _ _ consequent alternate _, enclosed => by
      rw [Enclosed] at enclosed ⊢
      obtain ⟨own, first, second⟩ := enclosed
      exact ⟨own.mono part, EnclosedAll.mono part consequent first,
        EnclosedAll.mono part alternate second⟩
  | optional _ _ branch _, enclosed => by
      rw [Enclosed] at enclosed ⊢
      exact ⟨enclosed.1.mono part, EnclosedAll.mono part branch enclosed.2⟩
  | loop id _ _ body _, enclosed => by
      rw [Enclosed] at enclosed ⊢
      exact ⟨enclosed.1.mono part,
        EnclosedAll.mono (List.cons_subset_cons id part) body enclosed.2⟩
  | doctype .., _ => by
      rw [Enclosed]
      trivial

theorem EnclosedAll.mono {loops loops' : List String} (part : loops ⊆ loops') :
    ∀ nodes : List Node, EnclosedAll loops nodes → EnclosedAll loops' nodes
  | [], _ => enclosedAll_nil loops'
  | node :: rest, enclosed => by
      rw [EnclosedAll] at enclosed ⊢
      exact ⟨Enclosed.mono part node enclosed.1, EnclosedAll.mono part rest enclosed.2⟩

end

end Node

/-! ## Loops of any tree -/

theorem Scope.exists_inside (scope : Option Scope) : ∃ loops, Scope.Inside loops scope :=
  ⟨(scope.bind Scope.loop).toList, fun id named => by simp [named]⟩

theorem Attribute.exists_enclosed (attributes : List Attribute) :
    ∃ loops, ∀ attr ∈ attributes, attr.Enclosed loops := by
  induction attributes with
  | nil => exact ⟨[], fun attr member => by cases member⟩
  | cons attr rest induction =>
      obtain ⟨name, value, site⟩ := attr
      obtain ⟨around, placed⟩ := Scope.exists_inside site.scope
      obtain ⟨behind, others⟩ := induction
      cases value with
      | fixed text =>
          refine ⟨around ++ behind, List.forall_mem_cons.mpr ⟨⟨?_, ?_⟩, ?_⟩⟩
          · exact placed.mono (List.subset_append_left _ _)
          · simp [AttributeValue.expressions]
          · exact fun attr member => (others attr member).mono (List.subset_append_right _ _)
      | dynamic e =>
          obtain ⟨own, valued⟩ := Scope.exists_inside e.scope
          refine ⟨around ++ (own ++ behind), List.forall_mem_cons.mpr ⟨⟨?_, ?_⟩, ?_⟩⟩
          · exact placed.mono (List.subset_append_left _ _)
          · rw [AttributeValue.expressions, List.forall_mem_singleton]
            exact valued.mono (List.subset_append_of_subset_right _ (List.subset_append_left _ _))
          · exact fun attr member => (others attr member).mono
              (List.subset_append_of_subset_right _ (List.subset_append_right _ _))

namespace Node

mutual

theorem exists_enclosed : ∀ node : Node, ∃ loops, node.Enclosed loops
  | element _ attributes children site | component _ attributes children site => by
      obtain ⟨around, placed⟩ := Scope.exists_inside site.scope
      obtain ⟨own, header⟩ := Attribute.exists_enclosed attributes
      obtain ⟨inner, below⟩ := exists_enclosedAll children
      refine ⟨around ++ (own ++ inner), ?_⟩
      rw [Enclosed]
      exact ⟨placed.mono (List.subset_append_left _ _),
        fun attr member => (header attr member).mono
          (List.subset_append_of_subset_right _ (List.subset_append_left _ _)),
        EnclosedAll.mono (List.subset_append_of_subset_right _ (List.subset_append_right _ _)) _
          below⟩
  | text _ site => by
      simp only [Enclosed]
      exact Scope.exists_inside site.scope
  | expression e => by
      simp only [Enclosed]
      exact Scope.exists_inside e.scope
  | conditional _ _ consequent alternate site => by
      obtain ⟨around, placed⟩ := Scope.exists_inside site.scope
      obtain ⟨one, first⟩ := exists_enclosedAll consequent
      obtain ⟨two, second⟩ := exists_enclosedAll alternate
      refine ⟨around ++ (one ++ two), ?_⟩
      rw [Enclosed]
      exact ⟨placed.mono (List.subset_append_left _ _),
        EnclosedAll.mono (List.subset_append_of_subset_right _ (List.subset_append_left _ _)) _
          first,
        EnclosedAll.mono (List.subset_append_of_subset_right _ (List.subset_append_right _ _)) _
          second⟩
  | optional _ _ branch site => by
      obtain ⟨around, placed⟩ := Scope.exists_inside site.scope
      obtain ⟨inner, below⟩ := exists_enclosedAll branch
      refine ⟨around ++ inner, ?_⟩
      rw [Enclosed]
      exact ⟨placed.mono (List.subset_append_left _ _),
        EnclosedAll.mono (List.subset_append_right _ _) _ below⟩
  | loop id _ _ body site => by
      obtain ⟨around, placed⟩ := Scope.exists_inside site.scope
      obtain ⟨inner, below⟩ := exists_enclosedAll body
      refine ⟨around ++ inner, ?_⟩
      rw [Enclosed]
      exact ⟨placed.mono (List.subset_append_left _ _),
        EnclosedAll.mono (List.subset_cons_of_subset id (List.subset_append_right _ _)) _ below⟩
  | doctype .. => by
      refine ⟨[], ?_⟩
      rw [Enclosed]
      trivial

/-- Any nodes are enclosed by the loops that are named in them. -/
theorem exists_enclosedAll : ∀ nodes : List Node, ∃ loops, EnclosedAll loops nodes
  | [] => ⟨[], enclosedAll_nil _⟩
  | node :: rest => by
      obtain ⟨first, own⟩ := exists_enclosed node
      obtain ⟨later, others⟩ := exists_enclosedAll rest
      refine ⟨first ++ later, ?_⟩
      rw [enclosedAll_cons]
      exact ⟨Enclosed.mono (List.subset_append_left _ _) _ own,
        EnclosedAll.mono (List.subset_append_right _ _) _ others⟩

end

end Node

/-! ## Traversals that keep ids -/

namespace Traversal

variable {σ : Type} {t : Traversal σ} {added loops : List String}

/-- The traversal keeps every id, and brings in no loop but the added ones. -/
structure Confines (t : Traversal σ) (added : List String) : Prop where
  /-- Ids stay. -/
  id : ∀ state e, (t.expression state e).1.id = e.id
  /-- At a site that has no id. -/
  site : ∀ loops state s, added ⊆ loops → Scope.Inside loops s.scope →
    Scope.Inside loops (t.site state s).scope
  /-- At a site that has an id. -/
  expression : ∀ loops state e, added ⊆ loops → Scope.Inside loops e.scope →
    Scope.Inside loops (t.expression state e).1.scope

theorem Confines.attrs (confines : t.Confines added) (part : added ⊆ loops)
    (attributes : List Attribute) (state : σ)
    (enclosed : ∀ attr ∈ attributes, attr.Enclosed loops) :
    ∀ attr ∈ (t.attrs state attributes).1, attr.Enclosed loops := by
  induction attributes generalizing state with
  | nil => exact enclosed
  | cons attr rest induction =>
      obtain ⟨name, value, site⟩ := attr
      rw [List.forall_mem_cons] at enclosed
      obtain ⟨⟨own, values⟩, behind⟩ := enclosed
      have placed := confines.site loops state site part own
      cases value with
      | fixed text =>
          rw [Traversal.attrs, List.forall_mem_cons]
          exact ⟨⟨placed, values⟩, induction state behind⟩
      | dynamic e =>
          rw [Traversal.attrs, List.forall_mem_cons]
          refine ⟨⟨placed, ?_⟩, induction _ behind⟩
          rw [AttributeValue.expressions, List.forall_mem_singleton] at values
          simpa [Traversal.attr, AttributeValue.expressions] using
            confines.expression loops state e part values

mutual

theorem Confines.node (confines : t.Confines added) :
    ∀ (node : Node) (state : σ) {loops : List String}, added ⊆ loops → node.Enclosed loops →
      (t.node state node).1.Enclosed loops
  | .element _ attributes children _, state, loops, part, enclosed
  | .component _ attributes children _, state, loops, part, enclosed => by
      rw [Node.Enclosed] at enclosed
      rw [Traversal.node, Node.Enclosed]
      exact ⟨confines.site loops state _ part enclosed.1,
        confines.attrs part attributes state enclosed.2.1,
        Confines.nodes confines children _ part enclosed.2.2⟩
  | .text .., state, loops, part, enclosed => by
      rw [Node.Enclosed] at enclosed
      rw [Traversal.node, Node.Enclosed]
      exact confines.site loops state _ part enclosed
  | .expression e, state, loops, part, enclosed => by
      rw [Node.Enclosed] at enclosed
      rw [Traversal.node, Node.Enclosed]
      exact confines.expression loops state e part enclosed
  | .conditional id condition consequent alternate site, state, loops, part, enclosed => by
      rw [Node.Enclosed] at enclosed
      rw [Traversal.node, Node.Enclosed]
      exact ⟨confines.expression loops state ⟨id, condition, site.location, site.scope⟩ part
          enclosed.1,
        Confines.nodes confines consequent _ part enclosed.2.1,
        Confines.nodes confines alternate _ part enclosed.2.2⟩
  | .optional id condition branch site, state, loops, part, enclosed => by
      rw [Node.Enclosed] at enclosed
      rw [Traversal.node, Node.Enclosed]
      exact ⟨confines.expression loops state ⟨id, condition, site.location, site.scope⟩ part
        enclosed.1, Confines.nodes confines branch _ part enclosed.2⟩
  | .loop id source binder body site, state, loops, part, enclosed => by
      rw [Node.Enclosed] at enclosed
      rw [Traversal.node, Node.Enclosed]
      refine ⟨confines.expression loops state ⟨id, source, site.location, site.scope⟩ part
        enclosed.1, ?_⟩
      rw [confines.id]
      exact Confines.nodes confines body _ (List.subset_cons_of_subset id part) enclosed.2
  | .doctype .., _, _, _, _ => by
      rw [Traversal.node, Node.Enclosed]
      trivial

theorem Confines.nodes (confines : t.Confines added) :
    ∀ (nodes : List Node) (state : σ) {loops : List String}, added ⊆ loops →
      Node.EnclosedAll loops nodes → Node.EnclosedAll loops (t.nodes state nodes).1
  | [], _, _, _, _ => Node.enclosedAll_nil _
  | first :: rest, state, loops, part, enclosed => by
      rw [Node.EnclosedAll] at enclosed
      rw [Traversal.nodes, Node.EnclosedAll]
      exact ⟨Confines.node confines first state part enclosed.1,
        Confines.nodes confines rest _ part enclosed.2⟩

end

end Traversal

namespace Node

variable {loops loops' : List String} {nodes : List Node}

theorem relocate_enclosed (location : Location) (registry : Registry)
    (enclosed : EnclosedAll loops nodes) :
    EnclosedAll loops (relocate location registry nodes).1 := by
  have confines : (relocating location).Confines [] :=
    { id := fun _ _ => rfl
      site := fun _ _ _ _ inside => inside
      expression := fun _ _ _ _ inside => inside }
  exact confines.nodes nodes registry (List.nil_subset _) enclosed

/-- Rebound nodes may also name the loop of the scope they are rebound to. -/
theorem rebind_enclosed (scope : Option Scope) (registry : Registry)
    (inside : Scope.Inside loops scope) (enclosed : EnclosedAll loops nodes) :
    EnclosedAll loops (rebind scope registry nodes).1 := by
  rw [rebind]
  split
  · exact enclosed
  · have own : (scope.bind Scope.loop).toList ⊆ loops := by
      intro id member
      exact inside id (by simpa using member)
    have within {loops : List String} (part : (scope.bind Scope.loop).toList ⊆ loops) :
        Scope.Inside loops scope := fun id named => part (by simp [named])
    have confines : (rebinding scope).Confines (scope.bind Scope.loop).toList :=
      { id := fun _ _ => rfl
        site := fun _ _ _ part inside => inside.merge (within part)
        expression := fun _ _ _ part inside => inside.merge (within part) }
    exact confines.nodes nodes registry own enclosed

/-! ## Fresh ids -/

/-- The loops around a site have new names among the given ones. -/
def Renames (renamed : Renaming) (loops loops' : List String) : Prop :=
  ∀ id ∈ loops, (renamed.lookup id).getD id ∈ loops'

theorem Renames.inside {renamed : Renaming} {scope : Option Scope}
    (renames : Renames renamed loops loops') (inside : Scope.Inside loops scope) :
    Scope.Inside loops' (renameScope renamed scope) := by
  cases scope with
  | none => exact Scope.inside_none loops'
  | some scope =>
      intro id named
      cases own : scope.loop with
      | none => simp [renameScope, own] at named
      | some loop =>
          have renamed_loop := renames loop (inside loop own)
          cases found : renamed.lookup loop with
          | none =>
              rw [found] at renamed_loop
              simp only [renameScope, own, found, Option.map_some, Option.bind_some,
                Option.some_inj] at named
              exact named ▸ renamed_loop
          | some new =>
              rw [found] at renamed_loop
              simp only [renameScope, own, found, Option.map_some, Option.bind_some,
                Option.some_inj] at named
              exact named ▸ renamed_loop

/-- The new name of a loop goes with the loop. -/
theorem Renames.loop {renamed : Renaming} (renames : Renames renamed loops loops')
    (id new : String) : Renames ((id, new) :: renamed) (id :: loops) (new :: loops') := by
  intro loop member
  rw [List.lookup_cons]
  by_cases same : loop = id
  · simp [same]
  · rw [beq_false_of_ne same]
    exact List.mem_cons_of_mem new (renames loop ((List.mem_cons.mp member).resolve_left same))

/-- New names of other ids do not matter. -/
theorem Renames.congr {renamed renamed' : Renaming} (renames : Renames renamed loops loops')
    (same : ∀ id ∈ loops, renamed'.lookup id = renamed.lookup id) :
    Renames renamed' loops loops' := by
  intro id member
  rw [same id member]
  exact renames id member

/-- The new name of an expression that is no loop around does not matter. -/
theorem Renames.expression {state : Registry × Renaming} (renames : Renames state.2 loops loops')
    (e : Expression) (absent : e.id ∉ loops) :
    Renames (rekeying.expression state e).2.2 loops loops' := by
  refine renames.congr fun loop member => ?_
  have differs : (loop == e.id) = false := beq_false_of_ne fun same => absent (same ▸ member)
  simp [rekeying, List.lookup_cons, differs]

/-- Only the ids that are visited get new names. -/
theorem lookup_rekeying_run {id : String} {es : List Expression}
    (absent : id ∉ es.map Expression.id) (state : Registry × Renaming) :
    (rekeying.run state es).2.2.lookup id = state.2.lookup id := by
  induction es generalizing state with
  | nil => rfl
  | cons e rest induction =>
      rw [List.map_cons, List.mem_cons, not_or] at absent
      rw [Traversal.run]
      refine (induction absent.2 _).trans ?_
      have differs : (id == e.id) = false := by simpa using absent.1
      simp [rekeying, List.lookup_cons, differs]

theorem lookup_rekeying {id : String} {nodes : List Node} (absent : id ∉ idsOfList nodes)
    (state : Registry × Renaming) :
    (rekeying.nodes state nodes).2.2.lookup id = state.2.lookup id := by
  have run := congrArg Prod.snd (rekeying.nodes_run nodes state)
  rw [idsOfList_eq] at absent
  rw [run]
  exact lookup_rekeying_run absent state

theorem lookup_rekeying_node {id : String} {node : Node} (absent : id ∉ node.ids)
    (state : Registry × Renaming) :
    (rekeying.node state node).2.2.lookup id = state.2.lookup id := by
  have run := congrArg Prod.snd (rekeying.node_run node state)
  rw [ids_eq] at absent
  rw [run]
  exact lookup_rekeying_run absent state

theorem lookup_rekeying_attrs {id : String} {attributes : List Attribute}
    (absent : id ∉ Attribute.ids attributes) (state : Registry × Renaming) :
    (rekeying.attrs state attributes).2.2.lookup id = state.2.lookup id := by
  have run := congrArg Prod.snd (rekeying.attrs_run state attributes)
  rw [Attribute.ids_eq] at absent
  rw [run]
  exact lookup_rekeying_run absent state

private theorem rekeying_attrs_enclosed {attributes : List Attribute}
    (apart : loops.Disjoint (Attribute.ids attributes)) {state : Registry × Renaming}
    (renames : Renames state.2 loops loops')
    (enclosed : ∀ attr ∈ attributes, attr.Enclosed loops) :
    ∀ attr ∈ (rekeying.attrs state attributes).1, attr.Enclosed loops' := by
  induction attributes generalizing state with
  | nil => exact fun attr member => by cases member
  | cons attr rest induction =>
      obtain ⟨name, value, site⟩ := attr
      rw [List.forall_mem_cons] at enclosed
      obtain ⟨⟨own, values⟩, behind⟩ := enclosed
      rw [Traversal.attrs, List.forall_mem_cons]
      cases value with
      | fixed text =>
          refine ⟨⟨renames.inside own, by simp [Traversal.attr, AttributeValue.expressions]⟩, ?_⟩
          exact induction apart renames behind
      | dynamic e =>
          rw [Attribute.ids_eq, Attribute.expressions_cons, AttributeValue.expressions,
            List.singleton_append, List.map_cons, List.disjoint_cons_right,
            ← Attribute.ids_eq] at apart
          rw [AttributeValue.expressions, List.forall_mem_singleton] at values
          refine ⟨⟨renames.inside own, ?_⟩,
            induction apart.2 (renames.expression e apart.1) behind⟩
          intro e' member
          obtain rfl := List.mem_singleton.mp member
          exact renames.inside values

/-- The list of ids splits into distinct parts that are all apart from the loops around. -/
private theorem apart_append {left right : List String}
    (apart : loops.Disjoint (left ++ right)) (distinct : (left ++ right).Nodup) :
    (loops.Disjoint left ∧ left.Nodup) ∧ loops.Disjoint right ∧ right.Nodup := by
  rw [List.disjoint_append_right] at apart
  rw [List.nodup_append] at distinct
  exact ⟨⟨apart.1, distinct.1⟩, apart.2, distinct.2.1⟩

mutual

private theorem rekeying_node_enclosed :
    ∀ (node : Node) (state : Registry × Renaming) {loops loops' : List String},
      loops.Disjoint node.ids → node.ids.Nodup → Renames state.2 loops loops' →
      node.Enclosed loops → (rekeying.node state node).1.Enclosed loops'
  | element _ attributes children _, state, loops, loops', apart, distinct, renames, enclosed
  | component _ attributes children _, state, loops, loops', apart, distinct, renames, enclosed => by
      rw [Enclosed] at enclosed
      rw [ids] at apart distinct
      obtain ⟨⟨apart, -⟩, below⟩ := apart_append apart distinct
      rw [Traversal.node, Enclosed]
      refine ⟨renames.inside enclosed.1, rekeying_attrs_enclosed apart renames enclosed.2.1, ?_⟩
      refine rekeying_nodes_enclosed children _ below.1 below.2 (renames.congr ?_) enclosed.2.2
      exact fun id member => lookup_rekeying_attrs (fun listed => apart member listed) state
  | text .., state, loops, loops', _, _, renames, enclosed
  | expression _, state, loops, loops', _, _, renames, enclosed => by
      rw [Enclosed] at enclosed
      rw [Traversal.node, Enclosed]
      exact renames.inside enclosed
  | conditional id condition consequent alternate site, state, loops, loops', apart, distinct,
    renames, enclosed => by
      rw [Enclosed] at enclosed
      rw [ids, List.disjoint_cons_right] at apart
      rw [ids, List.nodup_cons] at distinct
      obtain ⟨⟨first, unique⟩, ⟨second, unique'⟩⟩ := apart_append apart.2 distinct.2
      rw [Traversal.node, Enclosed]
      have renames' :=
        renames.expression ⟨id, condition, site.location, site.scope⟩ apart.1
      refine ⟨renames.inside enclosed.1,
        rekeying_nodes_enclosed consequent _ first unique renames' enclosed.2.1, ?_⟩
      refine rekeying_nodes_enclosed alternate _ second unique' (renames'.congr ?_) enclosed.2.2
      exact fun id member => lookup_rekeying (fun listed => first member listed) _
  | optional id condition branch site, state, loops, loops', apart, distinct, renames,
    enclosed => by
      rw [Enclosed] at enclosed
      rw [ids, List.disjoint_cons_right] at apart
      rw [ids, List.nodup_cons] at distinct
      rw [Traversal.node, Enclosed]
      exact ⟨renames.inside enclosed.1, rekeying_nodes_enclosed branch _ apart.2 distinct.2
        (renames.expression ⟨id, condition, site.location, site.scope⟩ apart.1) enclosed.2⟩
  | loop id source binder body site, state, loops, loops', apart, distinct, renames, enclosed => by
      rw [Enclosed] at enclosed
      rw [ids, List.disjoint_cons_right] at apart
      rw [ids, List.nodup_cons] at distinct
      rw [Traversal.node, Enclosed]
      -- the body is enclosed by the loop as well, which is not one of the nodes in it
      refine ⟨renames.inside enclosed.1, rekeying_nodes_enclosed body _ ?_ distinct.2
        (renames.loop id _) enclosed.2⟩
      exact List.disjoint_cons_left.mpr ⟨distinct.1, apart.2⟩
  | doctype .., _, _, _, _, _, _, _ => by
      rw [Traversal.node, Enclosed]
      trivial

private theorem rekeying_nodes_enclosed :
    ∀ (nodes : List Node) (state : Registry × Renaming) {loops loops' : List String},
      loops.Disjoint (idsOfList nodes) → (idsOfList nodes).Nodup → Renames state.2 loops loops' →
      EnclosedAll loops nodes → EnclosedAll loops' (rekeying.nodes state nodes).1
  | [], _, _, _, _, _, _, _ => enclosedAll_nil _
  | first :: rest, state, loops, loops', apart, distinct, renames, enclosed => by
      rw [EnclosedAll] at enclosed
      rw [idsOfList] at apart distinct
      obtain ⟨⟨head, unique⟩, ⟨tail, unique'⟩⟩ := apart_append apart distinct
      rw [Traversal.nodes, EnclosedAll]
      refine ⟨rekeying_node_enclosed first state head unique renames enclosed.1,
        rekeying_nodes_enclosed rest _ tail unique' (renames.congr ?_) enclosed.2⟩
      intro id member
      exact lookup_rekeying_node (fun listed => head member listed) state

end

/-- A copy with fresh ids is enclosed by the loops around the original, if these are no part of
it. -/
theorem rekey_enclosed (registry : Registry) (apart : loops.Disjoint (idsOfList nodes))
    (distinct : (idsOfList nodes).Nodup) (enclosed : EnclosedAll loops nodes) :
    EnclosedAll loops (rekey registry nodes).1 := by
  have unchanged : Renames [] loops loops := fun id member => by simpa using member
  exact rekeying_nodes_enclosed nodes (registry, []) apart distinct unchanged enclosed

end Node
end ReactiveTemplate
