import ReactiveTemplate.Proofs.Tree.Pass
import ReactiveTemplate.Proofs.Tree.Scope
import ReactiveTemplate.Tree.Traversal

/-!
# The expressions of a tree

A tree is seen as the list of its expressions in document order, where the head of a fragment is the
expression of its condition or of the list it repeats for.  A traversal does to this list what it
does at the sites of the tree, one after the other, so that a traversal of a tree is a pass as soon
as its step at a single site is one.
-/

namespace ReactiveTemplate

/-- The expression of a value, if it has one. -/
def AttributeValue.expressions : AttributeValue → List Expression
  | .fixed _ => []
  | .dynamic e => [e]

namespace Attribute

/-- The expressions of a list of attributes, in order. -/
def expressions (attributes : List Attribute) : List Expression :=
  attributes.flatMap fun attr => attr.value.expressions

@[simp]
theorem expressions_nil : expressions [] = [] := rfl

@[simp]
theorem expressions_cons (attr : Attribute) (rest : List Attribute) :
    expressions (attr :: rest) = attr.value.expressions ++ expressions rest := rfl

@[simp]
theorem expressions_append (left right : List Attribute) :
    expressions (left ++ right) = expressions left ++ expressions right :=
  List.flatMap_append

theorem ids_eq (attributes : List Attribute) :
    ids attributes = (expressions attributes).map Expression.id := by
  induction attributes with
  | nil => rfl
  | cons attr rest induction =>
      rw [ids] at induction
      rw [ids, List.filterMap_cons, expressions_cons, List.map_append, ← induction, id?]
      cases attr.value <;> rfl

end Attribute

namespace Node

mutual

/-- The expressions of a node and of everything below it, in the order of its ids. -/
def expressions : Node → List Expression
  | element _ attributes children _ | component _ attributes children _ =>
    Attribute.expressions attributes ++ expressionsOfList children
  | text .. | doctype .. => []
  | expression e => [e]
  | conditional id condition consequent alternate site =>
    ⟨id, condition, site.location, site.scope⟩ ::
      (expressionsOfList consequent ++ expressionsOfList alternate)
  | optional id condition branch site =>
    ⟨id, condition, site.location, site.scope⟩ :: expressionsOfList branch
  | loop id source _ body site =>
    ⟨id, source, site.location, site.scope⟩ :: expressionsOfList body

/-- The expressions of a list of nodes, in order. -/
def expressionsOfList : List Node → List Expression
  | [] => []
  | node :: rest => expressions node ++ expressionsOfList rest

end

@[simp]
theorem expressionsOfList_append (left right : List Node) :
    expressionsOfList (left ++ right) = expressionsOfList left ++ expressionsOfList right := by
  induction left with
  | nil => rfl
  | cons node rest induction =>
      simp only [List.cons_append, expressionsOfList, induction, List.append_assoc]

theorem expressionsOfList_perm {left right : List Node} (same : left.Perm right) :
    (expressionsOfList left).Perm (expressionsOfList right) := by
  have flat (nodes : List Node) : expressionsOfList nodes = nodes.flatMap expressions := by
    induction nodes with
    | nil => rfl
    | cons node rest induction => rw [expressionsOfList, List.flatMap_cons, induction]
  rw [flat left, flat right]
  exact List.Perm.flatMap_right _ same

theorem expressionsOfList_singleton (node : Node) : expressionsOfList [node] = expressions node :=
  List.append_nil _

mutual

theorem ids_eq : ∀ node : Node, node.ids = node.expressions.map Expression.id
  | element _ attributes children _ | component _ attributes children _ => by
      rw [ids, expressions, List.map_append, Attribute.ids_eq, idsOfList_eq children]
  | text .. | doctype .. => rfl
  | expression _ => rfl
  | conditional _ _ consequent alternate _ => by
      rw [ids, expressions, List.map_cons, List.map_append, idsOfList_eq consequent,
        idsOfList_eq alternate]
  | optional _ _ branch _ => by rw [ids, expressions, List.map_cons, idsOfList_eq branch]
  | loop _ _ _ body _ => by rw [ids, expressions, List.map_cons, idsOfList_eq body]

theorem idsOfList_eq :
    ∀ nodes : List Node, idsOfList nodes = (expressionsOfList nodes).map Expression.id
  | [] => rfl
  | node :: rest => by
      rw [idsOfList, expressionsOfList, List.map_append, ids_eq node, idsOfList_eq rest]

end

end Node

namespace Scope

theorem merge_grown (own outer : Option Scope) : Scope.Grown own (merge own outer) := by
  refine ⟨fun name member => mem_names_merge.mpr (.inl member), ?_⟩
  intro loop same
  cases own with
  | none => cases same
  | some own =>
      cases outer with
      | none => exact same
      | some outer =>
          simp only [Option.bind_some] at same
          simp [merge, widen, same]

end Scope

/-! ## Traversals of expressions -/

namespace Traversal

variable {σ : Type}

/-- Visit expressions in order. -/
def run (t : Traversal σ) (state : σ) : List Expression → List Expression × σ
  | [] => ([], state)
  | e :: rest =>
    let (e, state) := t.expression state e
    let (rest, state) := t.run state rest
    (e :: rest, state)

theorem run_append (t : Traversal σ) (state : σ) (left right : List Expression) :
    t.run state (left ++ right) =
      ((t.run state left).1 ++ (t.run (t.run state left).2 right).1,
        (t.run (t.run state left).2 right).2) := by
  induction left generalizing state with
  | nil => rfl
  | cons e rest induction => simp [run, induction]

theorem attrs_run (t : Traversal σ) (state : σ) (attributes : List Attribute) :
    (Attribute.expressions (t.attrs state attributes).1, (t.attrs state attributes).2) =
      t.run state (Attribute.expressions attributes) := by
  induction attributes generalizing state with
  | nil => rfl
  | cons attr rest induction =>
      obtain ⟨name, value, site⟩ := attr
      cases value with
      | fixed text => exact induction state
      | dynamic e =>
          have tail := induction (t.expression state e).2
          simp only [Attribute.expressions_cons, AttributeValue.expressions, attrs, attr,
            List.singleton_append, run, ← tail]

mutual

/-- A traversal of a node is the traversal of its expressions. -/
theorem node_run (t : Traversal σ) :
    ∀ (node : Node) (state : σ),
      ((t.node state node).1.expressions, (t.node state node).2) = t.run state node.expressions
  | .element _ attributes children _, state | .component _ attributes children _, state => by
      have head := t.attrs_run state attributes
      have tail := nodes_run t children (t.attrs state attributes).2
      simp only [node, Node.expressions, run_append, ← head, ← tail]
  | .text .., _ | .doctype .., _ => rfl
  | .expression _, _ => rfl
  | .conditional id condition consequent alternate site, state => by
      have first := nodes_run t consequent
        (t.expression state ⟨id, condition, site.location, site.scope⟩).2
      have second := nodes_run t alternate
        (t.nodes (t.expression state ⟨id, condition, site.location, site.scope⟩).2 consequent).2
      simp only [node, Node.expressions, run, run_append, ← first, ← second]
  | .optional id condition branch site, state => by
      have tail := nodes_run t branch
        (t.expression state ⟨id, condition, site.location, site.scope⟩).2
      simp only [node, Node.expressions, run, ← tail]
  | .loop id source binder body site, state => by
      have tail := nodes_run t body
        (t.expression state ⟨id, source, site.location, site.scope⟩).2
      simp only [node, Node.expressions, run, ← tail]

/-- A traversal of nodes is the traversal of their expressions. -/
theorem nodes_run (t : Traversal σ) :
    ∀ (nodes : List Node) (state : σ),
      (Node.expressionsOfList (t.nodes state nodes).1, (t.nodes state nodes).2) =
        t.run state (Node.expressionsOfList nodes)
  | [], _ => rfl
  | first :: rest, state => by
      have head := node_run t first state
      have tail := nodes_run t rest (t.node state first).2
      simp only [nodes, Node.expressionsOfList, run_append, ← head, ← tail]

end

variable {allowed : Expression → Expression → Prop} [IsPreorder Expression allowed]

/-- Steps that change the entry of each expression make a pass. -/
theorem run_pass {t : Traversal Registry}
    (step : ∀ registry e, registry.Keeps [e] →
      Pass allowed registry [e] (t.expression registry e).2 [(t.expression registry e).1])
    {registry : Registry} {es : List Expression} (keeps : registry.Keeps es) :
    Pass allowed registry es (t.run registry es).2 (t.run registry es).1 := by
  induction es generalizing registry with
  | nil => exact .refl keeps
  | cons e rest induction =>
      have keeps' : registry.Keeps ([e] ++ rest) := keeps
      exact Pass.append keeps' (step registry e keeps'.left) induction

theorem nodes_pass {t : Traversal Registry}
    (step : ∀ registry e, registry.Keeps [e] →
      Pass allowed registry [e] (t.expression registry e).2 [(t.expression registry e).1])
    {registry : Registry} {nodes : List Node}
    (keeps : registry.Keeps (Node.expressionsOfList nodes)) :
    Pass allowed registry (Node.expressionsOfList nodes) (t.nodes registry nodes).2
      (Node.expressionsOfList (t.nodes registry nodes).1) := by
  have pass := run_pass step keeps
  rw [← nodes_run] at pass
  exact pass

end Traversal

namespace Node

open Registry

variable {registry : Registry} {nodes : List Node}

/-! ## Fresh ids -/

private theorem rekeying_run (reachable : registry.Reachable) (renamed : Renaming)
    (es : List Expression) :
    Pass Anything registry [] (rekeying.run (registry, renamed) es).2.1
      (rekeying.run (registry, renamed) es).1 := by
  induction es generalizing registry renamed with
  | nil => exact .refl (.nil reachable)
  | cons e rest induction =>
      have head : Pass Anything registry [] _ _ :=
        .register reachable (kindOf e.id) e.code e.location e.location
          (renameScope renamed e.scope)
      exact head.append_nil (induction head.keeps.reachable _)

/-- A copy with fresh ids is made of new expressions only, whatever the original was. -/
theorem rekey_pass (reachable : registry.Reachable) (nodes : List Node) :
    Pass Anything registry [] (rekey registry nodes).2
      (expressionsOfList (rekey registry nodes).1) := by
  have pass := rekeying_run reachable [] (expressionsOfList nodes)
  rw [← Traversal.nodes_run] at pass
  exact pass

/-! ## Locations -/

theorem relocate_pass (location : Location) (keeps : registry.Keeps (expressionsOfList nodes)) :
    Pass Anything registry (expressionsOfList nodes) (relocate location registry nodes).2
      (expressionsOfList (relocate location registry nodes).1) := by
  refine Traversal.nodes_pass (fun registry e keeps => ?_) keeps
  refine .modify keeps (keeps.reachable.setLocation e.id location) (fun _ => rfl) rfl trivial ?_
  intro entry code scope
  exact ⟨code, scope, trivial⟩

/-! ## Scopes -/

theorem rebind_pass (scope : Option Scope) (keeps : registry.Keeps (expressionsOfList nodes)) :
    Pass Grown registry (expressionsOfList nodes) (rebind scope registry nodes).2
      (expressionsOfList (rebind scope registry nodes).1) := by
  rw [rebind]
  split
  · exact .refl keeps
  · refine Traversal.nodes_pass (fun registry e keeps => ?_) keeps
    have grown := Scope.merge_grown e.scope scope
    refine .modify keeps (keeps.reachable.setScope e.id _) (fun _ => rfl) rfl ⟨rfl, rfl, grown⟩ ?_
    intro entry code own
    exact ⟨code, rfl, rfl, rfl, own ▸ grown⟩

end Node
end ReactiveTemplate
