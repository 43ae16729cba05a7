import ReactiveTemplate.Proofs.Tree.Coverage

/-!
# At every depth

The nodes of a tree as a list, and what it means that something holds of all of them.  With it, that
a tree covers the variables of its loops is said of one loop and one node inside it at a time.
-/

namespace ReactiveTemplate
namespace Node

mutual

/-- A node and all nodes below it. -/
def allNodes : Node → List Node
  | element tag attributes children site =>
    element tag attributes children site :: allNodesOfList children
  | component name attributes children site =>
    component name attributes children site :: allNodesOfList children
  | conditional id condition consequent alternate site =>
    conditional id condition consequent alternate site ::
      (allNodesOfList consequent ++ allNodesOfList alternate)
  | optional id condition branch site =>
    optional id condition branch site :: allNodesOfList branch
  | loop id source binder body site => loop id source binder body site :: allNodesOfList body
  | text value site => [text value site]
  | expression e => [expression e]
  | doctype name publicId systemId location => [doctype name publicId systemId location]

/-- The nodes of a list and all nodes below them. -/
def allNodesOfList : List Node → List Node
  | [] => []
  | node :: rest => allNodes node ++ allNodesOfList rest

end

/-- Something holds of all nodes in a list of trees, at any depth. -/
def Everywhere (holds : Node → Prop) (nodes : List Node) : Prop :=
  ∀ node ∈ allNodesOfList nodes, holds node

variable {holds : Node → Prop} {nodes nodes' : List Node}

theorem allNodesOfList_append (left right : List Node) :
    allNodesOfList (left ++ right) = allNodesOfList left ++ allNodesOfList right := by
  induction left with
  | nil => rfl
  | cons node rest induction =>
      rw [List.cons_append, allNodesOfList, allNodesOfList, induction, List.append_assoc]

@[simp]
theorem everywhere_nil : Everywhere holds [] := fun _ member => by cases member

@[simp]
theorem everywhere_append :
    Everywhere holds (nodes ++ nodes') ↔ Everywhere holds nodes ∧ Everywhere holds nodes' := by
  simp only [Everywhere, allNodesOfList_append, List.forall_mem_append]

theorem everywhere_cons {node : Node} {rest : List Node} :
    Everywhere holds (node :: rest) ↔
      (holds node ∧ ∀ below ∈ node.childLists, Everywhere holds below) ∧ Everywhere holds rest := by
  simp only [Everywhere, allNodesOfList, List.forall_mem_append]
  cases node <;> simp [allNodes, childLists, or_imp, forall_and]

theorem everywhere_head_tail (holds : Node → Prop) (node : Node) (rest : List Node) :
    Everywhere holds (node :: rest) ↔ Everywhere holds [node] ∧ Everywhere holds rest := by
  rw [← List.singleton_append, everywhere_append]

theorem everywhere_singleton {node : Node} :
    Everywhere holds [node] ↔ holds node ∧ ∀ below ∈ node.childLists, Everywhere holds below := by
  rw [everywhere_cons, and_iff_left everywhere_nil]

theorem Everywhere.mono {holds' : Node → Prop} (everywhere : Everywhere holds nodes)
    (weaker : ∀ node, holds node → holds' node) : Everywhere holds' nodes :=
  fun node member => weaker node (everywhere node member)

theorem Everywhere.filter (everywhere : Everywhere holds nodes) (keep : Node → Bool) :
    Everywhere holds (nodes.filter keep) := by
  induction nodes with
  | nil => exact everywhere
  | cons node rest induction =>
      rw [everywhere_head_tail] at everywhere
      rw [List.filter_cons]
      split
      · exact (everywhere_head_tail holds node _).mpr ⟨everywhere.1, induction everywhere.2⟩
      · exact induction everywhere.2

theorem everywhere_and {holds' : Node → Prop} :
    Everywhere (fun node => holds node ∧ holds' node) nodes ↔
      Everywhere holds nodes ∧ Everywhere holds' nodes :=
  ⟨fun both => ⟨both.mono fun _ => And.left, both.mono fun _ => And.right⟩,
    fun both node member => ⟨both.1 node member, both.2 node member⟩⟩

mutual

private theorem expressions_subset_of_mem_node {inner : Node} :
    ∀ {node : Node}, inner ∈ allNodes node → inner.expressions ⊆ node.expressions
  | element _ _ children _, member | component _ _ children _, member
  | optional _ _ children _, member | loop _ _ _ children _, member => by
      rw [allNodes] at member
      rcases List.mem_cons.mp member with rfl | below
      · exact List.Subset.refl _
      · refine List.Subset.trans (expressions_subset_of_mem below) ?_
        simp [expressions]
  | conditional _ _ consequent alternate _, member => by
      rw [allNodes, List.mem_cons, List.mem_append] at member
      rcases member with rfl | first | second
      · exact List.Subset.refl _
      · refine List.Subset.trans (expressions_subset_of_mem first) ?_
        simp [expressions]
      · refine List.Subset.trans (expressions_subset_of_mem second) ?_
        simp [expressions]
  | text .., member | expression _, member | doctype .., member => by
      rw [allNodes] at member
      obtain rfl := List.mem_singleton.mp member
      exact List.Subset.refl _

/-- The expressions of a node are among those of the tree that it is in. -/
theorem expressions_subset_of_mem {inner : Node} :
    ∀ {nodes : List Node}, inner ∈ allNodesOfList nodes →
      inner.expressions ⊆ expressionsOfList nodes
  | [], member => by cases member
  | node :: rest, member => by
      rw [allNodesOfList] at member
      rw [expressionsOfList]
      rcases List.mem_append.mp member with first | later
      · exact List.subset_append_of_subset_left _ (expressions_subset_of_mem_node first)
      · exact List.subset_append_of_subset_right _ (expressions_subset_of_mem later)

end

/-! ## Properties of single nodes -/

/-- The node with nothing below it. -/
def bare : Node → Node
  | element tag attributes _ site => element tag attributes [] site
  | component name attributes _ site => component name attributes [] site
  | text value site => text value site
  | expression e => expression e
  | conditional id condition _ _ site => conditional id condition [] [] site
  | optional id condition _ site => optional id condition [] site
  | loop id source binder _ site => loop id source binder [] site
  | doctype name publicId systemId location => doctype name publicId systemId location

/-- Whether the property holds of a node does not depend on what is below it. -/
def Local (holds : Node → Prop) : Prop := ∀ node, holds node.bare ↔ holds node

theorem Local.congr {node node' : Node} (isLocal : Local holds) (same : node.bare = node'.bare) :
    holds node ↔ holds node' := by
  rw [← isLocal node, same, isLocal node']

/-! ## Scopes -/

/-- The scopes at a node: its own, and those of the expressions in its attributes.  The document
type has none. -/
def scopes : Node → List (Option Scope)
  | element _ attributes _ site | component _ attributes _ site =>
    site.scope :: (Attribute.expressions attributes).map Expression.scope
  | text _ site | conditional _ _ _ _ site | optional _ _ _ site | loop _ _ _ _ site => [site.scope]
  | expression e => [e.scope]
  | doctype .. => []

/-- The variables are in every scope at the node. -/
def Sees (names : List String) (node : Node) : Prop :=
  ∀ scope ∈ node.scopes, names ⊆ Scope.names scope

/-- If the node is a loop, then its variables are in reach everywhere in what it repeats. -/
def Reaches : Node → Prop
  | loop _ _ binder body _ => Everywhere (Sees binder.bound) body
  | _ => True

theorem sees_addNames {names added : List String} {node : Node} :
    node.Sees (Scope.addNames names added) ↔ node.Sees names ∧ node.Sees added := by
  simp only [Sees, List.subset_def, Scope.mem_addNames, or_imp, forall_and]

mutual

private theorem covers_iff :
    ∀ {required : List String} (node : Node), node.Covers required ↔
      Everywhere (Sees required) [node] ∧ Everywhere Reaches [node]
  | required, element _ _ children _ | required, component _ _ children _ => by
      rw [Covers, coversAll_iff_everywhere children]
      simp [everywhere_singleton, childLists, Sees, scopes, Reaches, and_assoc]
  | required, text .. | required, expression _ => by
      simp [Covers, everywhere_singleton, childLists, Sees, scopes, Reaches]
  | required, conditional _ _ consequent alternate _ => by
      rw [Covers, coversAll_iff_everywhere consequent, coversAll_iff_everywhere alternate]
      simp only [everywhere_singleton, childLists, Sees, scopes, Reaches,
        List.forall_mem_cons]
      tauto
  | required, optional _ _ branch _ => by
      rw [Covers, coversAll_iff_everywhere branch]
      simp [everywhere_singleton, childLists, Sees, scopes, Reaches, and_assoc]
  | required, loop _ _ binder body _ => by
      rw [Covers, coversAll_iff_everywhere body]
      have both : Everywhere (Sees (Scope.addNames required binder.bound)) body ↔
          Everywhere (Sees required) body ∧ Everywhere (Sees binder.bound) body := by
        rw [← everywhere_and]
        exact forall₂_congr fun _ _ => sees_addNames
      rw [both]
      simp [everywhere_singleton, childLists, Reaches, Sees, scopes, and_assoc]
  | required, doctype .. => by
      simp [Covers, everywhere_singleton, childLists, Sees, scopes, Reaches]

/-- A tree covers variables exactly when each of its nodes sees them, and each node in what a loop
repeats sees the variables of that loop. -/
theorem coversAll_iff_everywhere :
    ∀ {required : List String} (nodes : List Node), CoversAll required nodes ↔
      Everywhere (Sees required) nodes ∧ Everywhere Reaches nodes
  | required, [] => by simp
  | required, node :: rest => by
      rw [coversAll_cons, covers_iff node, coversAll_iff_everywhere rest,
        everywhere_head_tail _ node rest, everywhere_head_tail _ node rest]
      tauto

end

end Node
end ReactiveTemplate
