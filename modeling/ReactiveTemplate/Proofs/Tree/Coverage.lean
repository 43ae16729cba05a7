import ReactiveTemplate.Proofs.Tree.Expressions

/-!
# Scopes along a tree

A tree covers some variables when the scope of each of its sites has them, and inside a loop also
the variables of the loop.  Passes that only widen scopes keep this, and rebinding adds to it.
-/

namespace ReactiveTemplate
namespace Node

mutual

/-- The required variables, and those of all loops on the way, are in reach of a node, of its
dynamic attributes and of everything below it. -/
def Covers (required : List String) : Node → Prop
  | element _ attributes children site | component _ attributes children site =>
    required ⊆ Scope.names site.scope ∧
      (∀ e ∈ Attribute.expressions attributes, required ⊆ Scope.names e.scope) ∧
      CoversAll required children
  | text _ site => required ⊆ Scope.names site.scope
  | expression e => required ⊆ Scope.names e.scope
  | conditional _ _ consequent alternate site =>
    required ⊆ Scope.names site.scope ∧ CoversAll required consequent ∧
      CoversAll required alternate
  | optional _ _ branch site => required ⊆ Scope.names site.scope ∧ CoversAll required branch
  | loop _ _ binder body site =>
    required ⊆ Scope.names site.scope ∧ CoversAll (Scope.addNames required binder.bound) body
  | doctype .. => True

/-- All nodes of a list cover the required variables. -/
def CoversAll (required : List String) : List Node → Prop
  | [] => True
  | node :: rest => Covers required node ∧ CoversAll required rest

end

@[simp]
theorem coversAll_nil (required : List String) : CoversAll required [] := by
  rw [CoversAll]
  trivial

@[simp]
theorem coversAll_cons {required : List String} {node : Node} {rest : List Node} :
    CoversAll required (node :: rest) ↔ node.Covers required ∧ CoversAll required rest := by
  rw [CoversAll]

@[simp]
theorem coversAll_append {required : List String} {left right : List Node} :
    CoversAll required (left ++ right) ↔ CoversAll required left ∧ CoversAll required right := by
  induction left with
  | nil => simp
  | cons node rest induction => simp [induction, and_assoc]

theorem coversAll_iff {required : List String} {nodes : List Node} :
    CoversAll required nodes ↔ ∀ node ∈ nodes, node.Covers required := by
  induction nodes with
  | nil => simp
  | cons node rest induction => rw [coversAll_cons, List.forall_mem_cons, induction]

theorem addNames_subset {required required' bound : List String} (part : required' ⊆ required) :
    Scope.addNames required' bound ⊆ Scope.addNames required bound := by
  intro name member
  rcases Scope.mem_addNames.mp member with old | new
  · exact Scope.mem_addNames.mpr (.inl (part old))
  · exact Scope.mem_addNames.mpr (.inr new)

mutual

theorem Covers.mono {required required' : List String} (part : required' ⊆ required) :
    ∀ node : Node, node.Covers required → node.Covers required'
  | element _ _ children _, covers | component _ _ children _, covers => by
      rw [Covers] at covers ⊢
      obtain ⟨own, attributes, below⟩ := covers
      exact ⟨List.Subset.trans part own,
        fun e member => List.Subset.trans part (attributes e member),
        CoversAll.mono part children below⟩
  | text .., covers | expression _, covers => by
      rw [Covers] at covers ⊢
      exact List.Subset.trans part covers
  | conditional _ _ consequent alternate _, covers => by
      rw [Covers] at covers ⊢
      obtain ⟨own, first, second⟩ := covers
      exact ⟨List.Subset.trans part own, CoversAll.mono part consequent first,
        CoversAll.mono part alternate second⟩
  | optional _ _ branch _, covers => by
      rw [Covers] at covers ⊢
      exact ⟨List.Subset.trans part covers.1, CoversAll.mono part branch covers.2⟩
  | loop _ _ _ body _, covers => by
      rw [Covers] at covers ⊢
      exact ⟨List.Subset.trans part covers.1,
        CoversAll.mono (addNames_subset part) body covers.2⟩
  | doctype .., _ => by
      rw [Covers]
      trivial

theorem CoversAll.mono {required required' : List String} (part : required' ⊆ required) :
    ∀ nodes : List Node, CoversAll required nodes → CoversAll required' nodes
  | [], _ => coversAll_nil required'
  | node :: rest, covers => by
      rw [CoversAll] at covers ⊢
      exact ⟨Covers.mono part node covers.1, CoversAll.mono part rest covers.2⟩

end

mutual

/-- The expressions of a tree see what the tree covers. -/
theorem Covers.expressions {required : List String} :
    ∀ node : Node, node.Covers required →
      ∀ e ∈ node.expressions, required ⊆ Scope.names e.scope
  | element _ _ children _, covers, e, member | component _ _ children _, covers, e, member => by
      rw [Covers] at covers
      rw [Node.expressions, List.mem_append] at member
      rcases member with member | member
      · exact covers.2.1 e member
      · exact CoversAll.expressions children covers.2.2 e member
  | text .., _, _, member | doctype .., _, _, member => by
      rw [Node.expressions] at member
      cases member
  | expression _, covers, e, member => by
      rw [Covers] at covers
      rw [Node.expressions, List.mem_singleton] at member
      exact member ▸ covers
  | conditional _ _ consequent alternate _, covers, e, member => by
      rw [Covers] at covers
      rw [Node.expressions, List.mem_cons, List.mem_append] at member
      rcases member with rfl | member | member
      · exact covers.1
      · exact CoversAll.expressions consequent covers.2.1 e member
      · exact CoversAll.expressions alternate covers.2.2 e member
  | optional _ _ branch _, covers, e, member => by
      rw [Covers] at covers
      rw [Node.expressions, List.mem_cons] at member
      rcases member with rfl | member
      · exact covers.1
      · exact CoversAll.expressions branch covers.2 e member
  | loop _ _ binder body _, covers, e, member => by
      rw [Covers] at covers
      rw [Node.expressions, List.mem_cons] at member
      rcases member with rfl | member
      · exact covers.1
      · have inner := CoversAll.expressions body covers.2 e member
        exact fun name required => inner (Scope.mem_addNames.mpr (.inl required))

theorem CoversAll.expressions {required : List String} :
    ∀ nodes : List Node, CoversAll required nodes →
      ∀ e ∈ expressionsOfList nodes, required ⊆ Scope.names e.scope
  | [], _, _, member => by cases member
  | node :: rest, covers, e, member => by
      rw [CoversAll] at covers
      rw [expressionsOfList, List.mem_append] at member
      rcases member with member | member
      · exact Covers.expressions node covers.1 e member
      · exact CoversAll.expressions rest covers.2 e member

end

end Node

/-! ## Traversals that widen scopes -/

namespace Traversal

variable {σ : Type} {t : Traversal σ} {required gained names : List String}

/-- The traversal keeps the variables of every scope and adds the gained ones. -/
structure Widens (t : Traversal σ) (gained : List String) : Prop where
  /-- At a site that has no id. -/
  site : ∀ state s, Scope.names s.scope ++ gained ⊆ Scope.names (t.site state s).scope
  /-- At a site that has an id. -/
  expression : ∀ state e,
    Scope.names e.scope ++ gained ⊆ Scope.names (t.expression state e).1.scope

private theorem append_subset_append (part : required ⊆ names) :
    required ++ gained ⊆ names ++ gained :=
  List.append_subset.mpr ⟨List.subset_append_of_subset_left gained part,
    List.subset_append_right names gained⟩

theorem Widens.attrs (widens : t.Widens gained) (attributes : List Attribute) (state : σ)
    (covers : ∀ e ∈ Attribute.expressions attributes, required ⊆ Scope.names e.scope) :
    ∀ e ∈ Attribute.expressions (t.attrs state attributes).1,
      required ++ gained ⊆ Scope.names e.scope := by
  induction attributes generalizing state with
  | nil => exact fun e member => by cases member
  | cons attr rest induction =>
      obtain ⟨name, value, site⟩ := attr
      cases value with
      | fixed text => exact induction state covers
      | dynamic e =>
          rw [Attribute.expressions_cons, AttributeValue.expressions, List.forall_mem_append]
            at covers
          intro e' member
          rcases List.mem_cons.mp member with rfl | member
          · refine List.Subset.trans ?_ (widens.expression state e)
            exact append_subset_append (covers.1 e (List.mem_singleton_self e))
          · exact induction _ covers.2 e' member

private theorem addNames_append_subset {required gained bound : List String} :
    Scope.addNames (required ++ gained) bound ⊆ Scope.addNames required bound ++ gained := by
  intro name member
  rw [Scope.mem_addNames, List.mem_append] at member
  rw [List.mem_append, Scope.mem_addNames]
  rcases member with (old | gained) | bound
  · exact .inl (.inl old)
  · exact .inr gained
  · exact .inl (.inr bound)

private theorem Widens.site_subset (widens : t.Widens gained) {s : Site} (state : σ)
    (covers : required ⊆ Scope.names s.scope) :
    required ++ gained ⊆ Scope.names (t.site state s).scope :=
  List.Subset.trans (append_subset_append covers) (widens.site state s)

private theorem Widens.expression_subset (widens : t.Widens gained) {e : Expression} (state : σ)
    (covers : required ⊆ Scope.names e.scope) :
    required ++ gained ⊆ Scope.names (t.expression state e).1.scope :=
  List.Subset.trans (append_subset_append covers) (widens.expression state e)

mutual

theorem Widens.node (widens : t.Widens gained) (required : List String) :
    ∀ (node : Node) (state : σ), node.Covers required →
      (t.node state node).1.Covers (required ++ gained)
  | .element _ attributes children _, state, covers
  | .component _ attributes children _, state, covers => by
      rw [Node.Covers] at covers
      rw [Traversal.node, Node.Covers]
      exact ⟨widens.site_subset state covers.1, widens.attrs attributes state covers.2.1,
        Widens.nodes widens required children _ covers.2.2⟩
  | .text .., state, covers => by
      rw [Node.Covers] at covers
      rw [Traversal.node, Node.Covers]
      exact widens.site_subset state covers
  | .expression _, state, covers => by
      rw [Node.Covers] at covers
      rw [Traversal.node, Node.Covers]
      exact widens.expression_subset state covers
  | .conditional id condition consequent alternate site, state, covers => by
      rw [Node.Covers] at covers
      rw [Traversal.node, Node.Covers]
      have own : required ⊆
          Scope.names (⟨id, condition, site.location, site.scope⟩ : Expression).scope := covers.1
      exact ⟨widens.expression_subset state own,
        Widens.nodes widens required consequent _ covers.2.1,
        Widens.nodes widens required alternate _ covers.2.2⟩
  | .optional id condition branch site, state, covers => by
      rw [Node.Covers] at covers
      rw [Traversal.node, Node.Covers]
      have own : required ⊆
          Scope.names (⟨id, condition, site.location, site.scope⟩ : Expression).scope := covers.1
      exact ⟨widens.expression_subset state own, Widens.nodes widens required branch _ covers.2⟩
  | .loop id source binder body site, state, covers => by
      rw [Node.Covers] at covers
      rw [Traversal.node, Node.Covers]
      have own : required ⊆
          Scope.names (⟨id, source, site.location, site.scope⟩ : Expression).scope := covers.1
      exact ⟨widens.expression_subset state own,
        Node.CoversAll.mono addNames_append_subset _
          (Widens.nodes widens (Scope.addNames required binder.bound) body _ covers.2)⟩
  | .doctype .., _, _ => by
      rw [Traversal.node, Node.Covers]
      trivial

theorem Widens.nodes (widens : t.Widens gained) (required : List String) :
    ∀ (nodes : List Node) (state : σ), Node.CoversAll required nodes →
      Node.CoversAll (required ++ gained) (t.nodes state nodes).1
  | [], _, _ => Node.coversAll_nil _
  | first :: rest, state, covers => by
      rw [Node.CoversAll] at covers
      rw [Traversal.nodes, Node.CoversAll]
      exact ⟨Widens.node widens required first state covers.1,
        Widens.nodes widens required rest _ covers.2⟩

end

/-- A traversal that gains nothing keeps what a tree covers. -/
theorem Widens.keeps (widens : t.Widens []) {nodes : List Node} (state : σ)
    (covers : Node.CoversAll required nodes) : Node.CoversAll required (t.nodes state nodes).1 := by
  simpa using widens.nodes required nodes state covers

end Traversal

namespace Node

variable {required : List String} {nodes : List Node}

theorem names_renameScope (renamed : Renaming) (scope : Option Scope) :
    Scope.names (renameScope renamed scope) = Scope.names scope := by
  cases scope with
  | none => rfl
  | some scope =>
      simp only [renameScope, Option.map_some]
      split <;> rfl

theorem rekey_covers (registry : Registry) (covers : CoversAll required nodes) :
    CoversAll required (rekey registry nodes).1 := by
  have widens : rekeying.Widens [] :=
    { site := fun state s => by simp [rekeying, names_renameScope]
      expression := fun state e => by simp [rekeying, names_renameScope] }
  exact widens.keeps (registry, []) covers

theorem relocate_covers (location : Location) (registry : Registry)
    (covers : CoversAll required nodes) :
    CoversAll required (relocate location registry nodes).1 := by
  have widens : (relocating location).Widens [] :=
    { site := fun state s => by simp [relocating]
      expression := fun state e => by simp [relocating] }
  exact widens.keeps registry covers

/-- Rebound nodes also cover the variables of the scope they are rebound to. -/
theorem rebind_covers (scope : Option Scope) (registry : Registry)
    (covers : CoversAll required nodes) :
    CoversAll (required ++ Scope.names scope) (rebind scope registry nodes).1 := by
  rw [rebind]
  split
  · rename_i absent
    rw [Option.isNone_iff_eq_none] at absent
    subst absent
    simpa [Scope.names] using covers
  · have widens : (rebinding scope).Widens (Scope.names scope) :=
      { site := fun state s name member =>
          Scope.mem_names_merge.mpr (List.mem_append.mp member)
        expression := fun state e name member =>
          Scope.mem_names_merge.mpr (List.mem_append.mp member) }
    exact widens.nodes required nodes registry covers

end Node
end ReactiveTemplate
