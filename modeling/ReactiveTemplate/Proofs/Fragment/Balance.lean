import ReactiveTemplate.Proofs.Fragment.Lowering
import ReactiveTemplate.Proofs.Template.Registration

/-!
# Nothing is left over by reading

Reading markup registers exactly what it puts into the tree, and turning an expression into a
fragment replaces its id by those of the fragment.
-/

namespace ReactiveTemplate

namespace Fragment

variable {scope : Option Scope} {registry after : Registry} {nodes : List Node}

theorem registerCode_balance (scope : Option Scope) (registry : Registry) (location : Location)
    (raw : List Char) :
    Balance registry [] (registerCode scope registry location raw).2
      [(registerCode scope registry location raw).1.id] :=
  .register registry "expr" _ _ scope

theorem ReadsAttributes.balance {attributes : List Attribute}
    (reads : ReadsAttributes scope registry attributes after) :
    Balance registry [] after (Attribute.ids attributes) := by
  induction reads with
  | nil => exact .refl _ []
  | fixed name text place reads induction => exact induction
  | dynamic name place location raw reads induction =>
      exact (registerCode_balance scope _ location raw).append induction

/-- Reading markup registers what it puts into the tree. -/
theorem Reads.balance (reads : Reads scope registry nodes after) :
    Balance registry [] after (Node.idsOfList nodes) := by
  induction reads with
  | nil | text => exact .refl _ []
  | code location raw => exact registerCode_balance scope _ location raw
  | element name location attributes children induction =>
      rw [Node.idsOfList_singleton, Node.ids_eq, elementNode_expressions, List.map_append,
        ← Attribute.ids_eq, ← Node.idsOfList_eq]
      exact attributes.balance.append induction
  | append left right induction_left induction_right =>
      rw [Node.idsOfList_append]
      exact induction_left.append induction_right

/-- An expression gives way to the nodes that are made of it, and nothing is left over. -/
def Settling (lowerOne : Expression → Action (List Node)) : Prop :=
  ∀ {e registry nodes after}, lowerOne e registry = .ok (nodes, after) →
    Account.Moves { registry } [.expression e] { registry := after } nodes []

variable {lowerOne : Expression → Action (List Node)}

mutual

theorem lowerNode_moves (settling : Settling lowerOne) :
    ∀ {node : Node} {registry after : Registry} {nodes : List Node},
      lowerNode lowerOne node registry = .ok (nodes, after) →
      Account.Moves { registry } [node] { registry := after } nodes []
  | .expression e, registry, after, nodes, ok => by
      rw [lowerNode] at ok
      exact settling ok
  | .element tag attributes children site, registry, after, nodes, ok => by
      simp only [lowerNode, bind_eq_ok] at ok
      obtain ⟨-, -, ⟨children', after'⟩, below, ok⟩ := ok
      cases ok
      exact (lowerNodes_moves settling below).element tag attributes site
  | .component name attributes children site, registry, after, nodes, ok => by
      simp only [lowerNode, bind_eq_ok] at ok
      obtain ⟨-, -, ⟨children', after'⟩, below, ok⟩ := ok
      cases ok
      exact (lowerNodes_moves settling below).component name attributes site
  | .conditional id condition consequent alternate site, registry, after, nodes, ok => by
      simp only [lowerNode, bind_eq_ok] at ok
      obtain ⟨⟨consequent', middle⟩, first, ⟨alternate', after'⟩, second, ok⟩ := ok
      cases ok
      exact (lowerNodes_moves settling first).conditional id condition site
        (lowerNodes_moves settling second)
  | .optional id condition branch site, registry, after, nodes, ok => by
      simp only [lowerNode, bind_eq_ok] at ok
      obtain ⟨⟨branch', after'⟩, below, ok⟩ := ok
      cases ok
      exact (lowerNodes_moves settling below).optional id condition site
  | .loop id source binder body site, registry, after, nodes, ok => by
      simp only [lowerNode, bind_eq_ok] at ok
      obtain ⟨⟨body', after'⟩, below, ok⟩ := ok
      cases ok
      exact (lowerNodes_moves settling below).loop id source binder site
  | .text .., registry, after, nodes, ok | .doctype .., registry, after, nodes, ok => by
      rw [lowerNode] at ok
      cases ok
      exact .refl _ _

theorem lowerNodes_moves (settling : Settling lowerOne) :
    ∀ {nodes : List Node} {registry after : Registry} {result : List Node},
      lowerNodes lowerOne nodes registry = .ok (result, after) →
      Account.Moves { registry } nodes { registry := after } result []
  | [], registry, after, result, ok => by
      rw [lowerNodes] at ok
      cases ok
      exact .refl _ _
  | node :: rest, registry, after, result, ok => by
      simp only [lowerNodes, bind_eq_ok] at ok
      obtain ⟨⟨first', middle⟩, first, ⟨rest', after'⟩, second, ok⟩ := ok
      cases ok
      exact (lowerNode_moves settling first).append (lowerNodes_moves settling second)

end

theorem readBranch_balance (settling : Settling lowerOne) {code : List Char} {location : Location}
    (ok : readBranch lowerOne code location scope registry = .ok (nodes, after)) :
    Balance registry [] after (Node.idsOfList nodes) := by
  rcases readBranch_cases ok with ⟨rfl, rfl⟩ | ⟨read, middle, reads, ok⟩ | ⟨text, place, ok⟩
  · exact .refl _ []
  · have lowered := (lowerNodes_moves settling ok).balance
    exact reads.balance.trans lowered
  · exact (Balance.register registry "expr" text place scope).trans (settling ok).balance

/-- The old id goes once the fragment is there. -/
private theorem replace_balance {id : String} {fragment : List String}
    (made : Balance registry [] after fragment) :
    Balance registry [id] (after.remove id) fragment := by
  have replaced := (made.beside_left [id]).trans ((Balance.remove after id).beside_right fragment)
  rwa [List.nil_append, List.append_nil] at replaced

theorem lowerShape_balance (settling : Settling lowerOne) {e : Expression} {shape : Code.Shape}
    (ok : lowerShape lowerOne e shape registry = .ok (nodes, after)) :
    Balance registry [e.id] after (Node.idsOfList nodes) := by
  cases shape with
  | primitive =>
      cases ok
      exact .refl _ _
  | unknown | crash => cases ok
  | fragment markup =>
      simp only [lowerShape, bind_eq_ok] at ok
      obtain ⟨⟨branch, middle⟩, branch_ok, ok⟩ := ok
      cases ok
      exact replace_balance (readBranch_balance settling branch_ok)
  | conditional condition consequent alternate =>
      simp only [lowerShape, bind_eq_ok] at ok
      obtain ⟨⟨first, middle⟩, first_ok, ⟨second, last⟩, second_ok, ok⟩ := ok
      cases ok
      have head := Balance.register registry "cond" (segmentText condition)
        (segmentLocation e condition) e.scope
      rw [Node.idsOfList_singleton, Node.ids]
      exact replace_balance (head.append
        ((readBranch_balance settling first_ok).append (readBranch_balance settling second_ok)))
  | optional condition branch =>
      simp only [lowerShape, bind_eq_ok] at ok
      obtain ⟨⟨below, middle⟩, below_ok, ok⟩ := ok
      cases ok
      have head := Balance.register registry "opt" (segmentText condition)
        (segmentLocation e condition) e.scope
      rw [Node.idsOfList_singleton, Node.ids]
      exact replace_balance (head.append (readBranch_balance settling below_ok))
  | loop source binder body =>
      simp only [lowerShape, bind_eq_ok] at ok
      obtain ⟨⟨below, middle⟩, below_ok, ok⟩ := ok
      cases ok
      have head := Balance.register registry "loop" (segmentText source)
        (segmentLocation e source) e.scope
      rw [Node.idsOfList_singleton, Node.ids]
      exact replace_balance (head.append (readBranch_balance settling below_ok))

theorem lowerWithin_settling (depth : Nat) : Settling (lowerWithin depth) := by
  induction depth with
  | zero => exact fun ok => (nomatch ok)
  | succ depth induction =>
      intro e registry nodes after ok
      exact .of_balance (lowerShape_balance induction ok)

/-- Turning expressions into fragments leaves nothing over. -/
theorem lower_balance {result : List Node} {file : String}
    (ok : lower nodes file registry = .ok (result, after)) :
    Balance registry (Node.idsOfList nodes) after (Node.idsOfList result) := by
  have settling : Settling lowerExpression := fun ok => lowerWithin_settling _ ok
  exact (lowerNodes_moves settling (reportIn_eq_ok.mp ok)).balance

end Fragment
end ReactiveTemplate
