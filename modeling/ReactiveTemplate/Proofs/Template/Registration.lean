import ReactiveTemplate.Proofs.Template.Parse
import ReactiveTemplate.Proofs.Tree.Balance

/-!
# The order of registration

Main statement: reading a template enters the ids of its tree into the registry, one after the other
in the order of the document, and changes nothing else.
-/

namespace ReactiveTemplate

open Registry

/-- The ids have been registered one after the other, and nothing else has changed. -/
def Registry.Enters (before : Registry) (ids : List String) (after : Registry) : Prop :=
  after.ids = before.ids ++ ids

namespace Registry.Enters

variable {before middle after : Registry} {first second : List String}

theorem nil (registry : Registry) : registry.Enters [] registry := (List.append_nil _).symm

theorem append (left : before.Enters first middle) (right : middle.Enters second after) :
    before.Enters (first ++ second) after := by
  rw [Enters] at left right ⊢
  rw [right, left, List.append_assoc]

theorem register (registry : Registry) (kind code : String) (location : Location)
    (scope : Option Scope) :
    registry.Enters [(registry.register kind code location scope).1]
      (registry.register kind code location scope).2 :=
  ids_register registry kind code location scope

end Registry.Enters

namespace Template

variable {registry : Registry}

theorem readAttribute_enters (captured : List Captured) (registry : Registry)
    (element : Location) (name raw : String) :
    registry.Enters (Attribute.ids [(readAttribute captured registry element name raw).1])
      (readAttribute captured registry element name raw).2 := by
  rw [readAttribute]
  split
  · exact .nil registry
  · exact .register registry "expr" _ _ none

theorem readAttributes_enters (captured : List Captured) (registry : Registry)
    (element : Location) (attributes : List (String × String)) :
    registry.Enters (Attribute.ids (readAttributes captured registry element attributes).1)
      (readAttributes captured registry element attributes).2 := by
  induction attributes generalizing registry with
  | nil => exact .nil registry
  | cons attr rest induction =>
      obtain ⟨name, raw⟩ := attr
      rw [readAttributes]
      split
      · exact induction registry
      · have both := (readAttribute_enters captured registry element name raw).append (induction _)
        rw [Attribute.ids, Attribute.ids, ← List.filterMap_append] at both
        exact both

theorem readExpression_enters (captured : List Captured) (registry : Registry)
    (number? : Option Nat) :
    registry.Enters (Node.idsOfList (readExpression captured registry number?).1)
      (readExpression captured registry number?).2 := by
  rw [readExpression]
  split
  · exact .register registry "expr" _ _ none
  · exact .nil registry

theorem readPieces_enters (captured : List Captured) (registry : Registry) (location : Location)
    (pieces : List Piece) :
    registry.Enters (Node.idsOfList (readPieces captured registry location pieces).1)
      (readPieces captured registry location pieces).2 := by
  induction pieces generalizing registry with
  | nil => exact .nil registry
  | cons piece rest induction =>
      cases piece with
      | plain text =>
          simp only [readPieces]
          split
          · exact induction registry
          · exact induction registry
      | placeholder digits =>
          simp only [readPieces, Node.idsOfList_append]
          exact (readExpression_enters captured registry (Text.digits? digits)).append
            (induction _)

mutual

theorem readNode_enters (captured : List Captured) :
    ∀ (node : Markup.Dom) (registry : Registry) (around : Location),
      registry.Enters (Node.idsOfList (readNode captured registry around node).1)
        (readNode captured registry around node).2
  | .doctype .., registry, _ | .comment _, registry, _ => .nil registry
  | .text text, registry, around => by
      rw [readNode]
      exact readPieces_enters captured registry around (textPieces text)
  | .element _ name attributes children, registry, around => by
      rw [readNode]
      dsimp only
      split
      · exact readExpression_enters captured registry _
      · -- the attributes of an element are listed before its children, as they are read
        rw [Node.idsOfList_singleton, Node.ids_eq, elementNode_expressions, List.map_append,
          ← Attribute.ids_eq, ← Node.idsOfList_eq]
        exact (readAttributes_enters captured registry (elementLocation around attributes)
          attributes).append (readNodes_enters captured children _ _)

theorem readNodes_enters (captured : List Captured) :
    ∀ (nodes : List Markup.Dom) (registry : Registry) (around : Location),
      registry.Enters (Node.idsOfList (readNodes captured registry around nodes).1)
        (readNodes captured registry around nodes).2
  | [], registry, _ => .nil registry
  | node :: rest, registry, around => by
      rw [readNodes, Node.idsOfList_append]
      exact (readNode_enters captured node registry around).append
        (readNodes_enters captured rest _ around)

end

/-- Reading a template registers the ids of its tree, in their order. -/
theorem parse_enters {source file : String} {template : Template} {after : Registry}
    (ok : parse source file registry = .ok (template, after)) :
    registry.Enters (Node.idsOfList template.nodes) after := by
  obtain ⟨captured, content, nodes_eq, rfl⟩ := parse_nodes ok
  rw [nodes_eq, Node.idsOfList_eq, expressionsOfList_filter_text, ← Node.idsOfList_eq]
  exact readNodes_enters captured content registry {}

/-- Reading a template registers what it puts into the tree. -/
theorem parse_balance {source file : String} {template : Template} {after : Registry}
    (ok : parse source file registry = .ok (template, after)) :
    Balance registry [] after (Node.idsOfList template.nodes) := by
  intro others lists
  refine ⟨(parse_pass lists.reachable ok).keeps.reachable, ?_⟩
  have order : after.ids = registry.ids ++ Node.idsOfList template.nodes := parse_enters ok
  rw [order]
  exact (lists.same.append_right _).trans List.perm_append_comm

end Template
end ReactiveTemplate
