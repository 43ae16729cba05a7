import ReactiveTemplate.Proofs.Diagnostic
import ReactiveTemplate.Proofs.Tree.Coverage
import ReactiveTemplate.Proofs.Tree.Enclosure
import ReactiveTemplate.Template.Parse

/-!
# What is read from a template

Every expression of a template is newly registered, and a template has no fragments: these only come
from lowering.  So no scope of a template names a loop.
-/

namespace ReactiveTemplate
namespace Template

variable {registry : Registry}

theorem readAttribute_pass (captured : List Captured) (reachable : registry.Reachable)
    (element : Location) (name raw : String) :
    Pass Anything registry [] (readAttribute captured registry element name raw).2
      (readAttribute captured registry element name raw).1.value.expressions := by
  rw [readAttribute]
  split
  · exact .refl (.nil reachable)
  · exact .register reachable "expr" _ _ _ none

theorem readAttributes_pass (captured : List Captured) (reachable : registry.Reachable)
    (element : Location) (attributes : List (String × String)) :
    Pass Anything registry [] (readAttributes captured registry element attributes).2
      (Attribute.expressions (readAttributes captured registry element attributes).1) := by
  induction attributes generalizing registry with
  | nil => exact .refl (.nil reachable)
  | cons attr rest induction =>
      obtain ⟨name, raw⟩ := attr
      rw [readAttributes]
      split
      · exact induction reachable
      · have first := readAttribute_pass captured reachable element name raw
        exact first.append_nil (induction first.keeps.reachable)

theorem readExpression_pass (captured : List Captured) (reachable : registry.Reachable)
    (number? : Option Nat) :
    Pass Anything registry [] (readExpression captured registry number?).2
      (Node.expressionsOfList (readExpression captured registry number?).1) := by
  rw [readExpression]
  split
  · exact .register reachable "expr" _ _ _ none
  · exact .refl (.nil reachable)

theorem readPieces_pass (captured : List Captured) (reachable : registry.Reachable)
    (location : Location) (pieces : List Piece) :
    Pass Anything registry [] (readPieces captured registry location pieces).2
      (Node.expressionsOfList (readPieces captured registry location pieces).1) := by
  induction pieces generalizing registry with
  | nil => exact .refl (.nil reachable)
  | cons piece rest induction =>
      cases piece with
      | plain text =>
          have later := induction reachable
          simp only [readPieces]
          split
          · exact later
          · exact later
      | placeholder digits =>
          have first := readExpression_pass captured reachable (Text.digits? digits)
          simp only [readPieces, Node.expressionsOfList_append]
          exact first.append_nil (induction first.keeps.reachable)

theorem elementNode_expressions (name : String) (attributes : List Attribute)
    (children : List Node) (location : Location) :
    (elementNode name attributes children location).expressions =
      Attribute.expressions attributes ++ Node.expressionsOfList children := by
  rw [elementNode]
  split <;> rw [Node.expressions]

mutual

theorem readNode_pass (captured : List Captured) :
    ∀ (node : Markup.Dom) {registry : Registry} (around : Location), registry.Reachable →
      Pass Anything registry [] (readNode captured registry around node).2
        (Node.expressionsOfList (readNode captured registry around node).1)
  | .doctype .., _, _, reachable | .comment _, _, _, reachable => .refl (.nil reachable)
  | .text text, _, around, reachable => by
      rw [readNode]
      exact readPieces_pass captured reachable around (textPieces text)
  | .element _ name attributes children, registry, around, reachable => by
      rw [readNode]
      dsimp only
      split
      · exact readExpression_pass captured reachable _
      · have header := readAttributes_pass captured reachable
          (elementLocation around attributes) attributes
        have below := readNodes_pass captured children (elementLocation around attributes)
          header.keeps.reachable
        rw [Node.expressionsOfList_singleton, elementNode_expressions]
        exact header.append_nil below

theorem readNodes_pass (captured : List Captured) :
    ∀ (nodes : List Markup.Dom) {registry : Registry} (around : Location), registry.Reachable →
      Pass Anything registry [] (readNodes captured registry around nodes).2
        (Node.expressionsOfList (readNodes captured registry around nodes).1)
  | [], _, _, reachable => .refl (.nil reachable)
  | node :: rest, registry, around, reachable => by
      have first := readNode_pass captured node around reachable
      have later := readNodes_pass captured rest around first.keeps.reachable
      rw [readNodes, Node.expressionsOfList_append]
      exact first.append_nil later

end

/-! ## Templates have no fragments -/

theorem readExpression_covers (captured : List Captured) (registry : Registry)
    (number? : Option Nat) :
    Node.CoversAll [] (readExpression captured registry number?).1 := by
  rw [readExpression]
  split <;> simp [Node.Covers]

theorem readPieces_covers (captured : List Captured) (registry : Registry) (location : Location)
    (pieces : List Piece) :
    Node.CoversAll [] (readPieces captured registry location pieces).1 := by
  induction pieces generalizing registry with
  | nil => exact Node.coversAll_nil _
  | cons piece rest induction =>
      cases piece with
      | plain text =>
          simp only [readPieces]
          split
          · exact induction registry
          · exact Node.coversAll_cons.mpr ⟨by simp [Node.Covers], induction registry⟩
      | placeholder digits =>
          simp only [readPieces]
          exact Node.coversAll_append.mpr
            ⟨readExpression_covers captured registry _, induction _⟩

mutual

theorem readNode_covers (captured : List Captured) :
    ∀ (node : Markup.Dom) (registry : Registry) (around : Location),
      Node.CoversAll [] (readNode captured registry around node).1
  | .doctype .., _, _ => by simp [readNode, Node.Covers]
  | .comment _, _, _ => by simp [readNode]
  | .text text, registry, around => by
      rw [readNode]
      exact readPieces_covers captured registry around (textPieces text)
  | .element _ name attributes children, registry, around => by
      rw [readNode]
      dsimp only
      split
      · exact readExpression_covers captured registry _
      · have below := readNodes_covers captured children
          (readAttributes captured registry (elementLocation around attributes) attributes).2
          (elementLocation around attributes)
        rw [elementNode]
        split <;> simp [Node.Covers, below]

theorem readNodes_covers (captured : List Captured) :
    ∀ (nodes : List Markup.Dom) (registry : Registry) (around : Location),
      Node.CoversAll [] (readNodes captured registry around nodes).1
  | [], _, _ => Node.coversAll_nil _
  | node :: rest, registry, around => by
      rw [readNodes]
      exact Node.coversAll_append.mpr ⟨readNode_covers captured node registry around,
        readNodes_covers captured rest _ around⟩

end

/-! ## Templates name no loops -/

theorem readAttributes_enclosed (captured : List Captured) (registry : Registry)
    (element : Location) (attributes : List (String × String)) :
    ∀ attr ∈ (readAttributes captured registry element attributes).1, attr.Enclosed [] := by
  have one (registry : Registry) (name raw : String) :
      (readAttribute captured registry element name raw).1.Enclosed [] := by
    rw [readAttribute]
    split <;> simp [Attribute.Enclosed, AttributeValue.expressions]
  induction attributes generalizing registry with
  | nil => simp [readAttributes]
  | cons attr rest induction =>
      rw [readAttributes]
      split
      · exact induction registry
      · exact List.forall_mem_cons.mpr ⟨one registry _ _, induction _⟩

theorem readExpression_enclosed (captured : List Captured) (registry : Registry)
    (number? : Option Nat) :
    Node.EnclosedAll [] (readExpression captured registry number?).1 := by
  rw [readExpression]
  split <;> simp [Node.Enclosed]

theorem readPieces_enclosed (captured : List Captured) (registry : Registry) (location : Location)
    (pieces : List Piece) :
    Node.EnclosedAll [] (readPieces captured registry location pieces).1 := by
  induction pieces generalizing registry with
  | nil => exact Node.enclosedAll_nil _
  | cons piece rest induction =>
      cases piece with
      | plain text =>
          simp only [readPieces]
          split
          · exact induction registry
          · exact Node.enclosedAll_cons.mpr ⟨by simp [Node.Enclosed], induction registry⟩
      | placeholder digits =>
          simp only [readPieces]
          exact Node.enclosedAll_append.mpr
            ⟨readExpression_enclosed captured registry _, induction _⟩

mutual

theorem readNode_enclosed (captured : List Captured) :
    ∀ (node : Markup.Dom) (registry : Registry) (around : Location),
      Node.EnclosedAll [] (readNode captured registry around node).1
  | .doctype .., _, _ => by simp [readNode, Node.Enclosed]
  | .comment _, _, _ => by simp [readNode]
  | .text text, registry, around => by
      rw [readNode]
      exact readPieces_enclosed captured registry around (textPieces text)
  | .element _ name attributes children, registry, around => by
      rw [readNode]
      dsimp only
      split
      · exact readExpression_enclosed captured registry _
      · have header := readAttributes_enclosed captured registry
          (elementLocation around attributes) attributes
        have below := readNodes_enclosed captured children
          (readAttributes captured registry (elementLocation around attributes) attributes).2
          (elementLocation around attributes)
        rw [Node.enclosedAll_cons, elementNode]
        split
        · rw [Node.Enclosed]
          exact ⟨⟨Scope.inside_none _, header, below⟩, Node.enclosedAll_nil _⟩
        · rw [Node.Enclosed]
          exact ⟨⟨Scope.inside_none _, header, below⟩, Node.enclosedAll_nil _⟩

theorem readNodes_enclosed (captured : List Captured) :
    ∀ (nodes : List Markup.Dom) (registry : Registry) (around : Location),
      Node.EnclosedAll [] (readNodes captured registry around nodes).1
  | [], _, _ => Node.enclosedAll_nil _
  | node :: rest, registry, around => by
      rw [readNodes]
      exact Node.enclosedAll_append.mpr ⟨readNode_enclosed captured node registry around,
        readNodes_enclosed captured rest _ around⟩

end

/-! ## Whole templates -/

theorem expressionsOfList_filter_text (nodes : List Node) :
    Node.expressionsOfList (nodes.filter (!·.isBlankText)) = Node.expressionsOfList nodes := by
  induction nodes with
  | nil => rfl
  | cons node rest induction =>
      rw [List.filter_cons]
      split
      · rw [Node.expressionsOfList, Node.expressionsOfList, induction]
      · rename_i blank
        -- only text is ever blank, and text has no expressions
        cases node with
        | text value site => simpa [Node.expressionsOfList, Node.expressions] using induction
        | _ => simp [Node.isBlankText] at blank

theorem coversAll_filter {required : List String} {nodes : List Node} (keep : Node → Bool)
    (covers : Node.CoversAll required nodes) : Node.CoversAll required (nodes.filter keep) := by
  induction nodes with
  | nil => exact covers
  | cons node rest induction =>
      rw [Node.coversAll_cons] at covers
      rw [List.filter_cons]
      split
      · exact Node.coversAll_cons.mpr ⟨covers.1, induction covers.2⟩
      · exact induction covers.2

/-- The nodes of a template are those read from some document, without blank text. -/
theorem parse_nodes {source file : String} {template : Template} {after : Registry}
    (ok : parse source file registry = .ok (template, after)) :
    ∃ captured content,
      template.nodes = (readNodes captured registry {} content).1.filter (!·.isBlankText) ∧
        after = (readNodes captured registry {} content).2 := by
  unfold parse at ok
  split at ok
  · cases ok
  · cases ok
    exact ⟨_, _, rfl, rfl⟩

/-- Every expression of a template is new. -/
theorem parse_pass {source file : String} {template : Template} {after : Registry}
    (reachable : registry.Reachable)
    (ok : parse source file registry = .ok (template, after)) :
    Pass Anything registry [] after (Node.expressionsOfList template.nodes) := by
  obtain ⟨captured, content, nodes_eq, rfl⟩ := parse_nodes ok
  rw [nodes_eq, expressionsOfList_filter_text]
  exact readNodes_pass captured content {} reachable

theorem parse_covers {source file : String} {template : Template} {after : Registry}
    (ok : parse source file registry = .ok (template, after)) :
    Node.CoversAll [] template.nodes := by
  obtain ⟨captured, content, nodes_eq, -⟩ := parse_nodes ok
  rw [nodes_eq]
  exact coversAll_filter _ (readNodes_covers captured content registry {})

theorem parse_enclosed {source file : String} {template : Template} {after : Registry}
    (ok : parse source file registry = .ok (template, after)) :
    Node.EnclosedAll [] template.nodes := by
  obtain ⟨captured, content, nodes_eq, -⟩ := parse_nodes ok
  rw [nodes_eq, Node.enclosedAll_iff]
  intro node member
  exact Node.enclosedAll_iff.mp (readNodes_enclosed captured content registry {}) node
    (List.mem_filter.mp member).1

end Template
end ReactiveTemplate
