import ReactiveTemplate.Proofs.Diagnostic
import ReactiveTemplate.Proofs.Markup.Shown
import ReactiveTemplate.Proofs.Tree.Everywhere
import ReactiveTemplate.Template.Parse

/-!
# What is read from a document

A property that the nodes of a template have one by one, whatever is below them, follows from what
the document shows: its elements become elements and usages, its texts are cut into pieces, and
placeholders become the code that was taken out.
-/

namespace ReactiveTemplate
namespace Template

open Markup (Dom)
open Node (Everywhere)

/-! ## Pieces -/

/-- The characters of plain pieces are characters of the text. -/
theorem plain_subset {opening closing : List Char} {skip : Nat} {text plain : List Char}
    (member : Piece.plain plain ∈ piecesFrom opening closing skip text) : plain ⊆ text := by
  induction text generalizing skip plain with
  | nil =>
      rw [piecesFrom] at member
      cases member
  | cons c rest induction =>
      have later {skip : Nat} {plain : List Char}
          (member : Piece.plain plain ∈ piecesFrom opening closing skip rest) : plain ⊆ c :: rest :=
        List.subset_cons_of_subset c (induction member)
      cases skip with
      | succ skip => exact later member
      | zero =>
          rw [piecesFrom] at member
          split at member
          · exact (List.mem_cons.mp member).elim nofun later
          · unfold Piece.cons at member
            split at member
            · rename_i first others pieces_eq
              rcases List.mem_cons.mp member with same | member
              · cases same
                exact List.cons_subset_cons c (induction (pieces_eq ▸ List.mem_cons_self))
              · exact later (pieces_eq ▸ List.mem_cons_of_mem _ member)
            · rcases List.mem_cons.mp member with same | member
              · cases same
                exact List.cons_subset_cons c (List.nil_subset rest)
              · exact later member

/-! ## Documents -/

mutual

theorem contentOf_shows {pair : String × String → Prop} {char : Char → Prop} :
    ∀ {node : Dom}, Dom.Shows pair char node → Dom.AllShow pair char (contentOf node)
  | .element _ name attributes children, shows => by
      rw [contentOf]
      split
      · exact contentOfAll_shows shows.2
      · exact ⟨shows, trivial⟩
  | .text _, shows => ⟨shows, trivial⟩
  | .doctype .., _ | .comment _, _ => trivial

theorem contentOfAll_shows {pair : String × String → Prop} {char : Char → Prop} :
    ∀ {nodes : List Dom}, Dom.AllShow pair char nodes → Dom.AllShow pair char (contentOfAll nodes)
  | [], _ => trivial
  | node :: rest, shows => by
      rw [contentOfAll]
      exact Dom.allShow_append.mpr ⟨contentOf_shows shows.1, contentOfAll_shows shows.2⟩

end

/-- A template is read from a draft. -/
theorem exists_draft {source file : String} {registry after : Registry} {template : Template}
    (ok : parse source file registry = .ok (template, after)) :
    ∃ draft, Draft.ofSource source.toList = .ok draft := by
  unfold parse at ok
  split at ok
  · cases ok
  · exact ⟨_, reportIn_eq_ok.mp ‹_›⟩

/-- What is read from attributes and characters of some kind has a property. -/
structure Reads (captured : List Captured) (pair : String × String → Prop) (char : Char → Prop)
    (own : Node → Prop) : Prop where
  /-- Code that was taken out has it. -/
  expression : ∀ found ∈ captured, ∀ id, own (.expression ⟨id, found.code, found.location, none⟩)
  /-- Text has it. -/
  text : ∀ text : List Char, (∀ c ∈ text, char c) → ∀ site, own (.text (String.ofList text) site)
  /-- The document type has it. -/
  doctype : ∀ name publicId systemId location, own (.doctype name publicId systemId location)
  /-- Elements and usages have it. -/
  element : ∀ attributes, (∀ entry ∈ attributes, pair entry) →
    ∀ registry location name children,
      own (elementNode name (readAttributes captured registry location attributes).1 children
        location)

namespace Reads

variable {captured : List Captured} {pair : String × String → Prop} {char : Char → Prop}
  {own : Node → Prop}

theorem readExpression (reads : Reads captured pair char own) (registry : Registry)
    (number? : Option Nat) :
    Everywhere own (readExpression captured registry number?).1 := by
  rw [Template.readExpression]
  split
  · rename_i code location found
    obtain ⟨number, -, there⟩ := Option.bind_eq_some_iff.mp found
    rw [Node.everywhere_singleton]
    exact ⟨reads.expression _ (List.mem_of_getElem? there) _, List.forall_mem_nil _⟩
  · exact Node.everywhere_nil

theorem readPieces (reads : Reads captured pair char own) {pieces : List Piece}
    (plain : ∀ text, Piece.plain text ∈ pieces → ∀ c ∈ text, char c) (registry : Registry)
    (location : Location) :
    Everywhere own (readPieces captured registry location pieces).1 := by
  induction pieces generalizing registry with
  | nil => exact Node.everywhere_nil
  | cons piece rest induction =>
      have later := induction fun text member => plain text (List.mem_cons_of_mem _ member)
      cases piece with
      | plain text =>
          simp only [Template.readPieces]
          split
          · exact later registry
          · exact Node.everywhere_cons.mpr
              ⟨⟨reads.text text (plain text List.mem_cons_self) _, List.forall_mem_nil _⟩,
                later registry⟩
      | placeholder digits =>
          simp only [Template.readPieces]
          exact Node.everywhere_append.mpr ⟨reads.readExpression registry _, later _⟩

mutual

theorem readNode (reads : Reads captured pair char own) :
    ∀ {node : Dom}, Dom.Shows pair char node → ∀ (registry : Registry) (around : Location),
      Everywhere own (readNode captured registry around node).1
  | .doctype .., _, _, _ => by
      rw [Template.readNode, Node.everywhere_singleton]
      exact ⟨reads.doctype .., List.forall_mem_nil _⟩
  | .comment _, _, _, _ => by
      rw [Template.readNode]
      exact Node.everywhere_nil
  | .text content, shows, registry, around => by
      rw [Template.readNode]
      exact reads.readPieces (fun _ member c inside => shows c (plain_subset member inside)) _ _
  | .element _ tag attributes children, shows, registry, around => by
      rw [Template.readNode]
      dsimp only
      split
      · exact reads.readExpression _ _
      · rw [Node.everywhere_singleton]
        refine ⟨reads.element _ shows.1 .., ?_⟩
        have below := readNodes reads shows.2
          (readAttributes captured registry (elementLocation around attributes) attributes).2
          (elementLocation around attributes)
        rw [elementNode]
        split <;>
        · rw [Node.childLists, List.forall_mem_singleton]
          exact below

/-- The property holds of all nodes that are read from a document. -/
theorem readNodes (reads : Reads captured pair char own) :
    ∀ {nodes : List Dom}, Dom.AllShow pair char nodes → ∀ (registry : Registry) (around : Location),
      Everywhere own (readNodes captured registry around nodes).1
  | [], _, _, _ => Node.everywhere_nil
  | node :: rest, shows, registry, around => by
      rw [Template.readNodes]
      exact Node.everywhere_append.mpr
        ⟨readNode reads shows.1 registry around, readNodes reads shows.2 _ around⟩

end

/-- The property holds of all nodes of a template. -/
theorem parse (reads : Reads captured pair char own) {source file : String} {draft : Draft}
    {registry after : Registry} {template : Template}
    (read : Draft.ofSource source.toList = .ok draft) (captured_eq : draft.captured = captured)
    (shows : Dom.AllShow pair char (Markup.document draft.markup))
    (ok : Template.parse source file registry = .ok (template, after)) :
    Everywhere own template.nodes := by
  have content : Dom.AllShow pair char
      (if isFullDocument source.toList then Markup.document draft.markup
        else contentOfAll (Markup.document draft.markup)) := by
    split
    · exact shows
    · exact contentOfAll_shows shows
  rw [Template.parse, reportIn_eq_ok.mpr read] at ok
  dsimp only at ok
  cases ok
  rw [captured_eq]
  exact (reads.readNodes content registry {}).filter _

end Reads
end Template
end ReactiveTemplate
