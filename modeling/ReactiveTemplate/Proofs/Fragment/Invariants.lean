import ReactiveTemplate.Proofs.Code.Derivation
import ReactiveTemplate.Proofs.Diagnostic
import ReactiveTemplate.Proofs.Tree.Everywhere
import ReactiveTemplate.Fragment.Lowering

/-!
# What lowering keeps

Lowering goes down through code: it takes an expression apart, reads the markup that it finds,
lowers the nodes that it has read, and so on.  An invariant says what holds of the texts on the way,
of the nodes that are read from them and of the nodes that are left in the end, and how registries
are related.  If every single step keeps it, then so does the whole of lowering.
-/

namespace ReactiveTemplate

/-- The head of a fragment: the condition, or the list that it repeats for. -/
def Node.head? : Node → Option Expression
  | .conditional id code _ _ site | .optional id code _ site | .loop id code _ _ site =>
    some ⟨id, code, site.location, site.scope⟩
  | _ => none

namespace Fragment

open Node (Everywhere Local)

/-- There is no markup in the code of the attributes. -/
def Plain (attributes : List Attribute) : Prop :=
  ∀ e ∈ Attribute.expressions attributes, Code.findsMarkup? e.code.toList = some false

theorem checkAttributes_eq_ok {attributes : List Attribute} {done : Unit} :
    checkAttributes attributes = .ok done ↔ Plain attributes := by
  induction attributes with
  | nil => simp [checkAttributes, Plain]
  | cons attr rest induction =>
      rw [checkAttributes, checkAttribute]
      unfold Plain at induction ⊢
      rw [Attribute.expressions_cons, List.forall_mem_append, ← induction]
      cases value : attr.value with
      | fixed text => simp [AttributeValue.expressions]
      | dynamic e =>
          cases markup : Code.findsMarkup? e.code.toList with
          | none => simp [AttributeValue.expressions, markup]
          | some found => cases found <;> simp [AttributeValue.expressions, markup]

/-- Lowering keeps the node, whatever it does below it. -/
def Stays : Node → Prop
  | .expression _ => False
  | .element _ attributes _ _ | .component _ attributes _ _ => Plain attributes
  | _ => True

/-- What is said of texts, nodes and registries while code is lowered. -/
structure Invariant where
  /-- Of a text at its location. -/
  fits : List Char → Location → Prop
  /-- Of a node that is read. -/
  read : Node → Prop
  /-- Of a node that is left. -/
  left : Node → Prop
  /-- Of the registries before and after. -/
  related : Registry → Registry → Prop

namespace Invariant

/-- Of nodes that are left, at every depth, and of the registries before and after. -/
structure Holds (invariant : Invariant) (before : Registry) (nodes : List Node) (after : Registry) :
    Prop where
  /-- Of the nodes. -/
  left : Everywhere invariant.left nodes
  /-- Of the registries. -/
  related : invariant.related before after

/-- Every single step keeps the invariant. -/
structure Kept (invariant : Invariant) : Prop where
  /-- What is below a node that is left does not matter. -/
  isLocal : Local invariant.left
  /-- Nothing is done. -/
  refl : ∀ registry, invariant.related registry registry
  /-- One step comes after the other. -/
  trans : ∀ {before middle after}, invariant.related before middle →
    invariant.related middle after → invariant.related before after
  /-- A text is registered where it is. -/
  register : ∀ {text location}, invariant.fits text location → ∀ registry kind scope,
    invariant.related registry (registry.register kind (String.ofList text) location scope).2
  /-- An expression is removed. -/
  remove : ∀ registry id, invariant.related registry (registry.remove id)
  /-- A part is taken from a text. -/
  part : ∀ {text location part}, invariant.fits text location → ∀ count, part <+: text.drop count →
    invariant.fits part (location.advance (text.take count))
  /-- Markup is read. -/
  markup : ∀ {text location scope registry nodes after}, invariant.fits text location →
    readChildren scope false registry location text = .ok (nodes, after) →
    Everywhere invariant.read nodes ∧ invariant.related registry after
  /-- An expression that was read is lowered. -/
  code : ∀ {e}, invariant.read (.expression e) → invariant.fits e.code.toList e.location
  /-- A node that was read stays. -/
  stays : ∀ {node}, invariant.read node → Stays node → invariant.left node
  /-- An expression is left because it shows no markup. -/
  plain : ∀ {e}, invariant.fits e.code.toList e.location →
    Code.analyze e.code.toList = .primitive → invariant.left (.expression e)
  /-- A fragment is made. -/
  fragment : ∀ {node}, node.head?.isSome → invariant.left node

/-- What an expression is replaced with keeps the invariant. -/
def KeptBy (invariant : Invariant) (lowerOne : Expression → Action (List Node)) : Prop :=
  ∀ {e registry nodes after}, invariant.fits e.code.toList e.location →
    lowerOne e registry = .ok (nodes, after) → invariant.Holds registry nodes after

variable {invariant : Invariant} {lowerOne : Expression → Action (List Node)}
variable {registry before middle after : Registry} {nodes : List Node} {scope : Option Scope}

theorem Holds.follow (holds : invariant.Holds middle nodes after) (kept : invariant.Kept)
    (step : invariant.related before middle) : invariant.Holds before nodes after :=
  ⟨holds.left, kept.trans step holds.related⟩

theorem Holds.remove (holds : invariant.Holds before nodes after) (kept : invariant.Kept)
    (id : String) : invariant.Holds before nodes (after.remove id) :=
  ⟨holds.left, kept.trans holds.related (kept.remove after id)⟩

/-- A node stays, with other nodes below it. -/
theorem Kept.keeps (kept : invariant.Kept) {node node' : Node} (read : invariant.read node)
    (stays : Stays node) (same : node.bare = node'.bare) : invariant.left node' :=
  (kept.isLocal.congr same).mp (kept.stays read stays)

/-! ## Nodes -/

mutual

private theorem lowerNode_holds (one : invariant.KeptBy lowerOne) (kept : invariant.Kept) :
    ∀ {node : Node} {registry after : Registry} {nodes : List Node},
      Everywhere invariant.read [node] →
      lowerNode lowerOne node registry = .ok (nodes, after) → invariant.Holds registry nodes after
  | .expression e, registry, after, nodes, read, ok => by
      rw [lowerNode] at ok
      rw [Node.everywhere_singleton] at read
      exact one (kept.code read.1) ok
  | .element tag attributes children site, registry, after, nodes, read, ok
  | .component tag attributes children site, registry, after, nodes, read, ok => by
      simp only [lowerNode, bind_eq_ok, checkAttributes_eq_ok] at ok
      obtain ⟨-, plain, ⟨children', after'⟩, below_ok, ok⟩ := ok
      cases ok
      simp only [Node.everywhere_singleton, Node.childLists, List.forall_mem_singleton] at read
      have below := lowerNodes_holds one kept read.2 below_ok
      refine ⟨?_, below.related⟩
      simp only [Node.everywhere_singleton, Node.childLists, List.forall_mem_singleton]
      exact ⟨kept.keeps read.1 plain rfl, below.left⟩
  | .conditional id condition consequent alternate site, registry, after, nodes, read, ok => by
      simp only [lowerNode, bind_eq_ok] at ok
      obtain ⟨⟨consequent', middle⟩, first_ok, ⟨alternate', after'⟩, second_ok, ok⟩ := ok
      cases ok
      simp only [Node.everywhere_singleton, Node.childLists, List.forall_mem_cons] at read
      have first := lowerNodes_holds one kept read.2.1 first_ok
      have second := lowerNodes_holds one kept read.2.2.1 second_ok
      refine ⟨?_, kept.trans first.related second.related⟩
      simp only [Node.everywhere_singleton, Node.childLists, List.forall_mem_cons]
      exact ⟨kept.keeps read.1 trivial rfl, first.left, second.left, by simp⟩
  | .optional id condition branch site, registry, after, nodes, read, ok => by
      simp only [lowerNode, bind_eq_ok] at ok
      obtain ⟨⟨branch', after'⟩, below_ok, ok⟩ := ok
      cases ok
      simp only [Node.everywhere_singleton, Node.childLists, List.forall_mem_singleton] at read
      have below := lowerNodes_holds one kept read.2 below_ok
      refine ⟨?_, below.related⟩
      simp only [Node.everywhere_singleton, Node.childLists, List.forall_mem_singleton]
      exact ⟨kept.keeps read.1 trivial rfl, below.left⟩
  | .loop id source binder body site, registry, after, nodes, read, ok => by
      simp only [lowerNode, bind_eq_ok] at ok
      obtain ⟨⟨body', after'⟩, below_ok, ok⟩ := ok
      cases ok
      simp only [Node.everywhere_singleton, Node.childLists, List.forall_mem_singleton] at read
      have below := lowerNodes_holds one kept read.2 below_ok
      refine ⟨?_, below.related⟩
      simp only [Node.everywhere_singleton, Node.childLists, List.forall_mem_singleton]
      exact ⟨kept.keeps read.1 trivial rfl, below.left⟩
  | .text .., registry, after, nodes, read, ok | .doctype .., registry, after, nodes, read, ok => by
      rw [lowerNode] at ok
      cases ok
      rw [Node.everywhere_singleton] at read
      refine ⟨Node.everywhere_singleton.mpr ⟨kept.stays read.1 trivial, ?_⟩, kept.refl registry⟩
      simp [Node.childLists]

theorem lowerNodes_holds (one : invariant.KeptBy lowerOne) (kept : invariant.Kept) :
    ∀ {nodes : List Node} {registry after : Registry} {result : List Node},
      Everywhere invariant.read nodes → lowerNodes lowerOne nodes registry = .ok (result, after) →
      invariant.Holds registry result after
  | [], registry, after, result, _, ok => by
      rw [lowerNodes] at ok
      cases ok
      exact ⟨Node.everywhere_nil, kept.refl registry⟩
  | node :: rest, registry, after, result, read, ok => by
      simp only [lowerNodes, bind_eq_ok] at ok
      obtain ⟨⟨first', middle⟩, first_ok, ⟨rest', after'⟩, second_ok, ok⟩ := ok
      cases ok
      rw [Node.everywhere_head_tail] at read
      have first := lowerNode_holds one kept read.1 first_ok
      have second := lowerNodes_holds one kept read.2 second_ok
      exact ⟨Node.everywhere_append.mpr ⟨first.left, second.left⟩,
        kept.trans first.related second.related⟩

end

/-! ## Branches and shapes -/

theorem readBranch_holds (one : invariant.KeptBy lowerOne) (kept : invariant.Kept)
    {text : List Char} {location : Location} (fits : invariant.fits text location)
    (ok : readBranch lowerOne text location scope registry = .ok (nodes, after)) :
    invariant.Holds registry nodes after := by
  -- Parentheses and a block around the branch are left out.
  have inner := kept.part fits (Code.unwrap text).1
    (Text.slice_isPrefix text (Code.unwrap text).1 (Code.unwrap text).2)
  unfold readBranch at ok
  dsimp only at ok
  split at ok
  · cases ok
    exact ⟨Node.everywhere_nil, kept.refl registry⟩
  · split at ok
    · simp only [bind_eq_ok] at ok
      obtain ⟨⟨read, middle⟩, read_ok, ok⟩ := ok
      obtain ⟨markup, step⟩ := kept.markup inner read_ok
      exact (lowerNodes_holds one kept markup ok).follow kept step
    · refine (one ?_ ok).follow kept (kept.register inner registry "expr" scope)
      rwa [String.toList_ofList]

theorem lowerShape_holds (one : invariant.KeptBy lowerOne) (kept : invariant.Kept) {e : Expression}
    (fits : invariant.fits e.code.toList e.location)
    (ok : lowerShape lowerOne e (Code.analyze e.code.toList) registry = .ok (nodes, after)) :
    invariant.Holds registry nodes after := by
  -- Whatever the shape is, its segments are parts of the code.
  have segment (segment : Code.Segment)
      (member : segment ∈ (Code.analyze e.code.toList).segments) :
      invariant.fits segment.text (segmentLocation e segment) :=
    kept.part fits segment.start (Code.analyze_placed _ segment member)
  cases shape : Code.analyze e.code.toList with
  | primitive =>
      rw [shape] at ok
      cases ok
      refine ⟨Node.everywhere_singleton.mpr ⟨kept.plain fits shape, ?_⟩, kept.refl registry⟩
      simp [Node.childLists]
  | unknown | crash =>
      rw [shape] at ok
      cases ok
  | fragment markup =>
      simp only [shape, lowerShape, bind_eq_ok] at ok
      obtain ⟨⟨branch, middle⟩, branch_ok, ok⟩ := ok
      cases ok
      rw [shape, Code.Shape.segments, List.forall_mem_singleton] at segment
      exact (readBranch_holds one kept segment branch_ok).remove kept e.id
  | conditional condition consequent alternate =>
      simp only [shape, lowerShape, bind_eq_ok] at ok
      obtain ⟨⟨first, middle⟩, first_ok, ⟨second, last⟩, second_ok, ok⟩ := ok
      cases ok
      simp only [shape, Code.Shape.segments, List.forall_mem_cons] at segment
      obtain ⟨head, left_fits, right_fits, -⟩ := segment
      have left := readBranch_holds one kept left_fits first_ok
      have right := readBranch_holds one kept right_fits second_ok
      have step := kept.register head registry "cond" e.scope
      refine Holds.remove ⟨?_, kept.trans step (kept.trans left.related right.related)⟩ kept e.id
      simp only [Node.everywhere_singleton, Node.childLists, List.forall_mem_cons]
      exact ⟨kept.fragment rfl, left.left, right.left, by simp⟩
  | optional condition branch =>
      simp only [shape, lowerShape, bind_eq_ok] at ok
      obtain ⟨⟨nodes, middle⟩, below_ok, ok⟩ := ok
      cases ok
      simp only [shape, Code.Shape.segments, List.forall_mem_cons] at segment
      obtain ⟨head, branch_fits, -⟩ := segment
      have below := readBranch_holds one kept branch_fits below_ok
      have step := kept.register head registry "opt" e.scope
      refine Holds.remove ⟨?_, kept.trans step below.related⟩ kept e.id
      simp only [Node.everywhere_singleton, Node.childLists, List.forall_mem_singleton]
      exact ⟨kept.fragment rfl, below.left⟩
  | loop source binder body =>
      simp only [shape, lowerShape, bind_eq_ok] at ok
      obtain ⟨⟨nodes, middle⟩, below_ok, ok⟩ := ok
      cases ok
      simp only [shape, Code.Shape.segments, List.forall_mem_cons] at segment
      obtain ⟨head, body_fits, -⟩ := segment
      have below := readBranch_holds one kept body_fits below_ok
      have step := kept.register head registry "loop" e.scope
      refine Holds.remove ⟨?_, kept.trans step below.related⟩ kept e.id
      simp only [Node.everywhere_singleton, Node.childLists, List.forall_mem_singleton]
      exact ⟨kept.fragment rfl, below.left⟩

theorem lowerWithin_keptBy (kept : invariant.Kept) (depth : Nat) :
    invariant.KeptBy (lowerWithin depth) := by
  induction depth with
  | zero => exact fun _ ok => nomatch ok
  | succ depth induction => exact fun fits ok => lowerShape_holds induction kept fits ok

/-- An invariant that every step keeps holds of the fragment that an expression becomes. -/
theorem lowerExpression_keptBy (kept : invariant.Kept) : invariant.KeptBy lowerExpression :=
  fun fits ok => lowerWithin_keptBy kept _ fits ok

/-- An invariant that every step keeps holds of a template that has been lowered. -/
theorem lower_holds (kept : invariant.Kept) {result : List Node} {file : String}
    (read : Everywhere invariant.read nodes)
    (ok : lower nodes file registry = .ok (result, after)) :
    invariant.Holds registry result after :=
  lowerNodes_holds (lowerExpression_keptBy kept) kept read (reportIn_eq_ok.mp ok)

end Invariant
end Fragment
end ReactiveTemplate
