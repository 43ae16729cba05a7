import ReactiveTemplate.Proofs.Fragment.Lowering
import ReactiveTemplate.Proofs.Fragment.Provenance
import ReactiveTemplate.Proofs.Source.Places
import ReactiveTemplate.Proofs.Tree.Balance

/-!
# Where lowered code stands

Lowering takes the code of an expression apart, and every part is given a location: that of the
code, moved on over the characters in front of the part.  Parts of parts are found in the same way,
so that whatever is read, registered or lowered in the end stands where its location says.
-/

namespace ReactiveTemplate
namespace Fragment

open Node (Everywhere Local)

/-- The code of the expression stands where its location says. -/
def Placed (code : List Char) (start : Location) (e : Expression) : Prop :=
  Stands code start e.code.toList e.location

/-- Expressions, tags and the expressions in attributes stand where their locations say. -/
def NodePlaced (code : List Char) (start : Location) : Node → Prop
  | .expression e => Placed code start e
  | .element tag attributes _ site | .component tag attributes _ site =>
    Stands code start ('<' :: tag.toList) site.location ∧
      ∀ e ∈ Attribute.expressions attributes, Placed code start e
  | _ => True

theorem nodePlaced_local (code : List Char) (start : Location) : Local (NodePlaced code start) := by
  intro node
  cases node <;> exact Iff.rfl

/-- Every entry was there before, or stands where its location says. -/
def Adds (code : List Char) (start : Location) (before after : Registry) : Prop :=
  ∀ entry ∈ after.expressions, entry ∈ before.expressions ∨ Placed code start entry

/-- Nodes and new entries stand where their locations say. -/
structure Places (code : List Char) (start : Location) (before : Registry) (nodes : List Node)
    (after : Registry) : Prop where
  /-- The nodes, at every depth. -/
  placed : Everywhere (NodePlaced code start) nodes
  /-- The entries. -/
  adds : Adds code start before after

section

variable {code : List Char} {start place : Location} {before middle after : Registry}
variable {left right nodes : List Node}

namespace Adds

theorem refl (code : List Char) (start : Location) (registry : Registry) :
    Adds code start registry registry := fun _ member => .inl member

theorem trans (first : Adds code start before middle) (second : Adds code start middle after) :
    Adds code start before after := fun entry member =>
  (second entry member).elim (first entry) .inr

theorem register {code' : String} (stands : Stands code start code'.toList place) (kind : String)
    (scope : Option Scope) :
    Adds code start before (before.register kind code' place scope).2 := by
  intro entry member
  rcases List.mem_append.mp member with old | new
  · exact .inl old
  · obtain rfl := List.mem_singleton.mp new
    exact .inr stands

theorem remove (adds : Adds code start before after) (id : String) :
    Adds code start before (after.remove id) := fun entry member =>
  adds entry (List.mem_of_mem_filter member)

end Adds

namespace Places

theorem nil (code : List Char) (start : Location) (registry : Registry) :
    Places code start registry [] registry :=
  ⟨Node.everywhere_nil, .refl code start registry⟩

theorem append (first : Places code start before left middle)
    (second : Places code start middle right after) :
    Places code start before (left ++ right) after :=
  ⟨Node.everywhere_append.mpr ⟨first.placed, second.placed⟩, first.adds.trans second.adds⟩

theorem element {name : List Char} {attributes : List Attribute} {scope : Option Scope}
    (tag : Stands code start ('<' :: name) place)
    (placed : ∀ e ∈ Attribute.expressions attributes, Placed code start e)
    (below : Places code start before nodes after) :
    Places code start before
      [elementNode (String.ofList name) attributes nodes ⟨place, scope⟩] after := by
  have own : NodePlaced code start
      (elementNode (String.ofList name) attributes nodes ⟨place, scope⟩) := by
    rw [elementNode]
    split <;> exact ⟨by rwa [String.toList_ofList], placed⟩
  refine ⟨Node.everywhere_singleton.mpr ⟨own, ?_⟩, below.adds⟩
  rw [elementNode]
  split <;> simpa [Node.childLists] using below.placed

end Places

end

/-! ## Reading markup -/

variable {code text raw : List Char} {start location place : Location} {scope : Option Scope}
variable {registry after : Registry} {nodes : List Node}

theorem registerCode_placed (scope : Option Scope) (registry : Registry)
    (stands : Stands code start raw location) :
    Placed code start (registerCode scope registry location raw).1 ∧
      Adds code start registry (registerCode scope registry location raw).2 := by
  have trimmed := stands.trim.ofList
  exact ⟨trimmed, .register trimmed "expr" scope⟩

theorem readValue_placed {name : String} {nameLocation : Location} {read : ReadValue}
    (stands : Stands code start text location)
    (ok : readValue scope registry name nameLocation location text = .ok read) :
    (∀ e ∈ read.value.expressions, Placed code start e) ∧
      Adds code start registry read.registry := by
  have fixed {value : String} : ∀ e ∈ (AttributeValue.fixed value).expressions,
      Placed code start e := fun e member => by cases member
  unfold readValue at ok
  split at ok
  · rename_i rest
    split at ok
    · cases ok
    · rename_i length closing
      cases ok
      have inside : Stands code start (rest.take length) (location.next '{') :=
        stands.tail.starts (List.take_prefix length rest)
      obtain ⟨own, adds⟩ := registerCode_placed scope registry inside
      refine ⟨fun e member => ?_, adds⟩
      obtain rfl := List.mem_singleton.mp member
      exact own
  · cases ok
    exact ⟨fixed, .refl _ _ _⟩
  · split at ok
    · cases ok
      exact ⟨fixed, .refl _ _ _⟩
    · split at ok
      · cases ok
        exact ⟨fixed, .refl _ _ _⟩
      · cases ok
        exact ⟨fixed, .refl _ _ _⟩

theorem readAssignment_placed {name : String} {nameLocation : Location} {read : ReadValue}
    (stands : Stands code start text location)
    (ok : readAssignment scope registry name nameLocation location text = .ok read) :
    (∀ e ∈ read.value.expressions, Placed code start e) ∧
      Adds code start registry read.registry := by
  unfold readAssignment at ok
  dsimp only at ok
  split at ok
  · rename_i rest equals
    split at ok
    · rename_i value read_ok
      have sign := stands.skip Code.isAsciiSpace
      rw [equals] at sign
      have behind := sign.tail.skip Code.isAsciiSpace
      rw [← Location.advance_cons, ← Location.advance_append] at behind
      have placed := readValue_placed behind read_ok
      cases ok
      exact placed
    · cases ok
  · cases ok
    exact ⟨fun e member => (by cases member), .refl _ _ _⟩

theorem readHeader_placed {skip : Nat} {header : Header} (stands : Stands code start text location)
    (ok : readHeader scope registry location skip text = .ok header) :
    (∀ e ∈ Attribute.expressions header.attributes, Placed code start e) ∧
      Adds code start registry header.registry := by
  fun_induction readHeader scope registry location skip text generalizing header with
  | case1 | case4 | case5 =>
      cases ok
      exact ⟨fun e member => (by cases member), .refl _ _ _⟩
  | case2 | case9 =>
      rename_i later inner induction
      have rest := induction stands.tail inner
      cases ok
      exact rest
  | case7 =>
      rename_i c rest _ _ _ more name read read_ok later inner induction
      obtain ⟨own, read_adds⟩ := readAssignment_placed (stands.tail.skip continuesName) read_ok
      obtain ⟨others, adds⟩ := induction stands.tail inner
      cases ok
      rw [Header.cons, Attribute.expressions_cons, List.forall_mem_append]
      exact ⟨⟨own, others⟩, read_adds.trans adds⟩
  | case3 | case6 | case8 | case10 => cases ok

theorem textNodes_placed (raw : List Char) :
    Everywhere (NodePlaced code start) (textNodes scope location raw) := by
  unfold textNodes
  dsimp only
  by_cases empty : (if raw.contains '\n' then Text.trim raw else raw).isEmpty
  · rw [if_pos empty]
    exact Node.everywhere_nil
  · rw [if_neg empty, Node.everywhere_singleton]
    exact ⟨trivial, fun below member => by cases member⟩

theorem codeNodes_places (scope : Option Scope) (registry : Registry)
    (stands : Stands code start raw location) :
    Places code start registry (codeNodes scope registry location raw).1
      (codeNodes scope registry location raw).2 := by
  rw [codeNodes]
  split
  · exact .nil code start registry
  · obtain ⟨own, adds⟩ := registerCode_placed scope registry stands
    refine ⟨Node.everywhere_singleton.mpr ⟨own, fun below member => ?_⟩, adds⟩
    cases member

/-- The children of an element stand in it where they are read. -/
theorem insideRange_stands {element : List Char} {c : Char} (closed : Bool) (name : List Char)
    (header : Header) (stands : Stands code start (c :: element) place) :
    let range := insideRange closed (c :: element) name header
    Stands code start (Text.slice element (range.1 - 1) (range.2 - 1))
      (place.advance ((c :: element).take range.1)) := by
  have nothing : (insideRange closed (c :: element) name header).1 = 0 →
      (insideRange closed (c :: element) name header).2 = 0 := by
    rw [insideRange]
    split
    · exact fun _ => rfl
    · rw [childrenRange]
      split
      · intro first
        dsimp only at first ⊢
        omega
      · split
        · exact fun _ => rfl
        · intro first
          dsimp only at first
          omega
  generalize insideRange closed (c :: element) name header = range at nothing
  obtain ⟨first, last⟩ := range
  cases first with
  | zero =>
      obtain rfl : last = 0 := nothing rfl
      exact stands.starts List.nil_prefix
  | succ first => exact stands.tail.slice first (last - 1)

/-- Nodes that are read stand where they are read. -/
theorem readChildren_places {closed : Bool} (stands : Stands code start text location)
    (ok : readChildren scope closed registry location text = .ok (nodes, after)) :
    Places code start registry nodes after := by
  induction size : text.length using Nat.strongRecOn
    generalizing closed text registry location nodes after with
  | _ size induction =>
  subst size
  have plain : Places code start registry (textNodes scope location (plainLead text)) registry :=
    ⟨textNodes_placed _, .refl code start registry⟩
  rw [← plainLead_append_afterLead text] at stands
  have found := stands.behind
  rcases readChildren_steps ok with ⟨-, rfl, rfl⟩ |
    ⟨rest, length, tail, brace, -, shorter, rest_ok, rfl⟩ |
    ⟨c, rest, stop, header, children, middle, tail, other, element, -, header_ok, smaller, shorter,
      inside_ok, rest_ok, rfl⟩
  · exact plain
  · rw [brace] at found
    have own := codeNodes_places scope registry
      (found.tail.starts (List.take_prefix length rest))
    have behind := induction _ shorter (found.drop (length + 2)) rest_ok rfl
    exact (plain.append own).append behind
  · obtain rfl := eq_angle_of_afterLead other element
    rw [element] at found
    have inside := found.starts
      ((List.prefix_cons_inj '<').mpr (List.take_prefix (stop - 1) rest))
    have below := induction _ smaller (insideRange_stands _ _ _ inside) inside_ok rfl
    have behind := induction _ shorter (found.drop (stop - 1 + 1)) rest_ok rfl
    refine (plain.append ?_).append behind
    split at header_ok
    · rename_i nameless
      cases header_ok
      rw [if_pos nameless]
      exact below
    · rename_i named
      have name := tagName_prefix (rest.take (stop - 1))
      have opening := inside.tail.drop (tagName (rest.take (stop - 1))).length
      rw [← List.prefix_iff_eq_take.mp name, ← Location.advance_cons] at opening
      obtain ⟨attributes, adds⟩ := readHeader_placed opening header_ok
      have tag := inside.starts ((List.prefix_cons_inj '<').mpr name)
      rw [if_neg named]
      exact Places.element tag attributes ⟨below.placed, adds.trans below.adds⟩

/-! ## Lowering -/

/-- Whatever is lowered stands in the code where it is said to be. -/
def standing (code : List Char) (start : Location) : Invariant where
  fits := Stands code start
  read := NodePlaced code start
  left := NodePlaced code start
  related := Adds code start

theorem standing_kept (code : List Char) (start : Location) : (standing code start).Kept where
  isLocal := nodePlaced_local code start
  refl := .refl code start
  trans := .trans
  register stands _ kind scope := .register stands.ofList kind scope
  remove registry := .remove (.refl code start registry)
  part stands count begins := (stands.drop count).starts begins
  markup stands ok :=
    have ⟨placed, adds⟩ := readChildren_places stands ok
    ⟨placed, adds⟩
  code placed := placed
  stays placed _ := placed
  plain stands _ := stands
  fragment {node} made := by
    cases node with
    | conditional | optional | loop => exact trivial
    | _ => cases made

end Fragment

/-! ## Heads -/

theorem Node.mem_expressions_of_head? {node : Node} {head : Expression}
    (headed : node.head? = some head) : head ∈ node.expressions := by
  cases node with
  | conditional | optional | loop =>
      cases headed
      exact List.mem_cons_self
  | _ => cases headed

namespace Fragment

open Node (Everywhere)

/-- Lowering an expression keeps the places of its parts.  What is shown stands in its code where
the location says, and so do tags, the code of attributes, and the entries of heads, which are there
unless the id of the expression was never issued. -/
theorem lowerExpression_places {e : Expression} {registry after : Registry} {nodes : List Node}
    (ok : lowerExpression e registry = .ok (nodes, after)) :
    Everywhere (NodePlaced e.code.toList e.location) nodes ∧
      (registry.Reachable → ∀ node ∈ Node.allNodesOfList nodes, ∀ head, node.head? = some head →
        (registry.Issued e.id → ∃ entry, after.get? head.id = some entry) ∧
          ∀ entry, after.get? head.id = some entry →
            entry.code = head.code ∧ Placed e.code.toList e.location entry) := by
  obtain ⟨placed, adds⟩ :=
    Invariant.lowerExpression_keptBy (standing_kept _ _) (Stands.self _ _) ok
  refine ⟨placed, fun reachable node member head headed => ?_⟩
  have listed : head ∈ Node.expressionsOfList nodes :=
    Node.expressions_subset_of_mem member (Node.mem_expressions_of_head? headed)
  rw [lowerExpression, lowerWithin] at ok
  rcases lowerShape_made (lowerWithin_sound _) reachable ok with ⟨rfl, rfl⟩ | ⟨made, pass, rfl⟩
  · obtain rfl := List.mem_singleton.mp member
    cases headed
  · obtain ⟨own, found, code, -⟩ := pass.keeps.held head listed
    have new : ¬ registry.Issued head.id := by
      simpa using pass.origin head listed
    constructor
    · intro issued
      have apart : head.id ≠ e.id := fun same => new (same ▸ issued)
      exact ⟨own, (Registry.get?_remove_of_ne apart).trans found⟩
    · intro entry left
      have apart : head.id ≠ e.id := by
        rintro same
        rw [same, Registry.get?_remove_self] at left
        cases left
      have same : own = entry := by
        rw [Registry.get?_remove_of_ne apart, found] at left
        exact Option.some.inj left
      refine ⟨same ▸ code, (adds entry (List.mem_of_find?_eq_some left)).resolve_left fun old => ?_⟩
      apply new
      rw [← Registry.id_of_get? left]
      exact reachable.issued_of_mem (List.mem_map_of_mem old)

/-- A loop over several lines, whose body is returned by a block and in parentheses. -/
def rowsInBlock : Expression :=
  ⟨"expr_0",
    "rows.map(row => \x7b\n  return (\n" ++
      "    <li class={row.kind}>{row.ok ? <b/> : (<i/>)}</li>);\n\x7d)",
    ⟨2, 5⟩, none⟩

/-- The items are on the third line of the loop. -/
theorem lowerExpression_places_rows :
    let registry := (({} : Registry).register "expr" rowsInBlock.code rowsInBlock.location none).2
    registry.Reachable ∧ registry.Issued rowsInBlock.id ∧
    ∃ nodes after, lowerExpression rowsInBlock registry = .ok (nodes, after) ∧
      (Node.allNodesOfList nodes).map Node.location =
        [⟨2, 5⟩, ⟨4, 5⟩, ⟨4, 27⟩, ⟨4, 36⟩, ⟨4, 44⟩] ∧
      after.expressions.map (fun entry => (entry.id, entry.location)) =
        [("loop_1", ⟨2, 5⟩), ("expr_2", ⟨4, 16⟩), ("cond_4", ⟨4, 27⟩)] ∧
      Everywhere (NodePlaced rowsInBlock.code.toList rowsInBlock.location) nodes ∧
      ∀ node ∈ Node.allNodesOfList nodes, ∀ head, node.head? = some head →
        ∃ entry, after.get? head.id = some entry ∧ entry.code = head.code ∧
          Placed rowsInBlock.code.toList rowsInBlock.location entry := by
  intro registry
  have reachable : registry.Reachable := .register "expr" _ _ _ .empty
  have issued : registry.Issued rowsInBlock.id := ⟨"expr", 0, by decide, by decide +kernel⟩
  have evaluates : (lowerExpression rowsInBlock registry).toOption.any (fun lowered =>
      ((Node.allNodesOfList lowered.1).map Node.location ==
        [⟨2, 5⟩, ⟨4, 5⟩, ⟨4, 27⟩, ⟨4, 36⟩, ⟨4, 44⟩]) &&
      (lowered.2.expressions.map (fun entry => (entry.id, entry.location)) ==
        [("loop_1", ⟨2, 5⟩), ("expr_2", ⟨4, 16⟩), ("cond_4", ⟨4, 27⟩)])) = true := by
    decide +kernel
  obtain ⟨⟨nodes, after⟩, ok, located⟩ := exists_ok _ evaluates
  rw [Bool.and_eq_true, beq_iff_eq, beq_iff_eq] at located
  obtain ⟨placed, heads⟩ := lowerExpression_places ok
  refine ⟨reachable, issued, nodes, after, ok, located.1, located.2, placed, ?_⟩
  intro node member head headed
  obtain ⟨there, stands⟩ := heads reachable node member head headed
  obtain ⟨entry, found⟩ := there issued
  exact ⟨entry, found, stands entry found⟩

end Fragment
end ReactiveTemplate
