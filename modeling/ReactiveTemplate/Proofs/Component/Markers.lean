import Mathlib.Data.List.TakeWhile
import ReactiveTemplate.Proofs.Component.Content
import ReactiveTemplate.Proofs.Component.Marks
import ReactiveTemplate.Proofs.Component.Recursion

/-!
# Markers in their place

A usage whose name has a dot is a marker.  It is in its place where it stands directly in a usage of
the component that it is named after; a marker that is left anywhere else is refused.  Usages in the
content of markers and in instances are those of the page and of templates, so that only a marker
that was out of place to begin with is met by resolution.
-/

namespace ReactiveTemplate

open Component

/-- The name is that of a marker. -/
def isCompound (name : String) : Bool := name.toList.contains '.'

namespace Library

/-- A marker with the name, directly in a usage of the name `parent`, is for a slot that the
component of that very name declares. -/
def marks (library : Library) (parent : Option String) (name : String) : Bool :=
  match parent with
  | none => false
  | some own =>
    !isCompound own &&
      match library.lookup? own, markedSlot? own name with
      | some definition, some slot => definition.name == own && definition.slots.contains slot
      | _, _ => false

end Library

namespace Node

mutual

/-- The names of the markers in a node that are out of place, where the node stands directly in a
usage with the name `parent`. -/
def strays (library : Library) (parent : Option String) : Node → List String
  | component name _ children _ =>
    (if isCompound name && !library.marks parent name then [name] else []) ++
      straysOfList library (some name) children
  | element _ _ children _ | optional _ _ children _ | loop _ _ _ children _ =>
    straysOfList library none children
  | conditional _ _ consequent alternate _ =>
    straysOfList library none consequent ++ straysOfList library none alternate
  | text .. | expression _ | doctype .. => []

/-- The names of the markers in nodes that are out of place. -/
def straysOfList (library : Library) (parent : Option String) : List Node → List String
  | [] => []
  | node :: rest => strays library parent node ++ straysOfList library parent rest

end

section

variable {library : Library} {parent : Option String} {nodes nodes' : List Node} {name : String}

theorem straysOfList_append (left right : List Node) :
    straysOfList library parent (left ++ right) =
      straysOfList library parent left ++ straysOfList library parent right := by
  induction left with
  | nil => rfl
  | cons node rest induction =>
      rw [List.cons_append, straysOfList, straysOfList, induction, List.append_assoc]

theorem straysOfList_singleton (node : Node) :
    straysOfList library parent [node] = strays library parent node := by
  rw [straysOfList, straysOfList, List.append_nil]

/-- Nodes that are alike have the same markers out of place. -/
theorem Alike.straysOfList_eq {related : Expression → Expression → Prop}
    (alike : Alike related nodes nodes') :
    straysOfList library parent nodes' = straysOfList library parent nodes := by
  induction alike generalizing parent with
  | nil => rfl
  | element _ _ _ below behind | component _ _ _ below behind | optional _ _ _ below behind
  | loop _ _ _ below behind =>
      simp only [straysOfList, strays, below, behind]
  | conditional _ _ _ _ left right behind =>
      simp only [straysOfList, strays, left, right, behind]
  | text _ behind | expression _ _ behind | doctype _ behind =>
      simp only [straysOfList, strays, behind]

/-- Nothing but markers is asked for the usage that they stand in. -/
theorem straysOfList_congr {parent' : Option String}
    (same : ∀ name, library.marks parent name = library.marks parent' name) (nodes : List Node) :
    straysOfList library parent nodes = straysOfList library parent' nodes := by
  induction nodes with
  | nil => rfl
  | cons node rest induction =>
      rw [straysOfList, straysOfList, induction]
      cases node with
      | component => simp only [strays, same]
      | _ => rfl

/-- Directly in a marker there is no place for another one. -/
theorem straysOfList_compound (compound : isCompound name = true) (nodes : List Node) :
    straysOfList library (some name) nodes = straysOfList library none nodes := by
  refine straysOfList_congr (fun other => ?_) nodes
  rw [Library.marks, Library.marks, compound]
  rfl

/-- Outside any usage every marker is out of place. -/
theorem straysOfList_subset_none (parent : Option String) (nodes : List Node) :
    straysOfList library parent nodes ⊆ straysOfList library none nodes := by
  induction nodes with
  | nil => exact List.nil_subset _
  | cons node rest induction =>
      rw [straysOfList, straysOfList]
      refine List.append_subset.mpr
        ⟨List.subset_append_of_subset_left _ ?_, List.subset_append_of_subset_right _ induction⟩
      cases node with
      | component name =>
          rw [strays, strays]
          refine List.append_subset.mpr ⟨?_, List.subset_append_right _ _⟩
          refine List.subset_append_of_subset_left _ ?_
          have nowhere : library.marks none name = false := rfl
          rw [nowhere]
          cases isCompound name with
          | false => exact List.nil_subset _
          | true =>
              split
              · exact List.Subset.refl _
              · exact List.nil_subset _
      | _ => exact List.Subset.refl _

theorem strays_withAttributes (attributes : List Attribute) (node : Node) :
    strays library parent (node.withAttributes attributes) = strays library parent node := by
  cases node <;> rfl

mutual

theorem strays_eq_nil :
    ∀ {node : Node} {parent : Option String},
      Everywhere (Labelled (Label.Named fun _ => False)) [node] → strays library parent node = []
  | .component .., _, free => (everywhere_singleton.mp free).1.elim
  | .element _ _ children _, _, free | .optional _ _ children _, _, free
  | .loop _ _ _ children _, _, free =>
    straysOfList_eq_nil ((everywhere_singleton.mp free).2 children (List.mem_singleton_self _))
  | .conditional _ _ consequent alternate _, _, free => by
      have below := (everywhere_singleton.mp free).2
      rw [strays, straysOfList_eq_nil (below consequent List.mem_cons_self),
        straysOfList_eq_nil (below alternate (List.mem_cons_of_mem _ (List.mem_singleton_self _)))]
      rfl
  | .text .., _, _ | .expression _, _, _ | .doctype .., _, _ => rfl

/-- Without usages there is no marker. -/
theorem straysOfList_eq_nil :
    ∀ {nodes : List Node} {parent : Option String},
      Everywhere (Labelled (Label.Named fun _ => False)) nodes →
        straysOfList library parent nodes = []
  | [], _, _ => rfl
  | node :: rest, _, free => by
      rw [everywhere_cons, ← everywhere_singleton] at free
      rw [straysOfList, strays_eq_nil free.1, straysOfList_eq_nil free.2]
      rfl

end

mutual

theorem strays_leaf {leaf : Node} :
    ∀ {node : Node}, leaf ∈ leaves node →
      strays library none leaf ⊆ strays library none node
  | .element _ _ children _, member | .optional _ _ children _, member
  | .loop _ _ _ children _, member => by
      rw [leaves] at member
      exact straysOfList_leaf member
  | .conditional _ _ consequent alternate _, member => by
      rw [leaves, List.mem_append] at member
      rcases member with first | second
      · exact List.subset_append_of_subset_left _ (straysOfList_leaf first)
      · exact List.subset_append_of_subset_right _ (straysOfList_leaf second)
  | .component .., member | .text .., member | .expression _, member | .doctype .., member => by
      rw [leaves, List.mem_singleton] at member
      rw [member]
      exact List.Subset.refl _

/-- The markers that are out of place in a leaf are so in the whole. -/
theorem straysOfList_leaf {leaf : Node} :
    ∀ {nodes : List Node}, leaf ∈ leavesOfList nodes →
      strays library none leaf ⊆ straysOfList library none nodes
  | node :: rest, member => by
      rw [leavesOfList, List.mem_append] at member
      rw [straysOfList]
      rcases member with first | later
      · exact List.subset_append_of_subset_left _ (strays_leaf first)
      · exact List.subset_append_of_subset_right _ (straysOfList_leaf later)

end

end

end Node

namespace Component

open Node

/-! ## Markers among the children of a usage -/

section

variable {library : Library} {definition : Definition} {name slot own : String}

/-- The text after the first part of a marker is the slot, in lower case. -/
theorem markedSlot?_eq_some (marked : markedSlot? own name = some slot) :
    ∃ written, name = own ++ "." ++ written ∧ slot = Text.lowercase written := by
  rw [markedSlot?] at marked
  split at marked
  · rename_i starts
    obtain ⟨rest, same⟩ := List.isPrefixOf_iff_prefix.mp starts
    refine ⟨String.ofList rest, ?_, ?_⟩
    · rw [← String.toList_inj, ← same]
      simp
    · rw [← Option.some_inj, ← marked, ← same, List.drop_left]
  · cases marked

theorem isCompound_of_markedSlot? (marked : markedSlot? own name = some slot) :
    isCompound name = true := by
  obtain ⟨written, rfl, -⟩ := markedSlot?_eq_some marked
  simp [isCompound]

/-- What it takes for a marker to be in its place. -/
theorem marks_eq_true (marks : library.marks (some own) name = true) :
    isCompound own = false ∧ ∃ definition slot, library.lookup? own = some definition ∧
      definition.name = own ∧ markedSlot? own name = some slot ∧ slot ∈ definition.slots := by
  rw [Library.marks] at marks
  rw [Bool.and_eq_true, Bool.not_eq_true'] at marks
  refine ⟨marks.1, ?_⟩
  have known := marks.2
  split at known
  · rename_i definition slot found marked
    rw [Bool.and_eq_true, beq_iff_eq, List.contains_iff_mem] at known
    exact ⟨definition, slot, found, known.1, marked, known.2⟩
  · cases known

/-- A child that is in its place and no marker of the definition is no marker at all. -/
theorem strays_of_no_marker {child : Node} (found : library.lookup? own = some definition)
    (plain : Slots.marker? definition.name child = none) :
    strays library none child = strays library (some own) child := by
  cases child with
  | component name attributes children site =>
      rw [Slots.marker?, Option.map_eq_none_iff] at plain
      have nowhere : library.marks none name = false := rfl
      rw [strays, strays, nowhere]
      cases marks : library.marks (some own) name with
      | false => rfl
      | true =>
          obtain ⟨-, other, slot, found', named, marked, -⟩ := marks_eq_true marks
          rw [found] at found'
          cases found'
          rw [named, marked] at plain
          cases plain
  | _ => rfl

/-- What is inside a marker is in its place if that is said of the marker. -/
theorem straysOfList_marker {child : Node} {below : List Node}
    (marked : Slots.marker? definition.name child = some (slot, below)) (parent : Option String) :
    straysOfList library none below ⊆ strays library parent child := by
  cases child with
  | component name attributes children site =>
      rw [Slots.marker?, Option.map_eq_some_iff] at marked
      obtain ⟨slot', marked, same⟩ := marked
      cases same
      rw [strays, straysOfList_compound (isCompound_of_markedSlot? marked)]
      exact List.subset_append_right _ _
  | _ => cases marked

namespace Slots

variable {scope : Option Scope} {slots divided : Slots} {registry after : Registry}
variable {allowed : String → Prop}

/-- The markers that are out of place in all content are allowed to be. -/
def Holds (library : Library) (allowed : String → Prop) (slots : Slots) : Prop :=
  ∀ content ∈ slots.contents, ∀ name ∈ straysOfList library none content.nodes, allowed name

/-- No marker gets out of place when the children of a usage are divided. -/
theorem divide_holds {children : List Node} (found : library.lookup? own = some definition)
    (there : slots.Holds library allowed)
    (given : ∀ name ∈ straysOfList library (some own) children, allowed name)
    (ok : divide definition scope slots registry children = .ok (divided, after)) :
    divided.Holds library allowed := by
  induction children generalizing slots registry with
  | nil =>
      cases ok
      exact there
  | cons child rest induction =>
      rw [straysOfList, List.forall_mem_append] at given
      have rebound {nodes : List Node}
          (own : ∀ name ∈ straysOfList library none nodes, allowed name) :
          ∀ name ∈ straysOfList library none (Node.rebind scope registry nodes).1, allowed name := by
        rwa [(rebind_alike scope registry nodes).straysOfList_eq]
      have grown {nodes : List Node}
          (own : ∀ name ∈ straysOfList library none nodes, allowed name) (content : SlotContent)
          (former : ∀ name ∈ straysOfList library none content.nodes, allowed name) :
          ∀ name ∈ straysOfList library none
            (content.nodes ++ (Node.rebind scope registry nodes).1), allowed name := by
        rw [straysOfList_append, List.forall_mem_append]
        exact ⟨former, rebound own⟩
      rcases divide_cons ok with ⟨slot, below, marked, -, ok⟩ | ⟨plain, ok⟩
      · have inside : ∀ name ∈ straysOfList library none below, allowed name :=
          fun name member => given.1 name (straysOfList_marker marked _ member)
        exact induction (forall_contents_addNamed there (rebound inside) (grown inside)) given.2 ok
      · have itself : ∀ name ∈ straysOfList library none [child], allowed name := by
          rw [straysOfList_singleton, strays_of_no_marker found plain]
          exact given.1
        exact induction (forall_contents_addDefault there (grown itself)) given.2 ok

end Slots

end

/-! ## Markers in an instance -/

section

variable {library : Library} {context : Context}

mutual

theorem placeNode_strays (usage : Option Scope) :
    ∀ (node : Node) (p : Placement) (parent : Option String),
      p.slots.Labelled (Label.Named fun _ => False) →
      straysOfList library parent (placeNode usage p node).1 ⊆ strays library parent node ∧
        (placeNode usage p node).2.slots.Labelled (Label.Named fun _ => False)
  | .element tag attributes children site, p, parent, settled => by
      rw [placeNode]
      split
      · -- a fallback takes the place of the slot element, in which no marker has its place
        have below := placeNodes_strays usage children p parent settled
        have outside : straysOfList library parent (placeNodes usage p children).1 ⊆
            strays library parent (.element tag attributes children site) :=
          List.Subset.trans below.1 (straysOfList_subset_none parent children)
        dsimp only
        split
        · rename_i content found
          split
          · exact ⟨outside, below.2⟩
          · refine ⟨?_, (Placement.insert_labelled settled found).2⟩
            rw [straysOfList_eq_nil (Placement.insert_labelled settled found).1]
            exact List.nil_subset _
        · exact ⟨outside, below.2⟩
      · have below := placeNodes_strays usage children p none settled
        rw [straysOfList_singleton]
        exact below
  | .component name attributes children site, p, parent, settled => by
      have below := placeNodes_strays usage children p (some name) settled
      rw [placeNode, straysOfList_singleton, strays, strays]
      exact ⟨List.append_subset.mpr ⟨List.subset_append_left _ _,
        List.subset_append_of_subset_right _ below.1⟩, below.2⟩
  | .optional _ _ children _, p, parent, settled | .loop _ _ _ children _, p, parent, settled => by
      have below := placeNodes_strays usage children p none settled
      rw [placeNode, straysOfList_singleton]
      exact below
  | .conditional _ _ consequent alternate _, p, parent, settled => by
      have first := placeNodes_strays usage consequent p none settled
      have second := placeNodes_strays usage alternate _ none first.2
      rw [placeNode, straysOfList_singleton, strays, strays]
      exact ⟨List.append_subset.mpr ⟨List.subset_append_of_subset_left _ first.1,
        List.subset_append_of_subset_right _ second.1⟩, second.2⟩
  | .text .., p, parent, settled | .expression _, p, parent, settled
  | .doctype .., p, parent, settled => ⟨List.nil_subset _, settled⟩

/-- Placing content that has been resolved brings no marker out of its place. -/
theorem placeNodes_strays (usage : Option Scope) :
    ∀ (nodes : List Node) (p : Placement) (parent : Option String),
      p.slots.Labelled (Label.Named fun _ => False) →
      straysOfList library parent (placeNodes usage p nodes).1 ⊆ straysOfList library parent nodes ∧
        (placeNodes usage p nodes).2.slots.Labelled (Label.Named fun _ => False)
  | [], p, parent, settled => ⟨List.nil_subset _, settled⟩
  | node :: rest, p, parent, settled => by
      have first := placeNode_strays usage node p parent settled
      have later := placeNodes_strays usage rest _ parent first.2
      rw [placeNodes, straysOfList, straysOfList_append]
      exact ⟨List.append_subset.mpr ⟨List.subset_append_of_subset_left _ first.1,
        List.subset_append_of_subset_right _ later.1⟩, later.2⟩

end

theorem forward_strays {definition : Definition} {location : Location}
    {forwarded : List Attribute} {registry after : Registry} {nodes result : List Node}
    (ok : forward definition location forwarded registry nodes = .ok (result, after)) :
    straysOfList library none result = straysOfList library none nodes := by
  rcases forward_root ok with ⟨-, -, rfl⟩ | ⟨front, root, rest, registry', site, rfl, -, rfl⟩
  · rfl
  · rw [straysOfList_append, straysOfList_append, straysOfList, straysOfList, strays_withAttributes]

/-- The markers that are out of place in an instance are so in the template. -/
theorem assemble_strays {definition : Definition} {usage : Usage} {slots : Slots}
    {progress progress' : Progress} {made : List Node}
    (settled : slots.Labelled (Label.Named fun _ => False))
    (ok : assemble context definition usage slots progress = .ok (made, progress')) :
    ∃ nodes last, template definition = .ok (nodes, last) ∧
      straysOfList library none made ⊆ straysOfList library none nodes := by
  obtain ⟨copied, middle, forwarded, last, copy_ok, forward_ok, rfl, -⟩ := assemble_steps ok
  obtain ⟨nodes, after, template_ok, alike⟩ := copy_template copy_ok
  refine ⟨nodes, after, template_ok, ?_⟩
  rw [(rebind_alike usage.site.scope last forwarded).straysOfList_eq, forward_strays forward_ok,
    ← alike.straysOfList_eq]
  exact (placeNodes_strays usage.site.scope copied _ none settled).1

/-! ## Markers that resolution meets -/

/-- The marker is out of place in the template of some definition of the library. -/
def StraysIn (library : Library) (name : String) : Prop :=
  ∃ key definition, (key, definition) ∈ library.entries ∧
    ∃ nodes after, template definition = .ok (nodes, after) ∧
      name ∈ straysOfList library none nodes

/-- Markers that are refused are out of place in some template. -/
def Accuses (context : Context) (action : Action (List Node)) : Prop :=
  ∀ {progress report}, action progress = .error report → report.rule = .markerInParent →
    ∃ name parent location, StraysIn context.library name ∧
      report = (Fault.orphanMarker name parent).report context.file location

theorem resolveNodes_accuses {one : Usage → Action (List Node)} {nodes : List Node}
    (sound : ∀ usage : Usage, usage.node ∈ leavesOfList nodes → Accuses context (one usage)) :
    Accuses context (resolveNodes one nodes) := by
  intro progress report failed rule
  obtain ⟨usage, leaf, before, failed⟩ := resolveNodes_eq_error failed
  exact sound usage leaf failed rule

/-- A marker that is refused is out of place where it stands. -/
theorem definitionOf_orphan {stack : List String} {usage : Usage} {fault : Fault}
    {location : Location}
    (failed : definitionOf context stack usage = .error (fault, location))
    (rule : fault.rule = .markerInParent) :
    usage.name ∈ strays library none usage.node ∧
      ∃ parent, fault = .orphanMarker usage.name parent := by
  rw [definitionOf] at failed
  split at failed
  · rename_i dot rest shape
    cases failed
    have compound : isCompound usage.name = true := by
      rw [isCompound, List.contains_iff_mem]
      by_contra absent
      rw [List.dropWhile_eq_nil_iff.mpr] at shape
      · cases shape
      · intro c member
        simp only [bne_iff_ne, ne_eq]
        rintro rfl
        exact absent member
    have nowhere : library.marks none usage.name = false := rfl
    refine ⟨?_, _, rfl⟩
    rw [Usage.node, strays, compound, nowhere]
    exact List.mem_cons_self
  · split at failed
    · cases failed
      cases rule
    · split at failed
      · cases failed
        cases rule
      · cases failed

variable {inside : List String → List Node → Action (List Node)} {stack : List String}

/-- No marker of a usage is refused that is not out of place in a template: those in its content are
in their places, and those in the instance are the template's. -/
theorem instantiate_accuses
    (settles : ∀ stack nodes, Settles (fun _ => True) (inside stack nodes) nodes)
    (sound : ∀ stack nodes,
      (∀ name ∈ straysOfList context.library none nodes, StraysIn context.library name) →
        Accuses context (inside stack nodes))
    (depth : Nat) (usage : Usage)
    (placed : ∀ name ∈ strays context.library none usage.node, StraysIn context.library name) :
    Accuses context (instantiate context inside stack depth usage) := by
  induction depth generalizing usage with
  | zero =>
      intro progress report failed rule
      cases failed
      cases rule
  | succ depth induction =>
      intro progress report failed rule
      rw [instantiate_succ] at failed
      rcases replace_eq_error failed with failed | ⟨definition, found, failed | ⟨slots, middle,
        divided, failed | ⟨slots', resolved, content, failed | ⟨made, assembled, ok, failed⟩⟩⟩⟩
      · obtain ⟨fault, location, refused, rfl⟩ := reportIn_eq_error.mp failed
        obtain ⟨stray, parent, rfl⟩ := definitionOf_orphan refused rule
        exact ⟨usage.name, parent, location, placed _ stray, rfl⟩
      · exact absurd rule ((Slots.divide_spares (by decide) ..).rule_ne failed)
      · obtain ⟨part, member, before, failed⟩ := resolveSlots_eq_error failed
        have empty : ({} : Slots).Holds context.library (StraysIn context.library) := by
          simp [Slots.Holds, Slots.contents, straysOfList]
        rw [Usage.node, strays, List.forall_mem_append] at placed
        have given := Slots.divide_holds (definitionOf_lookup found) empty placed.2 divided part
          member
        refine resolveNodes_accuses (fun inner leaf => induction inner fun name stray => ?_) failed
          rule
        exact given name (straysOfList_leaf leaf stray)
      · exact absurd rule (assemble_rule_ne (by decide) (by decide) (by decide) (by decide) failed)
      · obtain ⟨key, listed⟩ := Library.mem_of_lookup? (definitionOf_lookup found)
        have settled : slots'.Labelled (Label.Named fun _ => False) := by
          refine resolveSlots_contents (fun part _ _ result _ part_ok => ?_) content
          have inside := instantiate_settles (durable_anything context.library) settles stack depth
          exact Label.Settled.named (resolveNodes_settles inside part.nodes (fun _ _ => trivial)
            part_ok)
        obtain ⟨nodes, last, template_ok, strays⟩ := assemble_strays settled ok
        refine sound _ made (fun name stray => ?_) failed rule
        exact ⟨key, definition, listed, nodes, last, template_ok, strays stray⟩

theorem resolveWithin_accuses (context : Context) (levels : Nat) (stack : List String)
    (nodes : List Node)
    (placed : ∀ name ∈ straysOfList context.library none nodes, StraysIn context.library name) :
    Accuses context (resolveWithin context levels stack nodes) := by
  induction levels generalizing stack nodes with
  | zero =>
      intro progress report failed rule
      cases failed
      cases rule
  | succ levels induction =>
      intro progress report failed rule
      rw [resolveWithin] at failed
      refine resolveNodes_accuses (fun usage leaf => ?_) failed rule
      have settles := resolveWithin_settles context (durable_anything context.library) levels
      intro before found refused same
      exact instantiate_accuses settles induction _ usage
        (fun name stray => placed name (straysOfList_leaf leaf stray)) refused same

end

/-! ## Pages whose markers are in their places -/

section

variable {library : Library} {usage : Usage}

mutual

theorem straysOfList_children_node :
    ∀ {node : Node} {parent : Option String}, usage.node ∈ allNodes node →
      straysOfList library (some usage.name) usage.children ⊆ strays library parent node
  | .component name attributes children site, parent, member => by
      rw [allNodes, List.mem_cons] at member
      rw [strays]
      refine List.subset_append_of_subset_right _ ?_
      rcases member with same | below
      · cases same
        exact List.Subset.refl _
      · exact straysOfList_children below
  | .element .., parent, member | .optional .., parent, member | .loop .., parent, member => by
      rw [allNodes, List.mem_cons] at member
      exact straysOfList_children (member.resolve_left fun same => nomatch same)
  | .conditional .., parent, member => by
      rw [allNodes, List.mem_cons, List.mem_append] at member
      rw [strays]
      rcases member.resolve_left fun same => nomatch same with first | second
      · exact List.subset_append_of_subset_left _ (straysOfList_children first)
      · exact List.subset_append_of_subset_right _ (straysOfList_children second)
  | .text .., parent, member | .expression _, parent, member | .doctype .., parent, member => by
      rw [allNodes, List.mem_singleton] at member
      cases member

/-- The children of a usage at any depth are among what is asked for. -/
theorem straysOfList_children :
    ∀ {nodes : List Node} {parent : Option String}, usage.node ∈ allNodesOfList nodes →
      straysOfList library (some usage.name) usage.children ⊆ straysOfList library parent nodes
  | node :: rest, parent, member => by
      rw [allNodesOfList, List.mem_append] at member
      rw [straysOfList]
      rcases member with first | later
      · exact List.subset_append_of_subset_left _ (straysOfList_children_node first)
      · exact List.subset_append_of_subset_right _ (straysOfList_children later)

end

theorem strays_subset {parent : Option String} {nodes : List Node} {node : Node}
    (member : node ∈ nodes) : strays library parent node ⊆ straysOfList library parent nodes := by
  obtain ⟨before, rest, rfl⟩ := List.append_of_mem member
  rw [straysOfList_append, straysOfList]
  exact List.subset_append_of_subset_right _ (List.subset_append_left _ _)

/-- A marker that is in its place is one of the usage. -/
theorem marks_of_placed {own name : String} {attributes : List Attribute}
    {children below : List Node} {site : Site} (placed : straysOfList library (some own) below = [])
    (member : .component name attributes children site ∈ below)
    (compound : isCompound name = true) : library.marks (some own) name = true := by
  by_contra other
  have stray : name ∈ strays library (some own) (.component name attributes children site) := by
    rw [strays, compound, eq_false_of_ne_true other]
    exact List.mem_cons_self
  have listed := strays_subset member stray
  rw [placed] at listed
  cases listed

/-- Markers that are in their places are for declared slots. -/
theorem declared_of_placed {own : String} {definition : Definition} {below : List Node}
    (placed : straysOfList library (some own) below = [])
    (found : library.lookup? own = some definition) (named : definition.name = own) :
    ∀ child ∈ below, ∀ slot inner,
      Slots.marker? definition.name child = some (slot, inner) → slot ∈ definition.slots := by
  intro child member slot inner marker
  cases child with
  | component name attributes children site =>
      rw [Slots.marker?, Option.map_eq_some_iff] at marker
      obtain ⟨slot', marked, same⟩ := marker
      cases same
      obtain ⟨-, definition', slot'', found', -, marked', listed⟩ :=
        marks_eq_true (marks_of_placed placed member (isCompound_of_markedSlot? marked))
      rw [found] at found'
      cases found'
      rw [named, marked'] at marked
      cases marked
      exact listed
  | _ => cases marker

/-- Children can be divided if all markers among them are for declared slots. -/
theorem Slots.exists_divide {definition : Definition} {children : List Node}
    (declared : ∀ child ∈ children, ∀ slot below,
      marker? definition.name child = some (slot, below) → slot ∈ definition.slots)
    (scope : Option Scope) (slots : Slots) (registry : Registry) :
    ∃ divided after, divide definition scope slots registry children = .ok (divided, after) := by
  induction children generalizing slots registry with
  | nil => exact ⟨slots, registry, rfl⟩
  | cons child rest induction =>
      rw [List.forall_mem_cons] at declared
      cases child with
      | component name attributes children site =>
          rw [divide]
          split
          · rename_i slot marked
            have listed := declared.1 slot children (by rw [marker?, marked]; rfl)
            rw [if_pos (List.contains_iff_mem.mpr listed)]
            exact induction declared.2 _ _
          · exact induction declared.2 _ _
      | _ => exact induction declared.2 _ _

/-- A marker with the given name gives its children to a slot of the usage: they are part of what is
supplied for the slot, and this is all of the content for it.  The default slot is left out. -/
def Supplies (library : Library) (usage : Usage) (name : String) (children : List Node) : Prop :=
  ∃ definition written, library.lookup? usage.name = some definition ∧
    name = usage.name ++ "." ++ written ∧
    ∀ registry, ∃ slots after,
      Slots.divide definition usage.site.scope {} registry usage.children = .ok (slots, after) ∧
      (Text.lowercase written ≠ Definition.defaultSlot →
        children <:+: Slots.supplied definition.name (Text.lowercase written) usage.children ∧
        Alike Kept (Slots.supplied definition.name (Text.lowercase written) usage.children)
          (slots.nodesFor (some (Text.lowercase written))))

theorem supplies_of_placed {name : String} {attributes : List Attribute} {children : List Node}
    {site : Site} (placed : straysOfList library (some usage.name) usage.children = [])
    (member : .component name attributes children site ∈ usage.children)
    (compound : isCompound name = true) : Supplies library usage name children := by
  obtain ⟨-, definition, slot, found, named, marked, -⟩ :=
    marks_eq_true (marks_of_placed placed member compound)
  obtain ⟨written, spelled, rfl⟩ := markedSlot?_eq_some marked
  refine ⟨definition, written, found, spelled, fun registry => ?_⟩
  obtain ⟨slots, after, divided⟩ :=
    Slots.exists_divide (declared_of_placed placed found named) usage.site.scope {} registry
  refine ⟨slots, after, divided, fun other => ?_⟩
  obtain ⟨copy, alike, same⟩ := Slots.divide_supplied (Text.lowercase written) divided
  rw [Slots.target, if_neg other] at same
  have empty : ({} : Slots).nodesFor (some (Text.lowercase written)) = [] := rfl
  rw [empty, List.nil_append] at same
  refine ⟨?_, same ▸ alike⟩
  have share : Slots.share definition.name (Text.lowercase written)
      (.component name attributes children site) = children := by
    rw [Slots.share, Slots.marker?, named, marked]
    exact if_pos ⟨rfl, other⟩
  obtain ⟨before, rest, shape⟩ := List.append_of_mem member
  rw [Slots.supplied, shape, List.flatMap_append, List.flatMap_cons, share]
  exact ⟨_, _, List.append_assoc _ _ _⟩

/-- If all markers of a page stand directly in a usage of the component that they are named after,
with the very name of its definition, and for slots that it declares, then none of them is refused:
a marker that is refused is out of place in the template of some definition.  The children of each
become content for its slot, unless that is the default slot. -/
theorem resolve_placed_markers {nodes : List Node} (placed : straysOfList library none nodes = [])
    (file : String) (registry : Registry) :
    (∀ report, resolve library file nodes registry = .error report →
      report.rule = .markerInParent →
      ∃ name parent location, StraysIn library name ∧
        report = (Fault.orphanMarker name parent).report file location) ∧
    ∀ usage : Usage, usage.node ∈ allNodesOfList nodes →
      ∀ name attributes children site,
        Node.component name attributes children site ∈ usage.children → isCompound name = true →
        Supplies library usage name children := by
  constructor
  · intro report failed rule
    rw [resolve] at failed
    split at failed
    · rename_i refused
      cases failed
      refine resolveWithin_accuses ⟨library, file⟩ _ _ nodes (fun name stray => ?_) refused rule
      rw [placed] at stray
      cases stray
    · cases failed
  · intro usage member name attributes children site child compound
    have inside : straysOfList library (some usage.name) usage.children ⊆ [] :=
      placed ▸ straysOfList_children member
    exact supplies_of_placed (List.subset_nil.mp inside) child compound

end

namespace Notices

/-- A card with a slot for its head. -/
def headedCard : Definition :=
  { plainDefinition "Card" [.element "div" []
      [.element "slot" [⟨"name", .fixed "head", {}⟩] [] {}, .element "slot" [] [] {}] {}] with
    slots := [Definition.defaultSlot, "head"] }

/-- A component with a marker outside a card. -/
def loose : Definition :=
  plainDefinition "Loose" [.element "p" [] [.component "Card.Head" [] [.text "?" {}] {}] {}]

/-- The head of a card that is used as it should be is accepted, and a component in it is refused
because of a marker in its own template. -/
theorem resolve_placed_markers_head :
    let library : Library := ⟨[("Card", headedCard), ("Loose", loose)]⟩
    let head : List Node := [.text "New" {}, .component "Loose" [] [] {}]
    let usage : Usage := ⟨"Card", [], [.component "Card.Head" [] head {}, .text "mail" {}], {}⟩
    let page : List Node := [.element "main" [] [usage.node] {}]
    straysOfList library none page = [] ∧
      (∃ report, resolve library "page.zen" page {} = .error report ∧
        report.rule = .markerInParent ∧
        ∃ name parent location, StraysIn library name ∧
          report = (Fault.orphanMarker name parent).report "page.zen" location) ∧
      Supplies library usage "Card.Head" head := by
  intro library head usage page
  have placed : straysOfList library none page = [] := by decide +kernel
  have evaluates : (match resolve library "page.zen" page {} with
      | .ok _ => false
      | .error report => decide (report.rule = .markerInParent)) = true := by
    decide +kernel
  obtain ⟨refused, supplied⟩ := resolve_placed_markers placed "page.zen" {}
  refine ⟨placed, ?_, ?_⟩
  · cases outcome : resolve library "page.zen" page {} with
    | ok resolution =>
        rw [outcome] at evaluates
        cases evaluates
    | error report =>
        rw [outcome, decide_eq_true_eq] at evaluates
        exact ⟨report, rfl, evaluates, refused report outcome evaluates⟩
  · have below : usage.node ∈ allNodesOfList page := by
      simp [page, allNodesOfList, allNodes, usage, Usage.node]
    exact supplied usage below "Card.Head" [] head {} List.mem_cons_self (by decide +kernel)

end Notices

end Component
end ReactiveTemplate
