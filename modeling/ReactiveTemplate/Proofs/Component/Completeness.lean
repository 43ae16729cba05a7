import ReactiveTemplate.Proofs.Component.Content
import ReactiveTemplate.Proofs.Tree.Everywhere

/-!
# Resolution is complete

What a resolved tree is made of was in the tree before or in a copy of a definition, but for the
names that a root takes over from a usage.  So a resolved tree has no usage in it, and no slot
element but those that were in the tree before.  Slot elements of a definition go when content is
placed, before the instance is resolved; what takes their place is content that was resolved already,
or a fallback in which slots have been replaced in turn.
-/

namespace ReactiveTemplate
namespace Node

variable {nodes nodes' : List Node}

/-- The node is a usage of a component. -/
def isUsage : Node → Bool
  | component .. => true
  | _ => false

/-- The node is a slot element. -/
def isSlot : Node → Bool
  | element tag .. => tag == "slot"
  | _ => false

/-! ## Labels -/

/-- What a node is, how its attributes are called and what it says, apart from what is below it. -/
inductive Label where
  /-- An element. -/
  | element (tag : String) (names : List String)
  /-- A usage of a component. -/
  | usage (name : String) (names : List String)
  /-- A text. -/
  | text (value : String)
  /-- Any other node. -/
  | other

/-- The label of a node. -/
def label : Node → Label
  | element tag attributes _ _ => .element tag (attributes.map (·.name))
  | component name attributes _ _ => .usage name (attributes.map (·.name))
  | text value _ => .text value
  | _ => .other

/-- The node has an allowed label. -/
def Labelled (allowed : Label → Prop) (node : Node) : Prop := allowed node.label

/-- The node has an allowed label, or is a slot element. -/
def Filled (allowed : Label → Prop) (node : Node) : Prop :=
  node.isSlot = false → node.Labelled allowed

/-- Nodes that are alike have the same labels. -/
theorem Alike.labelled {allowed : Label → Prop} {related : Expression → Expression → Prop}
    (alike : Alike related nodes nodes') (labelled : Everywhere (Labelled allowed) nodes) :
    Everywhere (Labelled allowed) nodes' := by
  induction alike with
  | nil => exact labelled
  | element attributes _ _ below behind | component attributes _ _ below behind =>
      simp only [everywhere_cons, childLists, List.forall_mem_singleton, Labelled, label,
        attributes.names_eq] at labelled ⊢
      exact ⟨⟨labelled.1.1, below labelled.1.2⟩, behind labelled.2⟩
  | optional _ _ _ below behind | loop _ _ _ below behind =>
      simp only [everywhere_cons, childLists, List.forall_mem_singleton] at labelled ⊢
      exact ⟨⟨labelled.1.1, below labelled.1.2⟩, behind labelled.2⟩
  | conditional _ _ _ _ left right behind =>
      simp only [everywhere_cons, childLists, List.forall_mem_cons] at labelled ⊢
      exact ⟨⟨labelled.1.1, left labelled.1.2.1, right labelled.1.2.2.1, labelled.1.2.2.2⟩,
        behind labelled.2⟩
  | text _ behind | expression _ _ behind | doctype _ behind =>
      rw [everywhere_cons] at labelled ⊢
      exact ⟨labelled.1, behind labelled.2⟩

theorem rebind_labelled {allowed : Label → Prop} (scope : Option Scope) (registry : Registry)
    (labelled : Everywhere (Labelled allowed) nodes) :
    Everywhere (Labelled allowed) (rebind scope registry nodes).1 :=
  (rebind_alike scope registry nodes).labelled labelled

theorem rekey_labelled {allowed : Label → Prop} (registry : Registry)
    (labelled : Everywhere (Labelled allowed) nodes) :
    Everywhere (Labelled allowed) (rekey registry nodes).1 := by
  have anything : ∀ state e, Anything e (rekeying.expression state e).1 := fun _ _ => trivial
  exact (Traversal.nodes_alike anything nodes (registry, [])).labelled labelled

/-- A label is allowed unless it has a tag that is not. -/
def Label.Tagged (allowed : String → Prop) : Label → Prop
  | .element tag _ => allowed tag
  | _ => True

/-- A label is allowed unless it is that of a usage. -/
def Label.Settled (allowed : Label → Prop) : Label → Prop
  | .usage _ _ => False
  | label => allowed label

/-- Settled nodes have allowed labels. -/
theorem Label.Settled.labelled {allowed : Label → Prop}
    (settled : Everywhere (Labelled (Settled allowed)) nodes) :
    Everywhere (Labelled allowed) nodes := by
  intro node member
  have own := settled node member
  cases node with
  | component => exact own.elim
  | _ => exact own

/-- Labels stay allowed where a root takes over attributes of the given names, and may be marked. -/
def Label.Takes (allowed : Label → Prop) (given : List String) : Prop :=
  ∀ {own taken : List String}, taken ⊆ Component.ownerAttribute :: (own ++ given) →
    (∀ tag, allowed (.element tag own) → allowed (.element tag taken)) ∧
      ∀ name, allowed (.usage name own) → allowed (.usage name taken)

theorem Label.Takes.mono {allowed : Label → Prop} {given fewer : List String}
    (takes : Takes allowed given) (part : fewer ⊆ given) : Takes allowed fewer := by
  intro own taken subset
  refine takes (List.Subset.trans subset (List.cons_subset_cons _ ?_))
  exact List.append_subset.mpr
    ⟨List.subset_append_left _ _, List.subset_append_of_subset_right _ part⟩

end Node

namespace Component

open Node

/-! ## Content -/

section

variable {allowed : Label → Prop}

namespace Slots

variable {slots result : Slots} {definition : Definition} {scope : Option Scope}
variable {registry after : Registry}

/-- The labels in all content are allowed. -/
def Labelled (allowed : Label → Prop) (slots : Slots) : Prop :=
  ∀ content ∈ slots.contents, Everywhere (Node.Labelled allowed) content.nodes

theorem Labelled.markPlaced (labelled : slots.Labelled allowed) (slot : Option String) :
    (slots.markPlaced slot).Labelled allowed := by
  intro content member
  obtain ⟨former, listed, same⟩ := mem_contents_markPlaced member
  exact same ▸ labelled former listed

/-- Content is made of the children of a usage, and of what is inside markers among them. -/
theorem divide_labelled {children : List Node} (there : slots.Labelled allowed)
    (labelled : Everywhere (Node.Labelled allowed) children)
    (ok : divide definition scope slots registry children = .ok (result, after)) :
    result.Labelled allowed := by
  induction children generalizing slots registry with
  | nil =>
      cases ok
      exact there
  | cons child rest induction =>
      rw [everywhere_cons] at labelled
      have grown {nodes : List Node} (own : Everywhere (Node.Labelled allowed) nodes)
          (content : SlotContent) (former : Everywhere (Node.Labelled allowed) content.nodes) :
          Everywhere (Node.Labelled allowed)
            (content.nodes ++ (Node.rebind scope registry nodes).1) :=
        everywhere_append.mpr ⟨former, rebind_labelled scope registry own⟩
      rcases divide_cons ok with ⟨slot, below, marked, -, ok⟩ | ⟨-, ok⟩
      · have own : Everywhere (Node.Labelled allowed) below :=
          labelled.1.2 below (childLists_marker? marked)
        exact induction (forall_contents_addNamed there (rebind_labelled scope registry own)
          (grown own)) labelled.2 ok
      · have own : Everywhere (Node.Labelled allowed) [child] := everywhere_singleton.mpr labelled.1
        exact induction (forall_contents_addDefault there (grown own)) labelled.2 ok

end Slots

/-! ## Placing content -/

/-- Content that is put into the place of a slot has allowed labels. -/
theorem Placement.insert_labelled {usage around : Option Scope} {p : Placement}
    {slot : Option String} {content : SlotContent} (labelled : p.slots.Labelled allowed)
    (found : p.slots.content? slot = some content) :
    Everywhere (Labelled allowed) (p.insert usage slot content around).1 ∧
      (p.insert usage slot content around).2.slots.Labelled allowed := by
  have own := labelled content (Slots.mem_contents_of_content? found)
  rw [Placement.insert_eq]
  refine ⟨rebind_labelled around _ ?_, labelled.markPlaced slot⟩
  rw [SlotContent.ready]
  split
  · exact rekey_labelled p.registry own
  · exact own

mutual

theorem placeNode_labelled (usage : Option Scope) :
    ∀ (node : Node) (p : Placement), Everywhere (Filled allowed) [node] →
      p.slots.Labelled allowed →
      Everywhere (Labelled allowed) (placeNode usage p node).1 ∧
        (placeNode usage p node).2.slots.Labelled allowed
  | .element tag attributes children site, p, filled, labelled => by
      simp only [everywhere_singleton, childLists, List.forall_mem_singleton] at filled
      have below := placeNodes_labelled usage children p filled.2 labelled
      rw [placeNode]
      split
      · dsimp only
        split
        · rename_i content found
          split
          · exact below
          · exact Placement.insert_labelled labelled found
        · exact below
      · rename_i ordinary
        simp only [everywhere_singleton, childLists, List.forall_mem_singleton]
        exact ⟨⟨filled.1 (by simpa [isSlot] using ordinary), below.1⟩, below.2⟩
  | .component name attributes children site, p, filled, labelled
  | .optional id condition children site, p, filled, labelled
  | .loop id condition _ children site, p, filled, labelled => by
      simp only [everywhere_singleton, childLists, List.forall_mem_singleton] at filled
      have below := placeNodes_labelled usage children p filled.2 labelled
      simp only [placeNode, everywhere_singleton, childLists, List.forall_mem_singleton]
      exact ⟨⟨filled.1 rfl, below.1⟩, below.2⟩
  | .conditional id condition consequent alternate site, p, filled, labelled => by
      simp only [everywhere_singleton, childLists, List.forall_mem_cons] at filled
      have first := placeNodes_labelled usage consequent p filled.2.1 labelled
      have second := placeNodes_labelled usage alternate _ filled.2.2.1 first.2
      simp only [placeNode, everywhere_singleton, childLists, List.forall_mem_cons]
      exact ⟨⟨filled.1 rfl, first.1, second.1, fun _ member => by cases member⟩, second.2⟩
  | .text .., p, filled, labelled | .expression _, p, filled, labelled
  | .doctype .., p, filled, labelled => by
      rw [everywhere_singleton] at filled
      rw [placeNode, everywhere_singleton]
      exact ⟨⟨filled.1 rfl, fun _ member => by cases member⟩, labelled⟩

/-- No slot element of a template is left where content has been placed: what is left are other
nodes, and content. -/
theorem placeNodes_labelled (usage : Option Scope) :
    ∀ (nodes : List Node) (p : Placement), Everywhere (Filled allowed) nodes →
      p.slots.Labelled allowed →
      Everywhere (Labelled allowed) (placeNodes usage p nodes).1 ∧
        (placeNodes usage p nodes).2.slots.Labelled allowed
  | [], p, _, labelled => ⟨everywhere_nil, labelled⟩
  | node :: rest, p, filled, labelled => by
      rw [everywhere_cons, ← everywhere_singleton] at filled
      have first := placeNode_labelled usage node p filled.1 labelled
      have later := placeNodes_labelled usage rest _ filled.2 first.2
      rw [placeNodes]
      exact ⟨everywhere_append.mpr ⟨first.1, later.1⟩, later.2⟩

end

/-- Forwarding changes the attributes of the root only. -/
theorem forward_labelled {definition : Definition} {usage : Location}
    {forwarded : List Attribute} {registry after : Registry} {nodes result : List Node}
    (takes : Label.Takes allowed (forwarded.map (·.name)))
    (labelled : Everywhere (Labelled allowed) nodes)
    (ok : forward definition usage forwarded registry nodes = .ok (result, after)) :
    Everywhere (Labelled allowed) result := by
  induction nodes generalizing result after with
  | nil =>
      cases forwarded with
      | nil =>
          cases ok
          exact labelled
      | cons attr others => cases ok
  | cons node rest induction =>
      cases node with
      | element tag attributes children site =>
          rw [forward] at ok
          cases ok
          rw [everywhere_cons] at labelled ⊢
          exact ⟨⟨(takes namesOf_rootAttributes).1 tag labelled.1.1, labelled.1.2⟩, labelled.2⟩
      | component name attributes children site =>
          rw [forward] at ok
          cases ok
          rw [everywhere_cons] at labelled ⊢
          exact ⟨⟨(takes namesOf_rootAttributes).2 name labelled.1.1, labelled.1.2⟩, labelled.2⟩
      | _ =>
          simp only [forward] at ok
          split at ok
          · rename_i rest_ok
            cases ok
            rw [everywhere_cons] at labelled ⊢
            exact ⟨labelled.1, induction labelled.2 rest_ok⟩
          · cases ok

/-- An instance is made of what the definition was copied to, and of content. -/
theorem assemble_labelled {context : Context} {definition : Definition} {usage : Usage}
    {slots : Slots} {progress progress' : Progress} {nodes : List Node}
    (copied : ∀ {made after}, copy definition usage progress.registry = .ok (made, after) →
      Everywhere (Filled allowed) made)
    (takes : Label.Takes allowed (usage.attributes.map (·.name)))
    (labelled : slots.Labelled allowed)
    (ok : assemble context definition usage slots progress = .ok (nodes, progress')) :
    Everywhere (Labelled allowed) nodes := by
  obtain ⟨made, middle, forwarded, last, copy_ok, forward_ok, rfl, -⟩ := assemble_steps ok
  have placed := placeNodes_labelled usage.site.scope made
    ⟨slots, middle, progress.expectations⟩ (copied copy_ok) labelled
  have fewer : Label.Takes allowed ((usage.forwarded definition).map (·.name)) :=
    takes.mono (List.map_subset _ (List.filter_subset_self _))
  exact rebind_labelled usage.site.scope last (forward_labelled fewer placed.1 forward_ok)

/-! ## Resolved trees -/

/-- Labels stay allowed where definitions are copied, and where a root takes over the attributes of
an allowed usage. -/
structure Durable (library : Library) (allowed : Label → Prop) : Prop where
  /-- Copies have allowed labels, but for their slot elements. -/
  copied : ∀ {name definition usage registry made after},
    library.lookup? name = some definition →
      copy definition usage registry = .ok (made, after) → Everywhere (Filled allowed) made
  /-- Roots take over the attributes of usages. -/
  takes : ∀ {name names}, allowed (.usage name names) → Label.Takes allowed names

/-- Any label may be allowed. -/
theorem durable_anything (library : Library) : Durable library fun _ => True :=
  ⟨fun _ _ _ _ _ => trivial, fun _ _ _ _ => ⟨fun _ _ => trivial, fun _ _ => trivial⟩⟩

/-- Nodes with allowed labels are replaced by nodes with allowed labels, none of which is a usage. -/
def Settles (allowed : Label → Prop) (action : Action (List Node)) (nodes : List Node) : Prop :=
  ∀ {progress result progress'}, Everywhere (Labelled allowed) nodes →
    action progress = .ok (result, progress') →
      Everywhere (Labelled (Label.Settled allowed)) result

section

variable {one : Usage → Action (List Node)}

mutual

theorem resolveNode_settles
    (sound : ∀ usage, Settles allowed (one usage) [usage.node]) :
    ∀ node : Node, Settles allowed (resolveNode one node) [node]
  | .component name attributes children site, progress, result, progress', labelled, ok => by
      rw [resolveNode] at ok
      exact sound ⟨name, attributes, children, site⟩ labelled ok
  | .element tag attributes children site, progress, result, progress', labelled, ok => by
      simp only [resolveNode, bind_eq_ok] at ok
      obtain ⟨⟨children', last⟩, below, ok⟩ := ok
      cases ok
      simp only [everywhere_singleton, childLists, List.forall_mem_singleton] at labelled ⊢
      exact ⟨labelled.1, resolveNodes_settles sound children labelled.2 below⟩
  | .conditional id condition consequent alternate site, progress, result, progress', labelled,
    ok => by
      simp only [resolveNode, bind_eq_ok] at ok
      obtain ⟨⟨consequent', middle⟩, first, ⟨alternate', last⟩, second, ok⟩ := ok
      cases ok
      simp only [everywhere_singleton, childLists, List.forall_mem_cons] at labelled ⊢
      exact ⟨labelled.1, resolveNodes_settles sound consequent labelled.2.1 first,
        resolveNodes_settles sound alternate labelled.2.2.1 second, by simp⟩
  | .optional id condition branch site, progress, result, progress', labelled, ok
  | .loop id condition _ branch site, progress, result, progress', labelled, ok => by
      simp only [resolveNode, bind_eq_ok] at ok
      obtain ⟨⟨branch', last⟩, below, ok⟩ := ok
      cases ok
      simp only [everywhere_singleton, childLists, List.forall_mem_singleton] at labelled ⊢
      exact ⟨labelled.1, resolveNodes_settles sound branch labelled.2 below⟩
  | .text .., progress, result, progress', labelled, ok
  | .expression _, progress, result, progress', labelled, ok
  | .doctype .., progress, result, progress', labelled, ok => by
      rw [resolveNode] at ok
      cases ok
      rw [everywhere_singleton] at labelled ⊢
      exact ⟨labelled.1, List.forall_mem_nil _⟩

theorem resolveNodes_settles
    (sound : ∀ usage, Settles allowed (one usage) [usage.node]) :
    ∀ nodes : List Node, Settles allowed (resolveNodes one nodes) nodes
  | [], progress, result, progress', labelled, ok => by
      rw [resolveNodes] at ok
      cases ok
      exact everywhere_nil
  | node :: rest, progress, result, progress', labelled, ok => by
      simp only [resolveNodes, bind_eq_ok] at ok
      obtain ⟨⟨first', middle⟩, first, ⟨rest', last⟩, second, ok⟩ := ok
      cases ok
      rw [everywhere_cons, ← everywhere_singleton] at labelled
      exact everywhere_append.mpr ⟨resolveNode_settles sound node labelled.1 first,
        resolveNodes_settles sound rest labelled.2 second⟩

end

private theorem resolveNamed_contents {resolve : List Node → Action (List Node)}
    {holds : List Node → Prop} {named named' : List (String × SlotContent)}
    {progress progress' : Progress}
    (sound : ∀ content ∈ named.map (·.2), ∀ {before result after},
      resolve content.nodes before = .ok (result, after) → holds result)
    (ok : resolveNamed resolve named progress = .ok (named', progress')) :
    ∀ content ∈ named'.map (·.2), holds content.nodes := by
  induction named generalizing progress named' with
  | nil =>
      cases ok
      exact fun _ member => by cases member
  | cons entry rest induction =>
      simp only [resolveNamed, bind_eq_ok] at ok
      obtain ⟨⟨nodes, middle⟩, first, ⟨others, last⟩, second, ok⟩ := ok
      cases ok
      rw [List.map_cons, List.forall_mem_cons] at sound ⊢
      exact ⟨sound.1 first, induction sound.2 second⟩

/-- The content for every slot is what its nodes were resolved to. -/
theorem resolveSlots_contents {resolve : List Node → Action (List Node)}
    {holds : List Node → Prop} {slots slots' : Slots} {progress progress' : Progress}
    (sound : ∀ content ∈ slots.contents, ∀ {before result after},
      resolve content.nodes before = .ok (result, after) → holds result)
    (ok : resolveSlots resolve slots progress = .ok (slots', progress')) :
    ∀ content ∈ slots'.contents, holds content.nodes := by
  simp only [resolveSlots, bind_eq_ok] at ok
  obtain ⟨⟨nodes, middle⟩, first, ⟨named, last⟩, second, ok⟩ := ok
  cases ok
  rw [Slots.contents, List.forall_mem_cons] at sound ⊢
  refine ⟨sound.1 first, resolveNamed_contents (fun content member => ?_) second⟩
  exact sound.2 content (List.Perm.subset (List.Perm.map _ (List.mergeSort_perm _ _)) member)

theorem resolveSlots_labelled {resolve : List Node → Action (List Node)}
    (sound : ∀ nodes, Settles allowed (resolve nodes) nodes) {slots slots' : Slots}
    {progress progress' : Progress} (labelled : slots.Labelled allowed)
    (ok : resolveSlots resolve slots progress = .ok (slots', progress')) :
    slots'.Labelled allowed := by
  refine resolveSlots_contents (fun content member _ result _ resolved => ?_) ok
  exact Label.Settled.labelled (sound content.nodes (labelled content member) resolved)

end

/-- What a usage is replaced by is settled, given that what instances contain gets settled. -/
theorem instantiate_settles {context : Context} (durable : Durable context.library allowed)
    {inside : List String → List Node → Action (List Node)}
    (sound : ∀ stack nodes, Settles allowed (inside stack nodes) nodes) (stack : List String)
    (depth : Nat) (usage : Usage) :
    Settles allowed (instantiate context inside stack depth usage) [usage.node] := by
  induction depth generalizing usage with
  | zero => exact fun _ ok => (nomatch ok)
  | succ depth induction =>
      intro progress result progress' labelled ok
      obtain ⟨definition, slots, middle, slots', resolved, made, assembled, found, divided, content,
        assemble_ok, ok⟩ := instantiate_steps ok
      obtain ⟨own, below⟩ := everywhere_singleton.mp labelled
      have empty : ({} : Slots).Labelled allowed := by
        simp [Slots.Labelled, Slots.contents]
      have given := Slots.divide_labelled empty (below usage.children List.mem_cons_self) divided
      have filled := resolveSlots_labelled (resolveNodes_settles induction) given content
      have copied {made : List Node} {after : Registry}
          (copy_ok : copy definition usage resolved.registry = .ok (made, after)) :
          Everywhere (Filled allowed) made :=
        durable.copied (definitionOf_lookup found) copy_ok
      exact sound _ _ (assemble_labelled copied (durable.takes own) filled assemble_ok) ok

theorem resolveWithin_settles (context : Context) (durable : Durable context.library allowed)
    (levels : Nat) (stack : List String) (nodes : List Node) :
    Settles allowed (resolveWithin context levels stack nodes) nodes := by
  induction levels generalizing stack nodes with
  | zero => exact fun _ ok => (nomatch ok)
  | succ levels induction =>
      intro progress result progress' labelled ok
      rw [resolveWithin] at ok
      exact resolveNodes_settles (instantiate_settles durable induction stack _) nodes labelled ok

/-- A resolved tree has the labels that are allowed in the page and in copies of definitions, and
none of them is that of a usage. -/
theorem resolve_settles {library : Library} (durable : Durable library allowed) {file : String}
    {nodes : List Node} {registry after : Registry} {resolution : Resolution}
    (labelled : Everywhere (Labelled allowed) nodes)
    (ok : resolve library file nodes registry = .ok (resolution, after)) :
    Everywhere (Labelled (Label.Settled allowed)) resolution.nodes := by
  rw [resolve] at ok
  split at ok
  · cases ok
  · rename_i resolved
    cases ok
    exact resolveWithin_settles ⟨library, file⟩ durable _ _ _ labelled resolved

end

/-- A resolved tree has no usage at any depth, and no slot element if there was none before,
wherever the definitions place their slots. -/
theorem resolve_complete {library : Library} {file : String} {nodes : List Node}
    {registry after : Registry} {resolution : Resolution}
    (ok : resolve library file nodes registry = .ok (resolution, after)) :
    (∀ node ∈ allNodesOfList resolution.nodes, node.isUsage = false) ∧
      ((∀ node ∈ allNodesOfList nodes, node.isSlot = false) →
        ∀ node ∈ allNodesOfList resolution.nodes, node.isSlot = false) := by
  constructor
  · intro node member
    have settled := resolve_settles (durable_anything library) (fun _ _ => trivial) ok node member
    cases node with
    | component => exact settled.elim
    | _ => rfl
  · intro before
    -- copies have slot elements only where content is placed
    have durable : Durable library (Label.Tagged (· ≠ "slot")) := by
      refine ⟨fun _ _ node _ ordinary => ?_, fun _ _ _ _ => ⟨fun _ => id, fun _ => id⟩⟩
      cases node with
      | element tag =>
          have other : tag ≠ "slot" := by simpa [isSlot] using ordinary
          exact other
      | _ => trivial
    have slotless : Everywhere (Labelled (Label.Tagged (· ≠ "slot"))) nodes := by
      intro node member
      cases node with
      | element tag =>
          have other : tag ≠ "slot" := by simpa [isSlot] using before _ member
          exact other
      | _ => trivial
    intro node member
    have settled := resolve_settles durable slotless ok node member
    cases node with
    | element tag =>
        have other : tag ≠ "slot" := settled
        simpa [isSlot] using other
    | _ => rfl

/-- A row shows its content in bold. -/
def boldRow : Definition where
  name := "Row"
  path := "Row.zen"
  nodes := [.element "b" [] [.element "slot" [] [] {}] {}]
  slots := ["default"]
  props := []
  styles := []
  script := none

/-- A sheet gives its content to a row that is repeated, and has a slot inside the fallback of
another one, which may be absent. -/
def nestedSheet : Definition where
  name := "Sheet"
  path := "Sheet.zen"
  nodes := [.element "div" []
    [.loop "loop_0" "rows" ⟨"row", none, ["row"]⟩
        [.component "Row" [] [.element "slot" [] [] {}] {}] {},
      .optional "opt_1" "open"
        [.element "slot" [⟨"name", .fixed "foot", {}⟩] [.element "slot" [] [] {}] {}] {}] {}]
  slots := ["default", "foot"]
  props := []
  styles := []
  script := none

/-- A sheet around a text: the slots inside a usage, a loop and a fallback are all gone. -/
theorem resolve_complete_nestedSheet :
    ∃ resolution after,
      resolve ⟨[("Row", boldRow), ("Sheet", nestedSheet)]⟩ "page.zen"
        [.component "Sheet" [] [.text "hi" {}] {}] {} = .ok (resolution, after) ∧
      (allNodesOfList resolution.nodes).length = 6 ∧
      (∀ node ∈ allNodesOfList resolution.nodes, node.isUsage = false) ∧
      ∀ node ∈ allNodesOfList resolution.nodes, node.isSlot = false := by
  have evaluates : (resolve ⟨[("Row", boldRow), ("Sheet", nestedSheet)]⟩ "page.zen"
      [.component "Sheet" [] [.text "hi" {}] {}] {}).toOption.any
        (fun value => (allNodesOfList value.1.nodes).length == 6) = true := by
    decide +kernel
  obtain ⟨⟨resolution, after⟩, ok, count⟩ := exists_ok _ evaluates
  have complete := resolve_complete ok
  exact ⟨resolution, after, ok, by simpa using count, complete.1, complete.2 (by decide)⟩

end Component
end ReactiveTemplate
