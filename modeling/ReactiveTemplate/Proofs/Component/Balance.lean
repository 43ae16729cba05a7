import ReactiveTemplate.Proofs.Component.Content
import ReactiveTemplate.Proofs.Fragment.Balance

/-!
# The account of an instance

Forwarding the attributes of a usage leaves no id over: an attribute that is overridden is removed.
Dividing its children leaves those in the attributes of markers over, and placing content those in
the attributes of slot elements and in the children of a slot element that content takes the place
of.
-/

namespace ReactiveTemplate

open Node

/-! ## Attributes of a usage -/

theorem Definition.substitute_balance (values : Script.Values) (registry : Registry)
    (nodes : List Node) :
    Balance registry (idsOfList nodes) (substitute values registry nodes).2
      (idsOfList (substitute values registry nodes).1) := by
  rw [substitute]
  split
  · exact .refl _ _
  · refine Traversal.nodes_balance (fun registry e => ?_) registry nodes
    exact .modify (·.setCode e.id _) (fun _ => rfl) [e.id]

namespace Component

variable {registry after : Registry} {definition : Definition} {nodes result : List Node}

/-- The ids of a value. -/
def valueIds (value : AttributeValue) : List String := value.expressions.map Expression.id

theorem ids_cons (attr : Attribute) (rest : List Attribute) :
    Attribute.ids (attr :: rest) = valueIds attr.value ++ Attribute.ids rest := by
  rw [Attribute.ids_eq, Attribute.expressions_cons, List.map_append, ← Attribute.ids_eq, valueIds]

theorem forget_balance (registry : Registry) (value : AttributeValue) :
    Balance registry (valueIds value) (forget registry value) [] := by
  rw [forget_eq]
  exact .removeAll registry _

theorem mergeClass_balance (registry : Registry) (own incoming : Attribute) :
    Balance registry (valueIds own.value ++ valueIds incoming.value)
      (mergeClass registry own incoming).2 (valueIds (mergeClass registry own incoming).1.value) := by
  rw [mergeClass]
  split
  · rename_i first second first_eq second_eq
    rw [first_eq, second_eq]
    exact .refl registry []
  · have gone := (forget_balance registry own.value).append
      (forget_balance (forget registry own.value) incoming.value)
    exact gone.trans (.register _ "expr" _ _ _)

theorem forwardOne_balance (registry : Registry) (incoming : Attribute)
    (attributes : List Attribute) :
    Balance registry (valueIds incoming.value ++ Attribute.ids attributes)
      (forwardOne registry incoming attributes).2
      (Attribute.ids (forwardOne registry incoming attributes).1) := by
  induction attributes generalizing registry with
  | nil =>
      rw [forwardOne, ids_cons]
      exact .refl _ _
  | cons own rest induction =>
      rw [forwardOne, ids_cons]
      have order := List.perm_append_comm_assoc (valueIds incoming.value) (valueIds own.value)
        (Attribute.ids rest)
      split
      · split
        · rw [ids_cons]
          rw [← List.append_assoc (valueIds own.value)] at order
          exact ((mergeClass_balance registry own incoming).beside_left _).perm order
            (List.Perm.refl _)
        · rw [ids_cons]
          exact ((forget_balance registry own.value).beside_left (Attribute.ids rest)).beside_right
            (valueIds incoming.value)
      · rw [ids_cons]
        exact ((induction registry).beside_right _).perm order (List.Perm.refl _)

theorem forwardAll_balance (registry : Registry) (attributes forwarded : List Attribute) :
    Balance registry (Attribute.ids forwarded ++ Attribute.ids attributes)
      (forwardAll registry attributes forwarded).2
      (Attribute.ids (forwardAll registry attributes forwarded).1) := by
  induction forwarded generalizing registry attributes with
  | nil => exact .refl _ _
  | cons incoming rest induction =>
      have first := (forwardOne_balance registry incoming attributes).beside_right
        (Attribute.ids rest)
      rw [ids_cons, forwardAll]
      refine (first.trans (induction _ _)).perm ?_ (List.Perm.refl _)
      rw [List.append_assoc]
      exact List.perm_append_comm_assoc _ _ _

theorem rootAttributes_balance (definition : Definition) (registry : Registry)
    (forwarded attributes : List Attribute) (site : Site) :
    Balance registry (Attribute.ids forwarded ++ Attribute.ids attributes)
      (rootAttributes definition registry forwarded attributes site).2
      (Attribute.ids (rootAttributes definition registry forwarded attributes site).1) := by
  have balance := forwardAll_balance registry attributes forwarded
  rw [rootAttributes]
  dsimp only
  split
  · have own : Attribute.ids [⟨ownerAttribute, .fixed definition.name, site⟩] = [] := rfl
    rw [Attribute.ids] at own
    simp only [Attribute.ids, List.filterMap_append, own, List.append_nil] at balance ⊢
    exact balance
  · exact balance

/-- Forwarding leaves nothing over: what is overridden is removed. -/
theorem forward_balance {usage : Location} {forwarded : List Attribute}
    (ok : forward definition usage forwarded registry nodes = .ok (result, after)) :
    Balance registry (Attribute.ids forwarded ++ idsOfList nodes) after (idsOfList result) := by
  induction nodes generalizing result after with
  | nil =>
      cases forwarded with
      | nil =>
          cases ok
          exact .refl _ _
      | cons attr others => cases ok
  | cons node rest induction =>
      -- what stands before the root is left alone
      have skipped {rest' : List Node}
          (ok : forward definition usage forwarded registry rest = .ok (rest', after)) :
          Balance registry (Attribute.ids forwarded ++ idsOfList (node :: rest)) after
            (idsOfList (node :: rest')) :=
        ((induction ok).beside_right node.ids).perm (List.perm_append_comm_assoc _ _ _)
          (List.Perm.refl _)
      cases node with
      | element tag attributes children site | component name attributes children site =>
          rw [forward] at ok
          cases ok
          have root := (rootAttributes_balance definition registry forwarded attributes site
            ).beside_left (idsOfList children ++ idsOfList rest)
          simp only [idsOfList, ids, ← List.append_assoc] at root ⊢
          exact root
      | _ =>
          simp only [forward] at ok
          split at ok
          · rename_i rest_ok
            cases ok
            exact skipped rest_ok
          · cases ok

/-! ## Content -/

namespace Slots

variable {slots : Slots} {slot : Option String} {content : SlotContent} {scope : Option Scope}

/-- The ids in the attributes of a child that is a marker. -/
def markerIds (parent : String) : Node → List String
  | .component name attributes _ _ =>
    if (markedSlot? parent name).isSome then Attribute.ids attributes else []
  | _ => []

/-- A marker is made of its attributes and of the content that it gives. -/
theorem ids_marker? {parent name : String} {child : Node} {below : List Node}
    (marked : marker? parent child = some (name, below)) :
    child.ids = markerIds parent child ++ idsOfList below := by
  cases child with
  | component own attributes children site =>
      rw [marker?, Option.map_eq_some_iff] at marked
      obtain ⟨found, selects, same⟩ := marked
      cases same
      simp [markerIds, selects, ids]
  | _ => cases marked

theorem markerIds_eq_nil {parent : String} {child : Node} (plain : marker? parent child = none) :
    markerIds parent child = [] := by
  cases child with
  | component own attributes children site =>
      rw [marker?, Option.map_eq_none_iff] at plain
      simp [markerIds, plain]
  | _ => rfl

theorem idsOfList_nodes (slots : Slots) :
    idsOfList slots.nodes = slots.expressions.map Expression.id := by
  rw [expressions_eq, idsOfList_eq]

theorem ids_addNamed (slots : Slots) (slot : String) (nodes : List Node) :
    (idsOfList ({ slots with named := addNamed slot nodes slots.named } : Slots).nodes).Perm
      (idsOfList slots.nodes ++ idsOfList nodes) := by
  rw [idsOfList_nodes, idsOfList_nodes, idsOfList_eq, ← List.map_append]
  exact (expressions_addNamed slots slot nodes).map _

theorem ids_addDefault (slots : Slots) (nodes : List Node) :
    (idsOfList (slots.addDefault nodes).nodes).Perm (idsOfList slots.nodes ++ idsOfList nodes) := by
  rw [idsOfList_nodes, idsOfList_nodes, idsOfList_eq, ← List.map_append]
  exact (expressions_addDefault slots nodes).map _

/-- Dividing children among the slots leaves the ids of markers over. -/
theorem divide_balance {children : List Node} {divided : Slots}
    (ok : divide definition scope slots registry children = .ok (divided, after)) :
    Balance registry (idsOfList slots.nodes ++ idsOfList children) after
      (idsOfList divided.nodes ++ children.flatMap (markerIds definition.name)) := by
  induction children generalizing slots registry with
  | nil =>
      cases ok
      exact .refl _ _
  | cons child rest induction =>
      -- the nodes that `child` supplies are rebound and join the content
      have joined {nodes : List Node} {slots' : Slots}
          (own : child.ids = markerIds definition.name child ++ idsOfList nodes)
          (same : (idsOfList slots'.nodes).Perm
            (idsOfList slots.nodes ++ idsOfList (Node.rebind scope registry nodes).1))
          (ok : divide definition scope slots' (Node.rebind scope registry nodes).2 rest =
            .ok (divided, after)) :
          Balance registry (idsOfList slots.nodes ++ idsOfList (child :: rest)) after
            (idsOfList divided.nodes ++ (child :: rest).flatMap (markerIds definition.name)) := by
        have rebound := (rebind_balance scope registry nodes).beside_right (idsOfList slots.nodes)
        have later := (rebound.perm (List.Perm.refl _) same.symm).beside_left (idsOfList rest)
        have whole := (later.trans (induction ok)).beside_right (markerIds definition.name child)
        rw [idsOfList, own, List.flatMap_cons]
        refine whole.perm ?_ ?_
        all_goals
          simp only [List.perm_iff_count, List.count_append]
          omega
      rcases divide_cons ok with ⟨slot, below, marked, -, ok⟩ | ⟨plain, ok⟩
      · exact joined (ids_marker? marked) (ids_addNamed slots slot _) ok
      · refine joined ?_ (ids_addDefault slots _) ok
        rw [markerIds_eq_nil plain, idsOfList_singleton, List.nil_append]

theorem Unplaced.ids_eq (unplaced : slots.Unplaced) : slots.unplacedIds = idsOfList slots.nodes := by
  rw [unplacedIds_eq, unplaced.pending_eq, idsOfList_nodes]

/-! ### Placing content -/

/-- There is content for the slot. -/
def supplies (slots : Slots) (slot : Option String) : Bool :=
  (slots.content? slot).any (!·.nodes.isEmpty)

theorem Keyed.markPlaced (keyed : slots.Keyed) (slot : Option String) :
    (slots.markPlaced slot).Keyed := by
  cases slot with
  | none => exact keyed
  | some name =>
      rw [Keyed, Slots.markPlaced, List.map_map]
      exact keyed

/-- Placing content changes no node of it. -/
theorem supplies_markPlaced (slots : Slots) (slot : Option String) :
    (slots.markPlaced slot).supplies = slots.supplies := by
  funext other
  rw [supplies, supplies, content?_markPlaced]
  cases slots.content? other with
  | none => rfl
  | some content =>
      rw [Option.map_some, Option.any_some, Option.any_some]
      split <;> rfl

/-- The ids of content that stands nowhere. -/
def waitingIds (content : SlotContent) : List String :=
  if content.placed then [] else idsOfList content.nodes

/-- Content that is placed for the first time waits no longer, and all other content does as
before. -/
theorem unplacedIds_markPlaced (keyed : slots.Keyed) (found : slots.content? slot = some content) :
    slots.unplacedIds.Perm (waitingIds content ++ (slots.markPlaced slot).unplacedIds) := by
  cases slot with
  | none =>
      rw [content?, Option.some_inj] at found
      subst found
      exact List.Perm.refl _
  | some name =>
      obtain ⟨before, rest, shape, -⟩ := List.lookup_eq_some_iff.mp found
      rw [Keyed, shape, List.map_append, List.map_cons, List.nodup_middle, List.nodup_cons,
        ← List.map_append] at keyed
      -- no other content has this name, so that none is marked
      have kept (entries : List (String × SlotContent)) (part : entries ⊆ before ++ rest) :
          (entries.map fun entry =>
            (entry.1, if entry.1 = name then { entry.2 with placed := true } else entry.2)) =
              entries := by
        refine (List.map_congr_left fun entry member => ?_).trans (List.map_id entries)
        have other : entry.1 ≠ name := by
          intro same
          exact keyed.1 (List.mem_map.mpr ⟨entry, part member, same⟩)
        rw [if_neg other, id]
      have marked : (slots.markPlaced (some name)).named =
          before ++ (name, { content with placed := true }) :: rest := by
        have left := kept before (List.subset_append_left _ _)
        have right := kept rest (List.subset_append_right _ _)
        simp only [markPlaced, shape, List.map_append, List.map_cons, if_true, left, right]
      have same : (slots.markPlaced (some name)).default = slots.default := rfl
      simp only [unplacedIds, marked, same, shape, waitingIds, List.map_append, List.map_cons,
        List.flatMap_cons, List.flatMap_append, if_true, List.perm_iff_count, List.count_append]
      intro id
      simp only [List.count_nil]
      omega

end Slots

namespace Placement

variable {p : Placement} {slot : Option String} {content : SlotContent}

/-- What is held while content is placed: the ids of content that stands nowhere. -/
def account (p : Placement) : Account where
  registry := p.registry
  held := p.slots.unplacedIds

theorem insert_balance (usage around : Option Scope) (keyed : p.slots.Keyed)
    (found : p.slots.content? slot = some content) :
    Balance p.registry p.slots.unplacedIds (p.insert usage slot content around).2.registry
      ((p.insert usage slot content around).2.slots.unplacedIds ++
        idsOfList (p.insert usage slot content around).1) := by
  have ready : Balance p.registry (Slots.waitingIds content) (content.ready p.registry).2
      (idsOfList (content.ready p.registry).1) := by
    rw [Slots.waitingIds, SlotContent.ready]
    split
    · exact rekey_balance p.registry content.nodes
    · exact .refl _ _
  have rebound := ready.trans (rebind_balance around _ _)
  have order := Slots.unplacedIds_markPlaced keyed found
  exact (rebound.beside_left _).perm order List.perm_append_comm

end Placement

mutual

/-- The ids of a copy that are left over when content is placed: those in the attributes of slot
elements, and those in children of slot elements that give way to content. -/
def leftInNode (supplies : Option String → Bool) : Node → List String
  | .element tag attributes children _ =>
    if tag = "slot" then
      Attribute.ids attributes ++
        if supplies (Slots.selected attributes) then idsOfList children
        else leftInNodes supplies children
    else leftInNodes supplies children
  | .component _ _ children _ => leftInNodes supplies children
  | .conditional _ _ consequent alternate _ =>
    leftInNodes supplies consequent ++ leftInNodes supplies alternate
  | .optional _ _ branch _ => leftInNodes supplies branch
  | .loop _ _ _ body _ => leftInNodes supplies body
  | .text .. | .expression _ | .doctype .. => []

/-- The ids of the nodes of a copy that are left over when content is placed. -/
def leftInNodes (supplies : Option String → Bool) : List Node → List String
  | [] => []
  | node :: rest => leftInNode supplies node ++ leftInNodes supplies rest

end

/-- What stays the same while content is placed. -/
structure Placement.Steady (supplies : Option String → Bool) (p : Placement) : Prop where
  /-- The names of slots are distinct. -/
  keyed : p.slots.Keyed
  /-- There is content for the same slots. -/
  same : p.slots.supplies = supplies

mutual

theorem placeNode_moves (usage : Option Scope) {supplies : Option String → Bool} :
    ∀ (node : Node) {p : Placement}, p.Steady supplies →
      Account.Moves p.account [node] (placeNode usage p node).2.account (placeNode usage p node).1
        (leftInNode supplies node) ∧ (placeNode usage p node).2.Steady supplies
  | .element tag attributes children site, p, steady => by
      have below := placeNodes_moves usage children steady
      rw [placeNode, leftInNode]
      by_cases isSlot : tag = "slot"
      · rw [if_pos isSlot, if_pos isSlot]
        have dropped := below.1.unwrap (Attribute.ids attributes)
          (idsOfList_singleton (.element tag attributes children site))
        have filled : p.slots.supplies (Slots.selected attributes) =
            supplies (Slots.selected attributes) := congrFun steady.same _
        rw [Slots.supplies] at filled
        dsimp only
        cases found : p.slots.content? (Slots.selected attributes) with
        | none =>
            rw [found, Option.any_none] at filled
            rw [if_neg (by simp [← filled])]
            exact ⟨dropped, below.2⟩
        | some content =>
            rw [found, Option.any_some] at filled
            dsimp only
            by_cases empty : content.nodes.isEmpty
            · rw [if_pos empty, if_neg (by simp [← filled, empty])]
              exact ⟨dropped, below.2⟩
            · rw [if_neg empty, if_pos (by simp [← filled, empty])]
              have inserted := Placement.insert_balance usage site.scope steady.keyed found
              refine ⟨?_, steady.keyed.markPlaced _,
                (Slots.supplies_markPlaced p.slots _).trans steady.same⟩
              have whole := inserted.beside_left
                (Attribute.ids attributes ++ idsOfList children)
              rw [List.append_assoc] at whole
              rw [Account.Moves, idsOfList_singleton, ids]
              exact whole
      · rw [if_neg isSlot, if_neg isSlot]
        exact ⟨below.1.element tag attributes site, below.2⟩
  | .component name attributes children site, p, steady => by
      have below := placeNodes_moves usage children steady
      rw [placeNode, leftInNode]
      exact ⟨below.1.component name attributes site, below.2⟩
  | .conditional id condition consequent alternate site, p, steady => by
      have first := placeNodes_moves usage consequent steady
      have second := placeNodes_moves usage alternate first.2
      rw [placeNode, leftInNode]
      exact ⟨first.1.conditional id condition site second.1, second.2⟩
  | .optional id condition branch site, p, steady => by
      have below := placeNodes_moves usage branch steady
      rw [placeNode, leftInNode]
      exact ⟨below.1.optional id condition site, below.2⟩
  | .loop id source binder body site, p, steady => by
      have below := placeNodes_moves usage body steady
      rw [placeNode, leftInNode]
      exact ⟨below.1.loop id source binder site, below.2⟩
  | .text .., p, steady | .expression _, p, steady | .doctype .., p, steady => by
      rw [placeNode, leftInNode]
      exact ⟨.refl _ _, steady⟩

theorem placeNodes_moves (usage : Option Scope) {supplies : Option String → Bool} :
    ∀ (nodes : List Node) {p : Placement}, p.Steady supplies →
      Account.Moves p.account nodes (placeNodes usage p nodes).2.account
        (placeNodes usage p nodes).1 (leftInNodes supplies nodes) ∧
      (placeNodes usage p nodes).2.Steady supplies
  | [], p, steady => by
      rw [placeNodes, leftInNodes]
      exact ⟨.refl _ _, steady⟩
  | node :: rest, p, steady => by
      have first := placeNode_moves usage node steady
      have second := placeNodes_moves usage rest first.2
      rw [placeNodes, leftInNodes]
      exact ⟨first.1.append second.1, second.2⟩

end

end Component
end ReactiveTemplate
