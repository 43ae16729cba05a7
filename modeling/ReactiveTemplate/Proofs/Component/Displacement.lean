import ReactiveTemplate.Proofs.Component.Resolution
import ReactiveTemplate.Proofs.Fragment.Displacement

/-!
# Resolution at other places

Where a usage stands decides nothing about its instance.  Main statement: displaced trees are
resolved to displaced trees with the same ids and the same expectations, or refused in both runs.
-/

namespace ReactiveTemplate

variable {registry registry' : Registry}

/-! ## Props -/

namespace Definition

variable {attributes attributes' : List Attribute}

theorem isProp_displaced (definition : Definition) {attr attr' : Attribute}
    (displaced : attr.Displaced attr') : definition.isProp attr = definition.isProp attr' := by
  rw [isProp, isProp, displaced.name]

theorem valueCode_displaced {value value' : AttributeValue}
    (displaced : value.Alike Expression.Displaced value') : valueCode value = valueCode value' := by
  cases displaced with
  | fixed text => rfl
  | dynamic own => rw [valueCode, valueCode, own.code]

theorem propValues_displaced (definition : Definition)
    (displaced : Attribute.AllDisplaced attributes attributes') :
    definition.propValues attributes = definition.propValues attributes' := by
  have one (prop : String) : propValue attributes prop = propValue attributes' prop := by
    rw [propValue, propValue]
    induction displaced with
    | nil => rfl
    | @cons attr attr' rest rest' own _ induction =>
        rw [List.find?_cons, List.find?_cons, own.name]
        cases Text.equalIgnoringAsciiCase attr'.name prop with
        | true => exact valueCode_displaced own.value
        | false => exact induction
  rw [propValues, propValues]
  exact List.map_congr_left fun prop _ => by rw [one prop]

theorem substitute_displaced (values : Script.Values) {nodes nodes' : List Node}
    (displaced : Node.Displaced nodes nodes') (same : registry.SameIds registry') :
    MadeDisplaced (substitute values registry nodes) (substitute values registry' nodes') := by
  rw [substitute, substitute]
  split
  · exact ⟨displaced, same⟩
  · refine Traversal.Concordant.nodes
      { site := fun _ own => own
        expression := fun {_ _ e e'} same own =>
          ⟨⟨own.id, ?_, own.scope⟩, same.modify e.id e'.id (fun _ => rfl) fun _ => rfl⟩ }
      displaced same
    simp only [substituting, own.code, own.scope]

end Definition

namespace Component

/-! ## Content -/

/-- Content is the same but for locations. -/
structure SlotContent.Displaced (content content' : SlotContent) : Prop where
  nodes : Node.Displaced content.nodes content'.nodes
  placed : content.placed = content'.placed

/-- Content of the same name that is the same but for locations. -/
def SlotContent.NamedDisplaced (entry entry' : String × SlotContent) : Prop :=
  entry.1 = entry'.1 ∧ entry.2.Displaced entry'.2

/-- All content is the same but for locations. -/
structure Slots.Displaced (slots slots' : Slots) : Prop where
  default : slots.default.Displaced slots'.default
  named : List.Forall₂ SlotContent.NamedDisplaced slots.named slots'.named

namespace Slots

variable {slots slots' : Slots}

theorem Displaced.empty : ({} : Slots).Displaced {} := ⟨⟨.nil, rfl⟩, .nil⟩

theorem Displaced.addDefault {nodes nodes' : List Node} (displaced : slots.Displaced slots')
    (new : Node.Displaced nodes nodes') :
    (slots.addDefault nodes).Displaced (slots'.addDefault nodes') :=
  ⟨⟨displaced.default.nodes.append new, displaced.default.placed⟩, displaced.named⟩

theorem addNamed_displaced {nodes nodes' : List Node} {named named' : List (String × SlotContent)}
    (slot : String) (displaced : List.Forall₂ SlotContent.NamedDisplaced named named')
    (new : Node.Displaced nodes nodes') :
    List.Forall₂ SlotContent.NamedDisplaced (addNamed slot nodes named)
      (addNamed slot nodes' named') := by
  induction displaced with
  | nil => exact .cons ⟨rfl, new, rfl⟩ .nil
  | @cons entry entry' rest rest' own others induction =>
      obtain ⟨key, content⟩ := entry
      obtain ⟨key', content'⟩ := entry'
      obtain ⟨rfl, contents⟩ := own
      rw [addNamed, addNamed]
      split
      · exact .cons ⟨rfl, contents.nodes.append new, contents.placed⟩ others
      · exact .cons ⟨rfl, contents⟩ induction

/-- Content and registries after dividing. -/
def DividedDisplaced (divided divided' : Slots × Registry) : Prop :=
  divided.1.Displaced divided'.1 ∧ divided.2.SameIds divided'.2

theorem divide_displaced (definition : Definition) (scope : Option Scope)
    {children children' : List Node} (below : Node.Displaced children children')
    (displaced : slots.Displaced slots') (same : registry.SameIds registry') :
    Concurs DividedDisplaced (divide definition scope slots registry children)
      (divide definition scope slots' registry' children') := by
  -- a child that is no marker joins the default slot
  have plain {child child' : Node} {rest rest' : List Node} {slots slots' : Slots}
      {registry registry' : Registry} (own : Node.Displaced [child] [child'])
      (displaced : slots.Displaced slots') (same : registry.SameIds registry')
      (behind : ∀ {slots slots' : Slots} {registry registry' : Registry},
        slots.Displaced slots' → registry.SameIds registry' →
        Concurs DividedDisplaced (divide definition scope slots registry rest)
          (divide definition scope slots' registry' rest')) :
      Concurs DividedDisplaced
        (divide definition scope (slots.addDefault (Node.rebind scope registry [child]).1)
          (Node.rebind scope registry [child]).2 rest)
        (divide definition scope (slots'.addDefault (Node.rebind scope registry' [child']).1)
          (Node.rebind scope registry' [child']).2 rest') := by
    obtain ⟨rebound, after⟩ := Node.rebind_displaced scope own same
    exact behind (displaced.addDefault rebound) after
  induction below generalizing slots slots' registry registry' with
  | nil => exact .ok ⟨displaced, same⟩
  | @component name attributes attributes' site site' children children' rest rest' own scopes inner
      _ _ behind =>
      rw [divide, divide]
      cases markedSlot? definition.name name with
      | none => exact plain (.component own scopes inner .nil) displaced same behind
      | some slot =>
          dsimp only
          split
          · obtain ⟨rebound, after⟩ := Node.rebind_displaced scope inner same
            exact behind ⟨displaced.default, addNamed_displaced slot displaced.named rebound⟩ after
          · exact .error _ _
  | element own scopes inner _ _ behind =>
      simp only [divide]
      exact plain (.element own scopes inner .nil) displaced same behind
  | text scopes _ behind =>
      simp only [divide]
      exact plain (.text scopes .nil) displaced same behind
  | expression own _ behind =>
      simp only [divide]
      exact plain (.expression own .nil) displaced same behind
  | conditional scopes first second _ _ _ behind =>
      simp only [divide]
      exact plain (.conditional scopes first second .nil) displaced same behind
  | optional scopes branch _ _ behind =>
      simp only [divide]
      exact plain (.optional scopes branch .nil) displaced same behind
  | loop scopes body _ _ behind =>
      simp only [divide]
      exact plain (.loop scopes body .nil) displaced same behind
  | doctype _ behind =>
      simp only [divide]
      exact plain (.doctype .nil) displaced same behind

theorem lookup_displaced {named named' : List (String × SlotContent)}
    (displaced : List.Forall₂ SlotContent.NamedDisplaced named named') (name : String) :
    Option.Rel SlotContent.Displaced (named.lookup name) (named'.lookup name) := by
  induction displaced with
  | nil => exact .none
  | @cons entry entry' rest rest' own _ induction =>
      obtain ⟨key, content⟩ := entry
      obtain ⟨key', content'⟩ := entry'
      obtain ⟨rfl, contents⟩ := own
      rw [List.lookup_cons, List.lookup_cons]
      cases name == key with
      | true => exact .some contents
      | false => exact induction

theorem Displaced.content? (displaced : slots.Displaced slots') (slot : Option String) :
    Option.Rel SlotContent.Displaced (slots.content? slot) (slots'.content? slot) := by
  cases slot with
  | none => exact .some displaced.default
  | some name => exact lookup_displaced displaced.named name

theorem Displaced.markPlaced (displaced : slots.Displaced slots') (slot : Option String) :
    (slots.markPlaced slot).Displaced (slots'.markPlaced slot) := by
  cases slot with
  | none => exact ⟨⟨displaced.default.nodes, rfl⟩, displaced.named⟩
  | some name =>
      refine ⟨displaced.default, ?_⟩
      rw [Slots.markPlaced, Slots.markPlaced, List.forall₂_map_left_iff,
        List.forall₂_map_right_iff]
      refine displaced.named.imp fun entry entry' own => ?_
      obtain ⟨key, content⟩ := entry
      obtain ⟨key', content'⟩ := entry'
      obtain ⟨rfl, contents⟩ := own
      dsimp only
      split
      · exact ⟨rfl, contents.nodes, rfl⟩
      · exact ⟨rfl, contents⟩

theorem Displaced.unplacedIds_eq (displaced : slots.Displaced slots') :
    slots.unplacedIds = slots'.unplacedIds := by
  have one {content content' : SlotContent} (own : content.Displaced content') :
      (if content.placed then [] else Node.idsOfList content.nodes) =
        if content'.placed then [] else Node.idsOfList content'.nodes := by
    rw [own.placed, own.nodes.idsOfList_eq]
  have named := displaced.named
  rw [unplacedIds, unplacedIds, List.flatMap_cons, List.flatMap_cons, one displaced.default]
  generalize slots.named = entries at named
  generalize slots'.named = entries' at named
  congr 1
  induction named with
  | nil => rfl
  | cons own _ induction =>
      rw [List.map_cons, List.map_cons, List.flatMap_cons, List.flatMap_cons, one own.2, induction]

end Slots

/-! ## Slot elements -/

/-- Placements are the same but for locations in the content. -/
structure Placement.Displaced (p p' : Placement) : Prop where
  slots : p.slots.Displaced p'.slots
  registry : p.registry.SameIds p'.registry
  expectations : p.expectations = p'.expectations

/-- Nodes and placements afterwards. -/
def PlacedDisplaced (placed placed' : List Node × Placement) : Prop :=
  Node.Displaced placed.1 placed'.1 ∧ placed.2.Displaced placed'.2

variable {usage : Option Scope} {p p' : Placement}

theorem Placement.insert_displaced {content content' : SlotContent} (slot : Option String)
    (around : Option Scope) (displaced : p.Displaced p') (contents : content.Displaced content') :
    PlacedDisplaced (p.insert usage slot content around) (p'.insert usage slot content' around) := by
  have ready : MadeDisplaced (content.ready p.registry) (content'.ready p'.registry) := by
    rw [SlotContent.ready, SlotContent.ready, contents.placed]
    split
    · exact Node.rekey_displaced contents.nodes displaced.registry
    · exact ⟨contents.nodes, displaced.registry⟩
  obtain ⟨rebound, after⟩ := Node.rebind_displaced around ready.1 ready.2
  have expected : expectAll usage (content.ready p.registry).1 p.expectations =
      expectAll usage (content'.ready p'.registry).1 p'.expectations := by
    rw [expectAll, expectAll, displaced.expectations, ready.1.idsOfList_eq]
  rw [Placement.insert_eq, Placement.insert_eq]
  exact ⟨rebound, displaced.slots.markPlaced slot, after, expected⟩

theorem placeNodes_displaced (usage : Option Scope) {nodes nodes' : List Node}
    (displaced : Node.Displaced nodes nodes')
    (placement : p.Displaced p') :
    PlacedDisplaced (placeNodes usage p nodes) (placeNodes usage p' nodes') := by
  induction displaced generalizing p p' with
  | nil => exact ⟨.nil, placement⟩
  | @element tag attributes attributes' site site' children children' rest rest' own scopes _ _ below
      behind =>
      have first : PlacedDisplaced (placeNode usage p (.element tag attributes children site))
          (placeNode usage p' (.element tag attributes' children' site')) := by
        rw [placeNode, placeNode]
        split
        · have selects : Slots.selected attributes = Slots.selected attributes' := by
            rw [Slots.selected, Slots.selected, own.alike.fixed?]
          rw [← selects, scopes]
          dsimp only
          have contents := placement.slots.content? (Slots.selected attributes)
          generalize p.slots.content? (Slots.selected attributes) = content at contents
          generalize p'.slots.content? (Slots.selected attributes) = content' at contents
          cases contents with
          | none => exact below placement
          | some contents =>
              dsimp only
              rw [← contents.nodes.isEmpty_eq]
              split
              · exact below placement
              · exact Placement.insert_displaced _ _ placement contents
        · obtain ⟨inner, after⟩ := below placement
          exact ⟨.element own scopes inner .nil, after⟩
      rw [placeNodes, placeNodes]
      obtain ⟨others, after⟩ := behind first.2
      exact ⟨first.1.append others, after⟩
  | component own scopes _ _ below behind =>
      rw [placeNodes, placeNodes, placeNode, placeNode]
      obtain ⟨inner, middle⟩ := below placement
      obtain ⟨others, after⟩ := behind middle
      exact ⟨.component own scopes inner others, after⟩
  | text scopes _ behind =>
      rw [placeNodes, placeNodes, placeNode, placeNode]
      obtain ⟨others, after⟩ := behind placement
      exact ⟨.text scopes others, after⟩
  | expression own _ behind =>
      rw [placeNodes, placeNodes, placeNode, placeNode]
      obtain ⟨others, after⟩ := behind placement
      exact ⟨.expression own others, after⟩
  | conditional scopes _ _ _ left right behind =>
      rw [placeNodes, placeNodes, placeNode, placeNode]
      obtain ⟨first, one⟩ := left placement
      obtain ⟨second, two⟩ := right one
      obtain ⟨others, after⟩ := behind two
      exact ⟨.conditional scopes first second others, after⟩
  | optional scopes _ _ below behind =>
      rw [placeNodes, placeNodes, placeNode, placeNode]
      obtain ⟨inner, middle⟩ := below placement
      obtain ⟨others, after⟩ := behind middle
      exact ⟨.optional scopes inner others, after⟩
  | loop scopes _ _ below behind =>
      rw [placeNodes, placeNodes, placeNode, placeNode]
      obtain ⟨inner, middle⟩ := below placement
      obtain ⟨others, after⟩ := behind middle
      exact ⟨.loop scopes inner others, after⟩
  | doctype _ behind =>
      rw [placeNodes, placeNodes, placeNode, placeNode]
      obtain ⟨others, after⟩ := behind placement
      exact ⟨.doctype others, after⟩

/-! ## Forwarded attributes -/

/-- Attributes and registries afterwards. -/
def ForwardedDisplaced (forwarded forwarded' : List Attribute × Registry) : Prop :=
  Attribute.AllDisplaced forwarded.1 forwarded'.1 ∧ forwarded.2.SameIds forwarded'.2

theorem forget_displaced {value value' : AttributeValue} (same : registry.SameIds registry')
    (displaced : value.Alike Expression.Displaced value') :
    (forget registry value).SameIds (forget registry' value') := by
  cases displaced with
  | fixed text => exact same
  | dynamic own =>
      rw [forget, forget, own.id]
      exact same.remove _

/-- A class of the root and a class of the usage, combined in new code. -/
theorem mergeClass_displaced {own own' incoming incoming' : Attribute}
    (root : own.Displaced own') (given : incoming.Displaced incoming')
    (same : registry.SameIds registry') :
    (mergeClass registry own incoming).1.Displaced (mergeClass registry' own' incoming').1 ∧
      (mergeClass registry own incoming).2.SameIds (mergeClass registry' own' incoming').2 := by
  have forgotten := forget_displaced (forget_displaced same root.value) given.value
  have first := Definition.valueCode_displaced root.value
  have second := Definition.valueCode_displaced given.value
  obtain ⟨name, value, site⟩ := own
  obtain ⟨name', value', site'⟩ := own'
  obtain ⟨given_name, given_value, given_site⟩ := incoming
  obtain ⟨given_name', given_value', given_site'⟩ := incoming'
  obtain ⟨-, values, scopes⟩ := root
  obtain ⟨rfl, given_values, given_scopes⟩ := given
  have joined := forgotten.register "expr"
    ("[" ++ Definition.valueCode value' ++ ", " ++ Definition.valueCode given_value' ++
      "].filter(Boolean).join(\" \")")
    ("[" ++ Definition.valueCode value' ++ ", " ++ Definition.valueCode given_value' ++
      "].filter(Boolean).join(\" \")")
    given_site.location given_site'.location
    (Scope.merge site'.scope given_site'.scope) (Scope.merge site'.scope given_site'.scope)
  simp only at first second scopes given_scopes forgotten
  cases values with
  | fixed text =>
      cases given_values with
      | fixed given_text => exact ⟨⟨rfl, .fixed _, given_scopes⟩, same⟩
      | dynamic _ =>
          simp only [mergeClass, second, scopes, given_scopes]
          exact ⟨⟨rfl, .dynamic ⟨joined.1, rfl, rfl⟩, rfl⟩, joined.2⟩
  | dynamic _ =>
      simp only [mergeClass, first, second, scopes, given_scopes]
      exact ⟨⟨rfl, .dynamic ⟨joined.1, rfl, rfl⟩, rfl⟩, joined.2⟩

theorem forwardOne_displaced {incoming incoming' : Attribute}
    {attributes attributes' : List Attribute} (given : incoming.Displaced incoming')
    (root : Attribute.AllDisplaced attributes attributes') (same : registry.SameIds registry') :
    ForwardedDisplaced (forwardOne registry incoming attributes)
      (forwardOne registry' incoming' attributes') := by
  induction root generalizing registry registry' with
  | nil => exact ⟨.cons given .nil, same⟩
  | cons own others induction =>
      rw [forwardOne, forwardOne, own.name, given.name]
      split
      · split
        · obtain ⟨merged, after⟩ := mergeClass_displaced own given same
          exact ⟨.cons merged others, after⟩
        · exact ⟨.cons given others, forget_displaced same own.value⟩
      · obtain ⟨rest, after⟩ := induction same
        exact ⟨.cons own rest, after⟩

theorem forwardAll_displaced {attributes attributes' forwarded forwarded' : List Attribute}
    (given : Attribute.AllDisplaced forwarded forwarded')
    (root : Attribute.AllDisplaced attributes attributes') (same : registry.SameIds registry') :
    ForwardedDisplaced (forwardAll registry attributes forwarded)
      (forwardAll registry' attributes' forwarded') := by
  induction given generalizing attributes attributes' registry registry' with
  | nil => exact ⟨root, same⟩
  | cons own _ induction =>
      obtain ⟨whole, after⟩ := forwardOne_displaced own root same
      exact induction whole after

theorem rootAttributes_displaced (definition : Definition) {site site' : Site}
    {attributes attributes' forwarded forwarded' : List Attribute}
    (given : Attribute.AllDisplaced forwarded forwarded')
    (root : Attribute.AllDisplaced attributes attributes') (scopes : site.scope = site'.scope)
    (same : registry.SameIds registry') :
    ForwardedDisplaced (rootAttributes definition registry forwarded attributes site)
      (rootAttributes definition registry' forwarded' attributes' site') := by
  obtain ⟨whole, after⟩ := forwardAll_displaced given root same
  rw [rootAttributes, rootAttributes]
  dsimp only
  rw [whole.any_eq (· == ownerAttribute)]
  split
  · exact ⟨List.rel_append whole (.cons ⟨rfl, .fixed _, scopes⟩ .nil), after⟩
  · exact ⟨whole, after⟩

theorem forward_displaced (definition : Definition) (place place' : Location)
    {forwarded forwarded' : List Attribute} {nodes nodes' : List Node}
    (given : Attribute.AllDisplaced forwarded forwarded')
    (displaced : Node.Displaced nodes nodes') (same : registry.SameIds registry') :
    Concurs MadeDisplaced (forward definition place forwarded registry nodes)
      (forward definition place' forwarded' registry' nodes') := by
  -- nodes that are no root are passed over
  have passed {node node' : Node} {rest rest' : List Node} (other : node.isRoot = false)
      (other' : node'.isRoot = false) (own : Node.Displaced [node] [node'])
      (behind : Concurs MadeDisplaced (forward definition place forwarded registry rest)
        (forward definition place' forwarded' registry' rest')) :
      Concurs MadeDisplaced (forward definition place forwarded registry (node :: rest))
        (forward definition place' forwarded' registry' (node' :: rest')) := by
    rw [forward_cons other, forward_cons other']
    rcases behind.error_or_ok with ⟨fault, fault', left, right⟩ | ⟨made, made', both, left, right⟩
    · rw [left, right]
      exact .error _ _
    · rw [left, right]
      exact .ok ⟨own.append both.1, both.2⟩
  induction displaced with
  | nil =>
      cases given with
      | nil => exact .ok ⟨.nil, same⟩
      | cons own _ => exact .error _ _
  | element own scopes children rest _ _ =>
      obtain ⟨attributes, after⟩ := rootAttributes_displaced definition given own scopes same
      exact .ok ⟨.element attributes scopes children rest, after⟩
  | component own scopes children rest _ _ =>
      obtain ⟨attributes, after⟩ := rootAttributes_displaced definition given own scopes same
      exact .ok ⟨.component attributes scopes children rest, after⟩
  | text scopes _ behind => exact passed rfl rfl (.text scopes .nil) behind
  | expression own _ behind => exact passed rfl rfl (.expression own .nil) behind
  | conditional scopes first second _ _ _ behind =>
      exact passed rfl rfl (.conditional scopes first second .nil) behind
  | optional scopes branch _ _ behind => exact passed rfl rfl (.optional scopes branch .nil) behind
  | loop scopes body _ _ behind => exact passed rfl rfl (.loop scopes body .nil) behind
  | doctype _ behind => exact passed rfl rfl (.doctype .nil) behind

/-! ## Instances -/

/-- Usages are the same but for locations. -/
structure Usage.Displaced (usage usage' : Usage) : Prop where
  name : usage.name = usage'.name
  attributes : Attribute.AllDisplaced usage.attributes usage'.attributes
  children : Node.Displaced usage.children usage'.children
  scope : usage.site.scope = usage'.site.scope

/-- Resolution has come equally far in both runs. -/
structure Progress.Level (progress progress' : Progress) : Prop where
  registry : progress.registry.SameIds progress'.registry
  expectations : progress.expectations = progress'.expectations

/-- Nodes that have been made are the same but for locations, and resolution has come equally
far. -/
def AdvancedDisplaced (made made' : List Node × Progress) : Prop :=
  Node.Displaced made.1 made'.1 ∧ made.2.Level made'.2

section Instances

variable {definition : Definition} {usage usage' : Usage} {context : Context}
variable {progress progress' : Progress}

theorem Progress.Level.use (level : progress.Level progress') (definition : Definition) :
    (progress.use definition).Level (progress'.use definition) := by
  refine ⟨?_, ?_⟩
  · rw [Progress.use_registry, Progress.use_registry]
    exact level.registry
  · rw [Progress.use_expectations, Progress.use_expectations, level.expectations]

/-- The attributes that satisfy a test on which displaced attributes agree. -/
theorem Usage.Displaced.filter (displaced : usage.Displaced usage') (test : Attribute → Bool)
    (agree : ∀ {attr attr' : Attribute}, attr.Displaced attr' → test attr = test attr') :
    Attribute.AllDisplaced (usage.attributes.filter test) (usage'.attributes.filter test) :=
  List.rel_filter (fun attr attr' own => by simp only [agree own]) displaced.attributes

theorem copy_displaced (definition : Definition) (usages : usage.Displaced usage')
    (same : registry.SameIds registry') :
    Concurs MadeDisplaced (copy definition usage registry) (copy definition usage' registry') := by
  have given := usages.filter definition.isProp definition.isProp_displaced
  have rekeyed := Node.rekey_displaced (.refl definition.nodes) same
  unfold copy
  dsimp only
  rw [definition.propValues_displaced given, given.ids_eq]
  refine (Fragment.lower_displaced definition.path rekeyed.1 rekeyed.2).bind
    fun low low' lowered => ?_
  have removed := lowered.2.removeAll
    (Attribute.ids (usage'.attributes.filter definition.isProp))
  obtain ⟨filled, after⟩ := Definition.substitute_displaced
    (definition.propValues (usage'.attributes.filter definition.isProp)) lowered.1 removed
  exact .ok (Node.relocate_displaced usage.site.location usage'.site.location filled after)

/-- Instances for displaced usages with displaced content are displaced. -/
theorem assemble_displaced (definition : Definition) (usages : usage.Displaced usage')
    {slots slots' : Slots} (contents : slots.Displaced slots') (level : progress.Level progress') :
    Concurs AdvancedDisplaced (assemble context definition usage slots progress)
      (assemble context definition usage' slots' progress') := by
  unfold assemble
  rw [usages.scope]
  refine (copy_displaced definition usages level.registry).bind fun made made' copied => ?_
  have before : Placement.Displaced ⟨slots, made.2, progress.expectations⟩
      ⟨slots', made'.2, progress'.expectations⟩ := ⟨contents, copied.2, level.expectations⟩
  have placed := placeNodes_displaced usage'.site.scope copied.1 before
  have dropped := placed.2.registry.removeAll
    (placeNodes usage'.site.scope ⟨slots, made.2, progress.expectations⟩
      made.1).2.slots.unplacedIds
  rw [placed.2.slots.unplacedIds_eq] at dropped
  have forwarded := usages.filter (fun attr => !definition.isProp attr)
    fun own => by rw [definition.isProp_displaced own]
  dsimp only
  rw [placed.2.slots.unplacedIds_eq]
  refine ((forward_displaced definition usage.site.location usage'.site.location forwarded placed.1
    dropped).reportIn context.file).bind fun root root' both => ?_
  obtain ⟨rebound, after⟩ := Node.rebind_displaced usage'.site.scope both.1 both.2
  exact .ok ⟨rebound, after, placed.2.expectations⟩

end Instances

/-! ## Trees -/

/-- Displaced usages are replaced by displaced nodes, or refused in both runs. -/
def Placeless (replace : Usage → Action (List Node)) : Prop :=
  ∀ {usage usage' : Usage} {progress progress' : Progress}, usage.Displaced usage' →
    progress.Level progress' →
    Concurs AdvancedDisplaced (replace usage progress) (replace usage' progress')

section Trees

variable {replace : Usage → Action (List Node)} {nodes nodes' : List Node}
variable {progress progress' : Progress}

private theorem resolveNodes_concurs {node node' : Node} {rest rest' : List Node}
    (own : Concurs AdvancedDisplaced (resolveNode replace node progress)
      (resolveNode replace node' progress'))
    (behind : ∀ {progress progress' : Progress}, progress.Level progress' →
      Concurs AdvancedDisplaced (resolveNodes replace rest progress)
        (resolveNodes replace rest' progress')) :
    Concurs AdvancedDisplaced (resolveNodes replace (node :: rest) progress)
      (resolveNodes replace (node' :: rest') progress') := by
  rw [resolveNodes, resolveNodes]
  refine own.bind fun first first' made => ?_
  refine (behind made.2).bind fun others others' more => ?_
  exact .ok ⟨made.1.append more.1, more.2⟩

theorem resolveNodes_displaced (placeless : Placeless replace)
    (displaced : Node.Displaced nodes nodes') (level : progress.Level progress') :
    Concurs AdvancedDisplaced (resolveNodes replace nodes progress)
      (resolveNodes replace nodes' progress') := by
  induction displaced generalizing progress progress' with
  | nil =>
      rw [resolveNodes, resolveNodes]
      exact .ok ⟨.nil, level⟩
  | component own scopes children _ _ behind =>
      refine resolveNodes_concurs ?_ behind
      rw [resolveNode, resolveNode]
      exact placeless ⟨rfl, own, children, scopes⟩ level
  | element own scopes _ _ below behind =>
      refine resolveNodes_concurs ?_ behind
      rw [resolveNode, resolveNode]
      refine (below level).bind fun inner inner' made => ?_
      exact .ok ⟨.element own scopes made.1 .nil, made.2⟩
  | text scopes _ behind =>
      refine resolveNodes_concurs ?_ behind
      rw [resolveNode, resolveNode]
      exact .ok ⟨.text scopes .nil, level⟩
  | expression own _ behind =>
      refine resolveNodes_concurs ?_ behind
      rw [resolveNode, resolveNode]
      exact .ok ⟨.expression own .nil, level⟩
  | conditional scopes _ _ _ left right behind =>
      refine resolveNodes_concurs ?_ behind
      rw [resolveNode, resolveNode]
      refine (left level).bind fun first first' one => ?_
      refine (right one.2).bind fun second second' two => ?_
      exact .ok ⟨.conditional scopes one.1 two.1 .nil, two.2⟩
  | optional scopes _ _ below behind =>
      refine resolveNodes_concurs ?_ behind
      rw [resolveNode, resolveNode]
      refine (below level).bind fun inner inner' made => ?_
      exact .ok ⟨.optional scopes made.1 .nil, made.2⟩
  | loop scopes _ _ below behind =>
      refine resolveNodes_concurs ?_ behind
      rw [resolveNode, resolveNode]
      refine (below level).bind fun inner inner' made => ?_
      exact .ok ⟨.loop scopes made.1 .nil, made.2⟩
  | doctype _ behind =>
      refine resolveNodes_concurs ?_ behind
      rw [resolveNode, resolveNode]
      exact .ok ⟨.doctype .nil, level⟩

theorem resolveNamed_displaced (placeless : Placeless replace)
    {named named' : List (String × SlotContent)}
    (displaced : List.Forall₂ SlotContent.NamedDisplaced named named')
    (level : progress.Level progress') :
    Concurs (fun filled filled' => List.Forall₂ SlotContent.NamedDisplaced filled.1 filled'.1 ∧
        filled.2.Level filled'.2)
      (resolveNamed (resolveNodes replace) named progress)
      (resolveNamed (resolveNodes replace) named' progress') := by
  induction displaced generalizing progress progress' with
  | nil => exact .ok ⟨.nil, level⟩
  | @cons entry entry' rest rest' own _ induction =>
      obtain ⟨key, content⟩ := entry
      obtain ⟨key', content'⟩ := entry'
      obtain ⟨rfl, contents⟩ := own
      rw [resolveNamed, resolveNamed]
      refine (resolveNodes_displaced placeless contents.nodes level).bind
        fun made made' both => ?_
      refine (induction both.2).bind fun others others' more => ?_
      exact .ok ⟨.cons ⟨rfl, both.1, contents.placed⟩ more.1, more.2⟩

/-- Content is sorted by names, which are the same in both runs. -/
theorem mergeSort_displaced {named named' : List (String × SlotContent)}
    (displaced : List.Forall₂ SlotContent.NamedDisplaced named named') :
    List.Forall₂ SlotContent.NamedDisplaced (named.mergeSort fun a b => a.1 ≤ b.1)
      (named'.mergeSort fun a b => a.1 ≤ b.1) :=
  forall₂_mergeSort displaced fun first second => by rw [first.1, second.1]

theorem resolveSlots_displaced (placeless : Placeless replace) {slots slots' : Slots}
    (displaced : slots.Displaced slots') (level : progress.Level progress') :
    Concurs (fun filled filled' => filled.1.Displaced filled'.1 ∧ filled.2.Level filled'.2)
      (resolveSlots (resolveNodes replace) slots progress)
      (resolveSlots (resolveNodes replace) slots' progress') := by
  rw [resolveSlots, resolveSlots]
  refine (resolveNodes_displaced placeless displaced.default.nodes level).bind
    fun made made' both => ?_
  refine (resolveNamed_displaced placeless (mergeSort_displaced displaced.named) both.2).bind
    fun named named' more => ?_
  exact .ok ⟨⟨⟨both.1, displaced.default.placed⟩, more.1⟩, more.2⟩

theorem definitionOf_displaced (context : Context) (stack : List String) {usage usage' : Usage}
    (usages : usage.Displaced usage') :
    Concurs (· = ·) (definitionOf context stack usage) (definitionOf context stack usage') := by
  rw [definitionOf, definitionOf, usages.name]
  dsimp only
  split
  · exact .error _ _
  · split
    · exact .error _ _
    · split
      · exact .error _ _
      · exact .ok rfl

/-- Displaced usages are resolved in the same way, if what their instances contain is. -/
theorem instantiate_placeless {context : Context}
    {inside : List String → List Node → Action (List Node)}
    (inner : ∀ (stack : List String) {nodes nodes' : List Node} {progress progress' : Progress},
      Node.Displaced nodes nodes' → progress.Level progress' →
      Concurs AdvancedDisplaced (inside stack nodes progress) (inside stack nodes' progress'))
    (stack : List String) (depth : Nat) :
    Placeless (instantiate context inside stack depth) := by
  induction depth with
  | zero =>
      intro usage usage' progress progress' _ _
      exact .error _ _
  | succ depth induction =>
      intro usage usage' progress progress' usages level
      rw [instantiate, instantiate, usages.scope]
      refine ((definitionOf_displaced context stack usages).reportIn context.file).bind ?_
      rintro definition _ rfl
      have used := level.use definition
      refine ((Slots.divide_displaced definition _ usages.children .empty used.registry).reportIn
        context.file).bind fun parts parts' both => ?_
      have start : Progress.Level { progress.use definition with registry := parts.2 }
          { progress'.use definition with registry := parts'.2 } := ⟨both.2, used.expectations⟩
      refine (resolveSlots_displaced induction both.1 start).bind fun filled filled' more => ?_
      refine (assemble_displaced definition usages more.1 more.2).bind
        fun made made' instances => ?_
      exact inner _ instances.1 instances.2

/-- Displaced trees are resolved in the same way. -/
theorem resolveWithin_displaced (context : Context) (levels : Nat) (stack : List String)
    (displaced : Node.Displaced nodes nodes') (level : progress.Level progress') :
    Concurs AdvancedDisplaced (resolveWithin context levels stack nodes progress)
      (resolveWithin context levels stack nodes' progress') := by
  induction levels generalizing stack nodes nodes' progress progress' with
  | zero => exact .error _ _
  | succ levels induction =>
      rw [resolveWithin, resolveWithin, displaced.alike.heightOfList_eq]
      exact resolveNodes_displaced
        (instantiate_placeless (fun stack _ _ _ _ => induction stack) stack _) displaced level

/-- Displaced pages are resolved to displaced pages with the same ids and the same expectations, or
refused in both runs. -/
theorem resolve_displaced (library : Library) (file : String)
    (displaced : Node.Displaced nodes nodes') (same : registry.SameIds registry') :
    Concurs (fun resolved resolved' => Node.Displaced resolved.1.nodes resolved'.1.nodes ∧
        resolved.1.expectations = resolved'.1.expectations ∧
        resolved.2.SameIds resolved'.2)
      (resolve library file nodes registry) (resolve library file nodes' registry') := by
  have start : Progress.Level { registry } { registry := registry' } := ⟨same, rfl⟩
  rcases (resolveWithin_displaced ⟨library, file⟩ (library.entries.length + 1) []
    displaced start).error_or_ok with ⟨fault, fault', left, right⟩ | ⟨made, made', both, left, right⟩
  · rw [resolve, resolve, left, right]
    exact .error _ _
  · rw [resolve, resolve, left, right]
    exact .ok ⟨both.1, both.2.expectations, both.2.registry⟩

end Trees

end Component
end ReactiveTemplate
