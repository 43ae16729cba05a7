import ReactiveTemplate.Proofs.Component.Resolution
import ReactiveTemplate.Proofs.Fragment.Renaming

/-!
# Resolution with other ids

Main statement: two usages that are the same up to the names of ids, resolved with two registries,
lead to instances that are the same up to the names of ids, or are refused with the same report.
Every phase keeps this: it looks at ids only to tell them apart, and the ids that it issues stand
for each other.
-/

namespace ReactiveTemplate

variable {same : String → String → Prop} {registry registry' : Registry}

namespace Definition

variable {definition : Definition} {attributes attributes' : List Attribute}

theorem isProp_renamed (definition : Definition) {attr attr' : Attribute}
    (renamed : attr.Renamed same attr') : definition.isProp attr = definition.isProp attr' := by
  rw [isProp, isProp, renamed.name]

theorem valueCode_renamed {value value' : AttributeValue}
    (renamed : value.Alike (Expression.Renamed same) value') :
    valueCode value = valueCode value' := by
  cases renamed with
  | fixed text => rfl
  | dynamic own => rw [valueCode, valueCode, own.code]

theorem propValues_renamed (definition : Definition)
    (renamed : List.Forall₂ (Attribute.Renamed same) attributes attributes') :
    definition.propValues attributes = definition.propValues attributes' := by
  have one (prop : String) : propValue attributes prop = propValue attributes' prop := by
    rw [propValue, propValue]
    induction renamed with
    | nil => rfl
    | @cons attr attr' rest rest' own _ induction =>
        rw [List.find?_cons, List.find?_cons, own.name]
        cases Text.equalIgnoringAsciiCase attr'.name prop with
        | true => exact valueCode_renamed own.value
        | false => exact induction
  rw [propValues, propValues]
  exact List.map_congr_left fun prop _ => by rw [one prop]

theorem substitute_renamed (values : Script.Values) {nodes nodes' : List Node}
    (renamed : Node.Renamed same nodes nodes') (inStep : registry.InStep same registry') :
    Node.Renamed same (substitute values registry nodes).1 (substitute values registry' nodes').1 ∧
      (substitute values registry nodes).2.InStep same (substitute values registry' nodes').2 := by
  rw [substitute, substitute]
  split
  · exact ⟨renamed, inStep⟩
  · refine Node.renamed_traversal
      { site := fun _ _ own => own
        expression := fun inStep _ own => ⟨⟨own.id, ?_, own.location, own.scope⟩, inStep⟩
        place := fun _ => rfl
        fewer := fun _ inStep => inStep } renamed inStep
    simp only [substituting, own.code, own.scope.names_eq]

end Definition

namespace Component

/-! ## Content -/

/-- Content is the same up to ids. -/
structure SlotContent.Renamed (same : String → String → Prop) (content content' : SlotContent) :
    Prop where
  nodes : Node.Renamed same content.nodes content'.nodes
  placed : content.placed = content'.placed

/-- Content of the same name that is the same up to ids. -/
def SlotContent.NamedAlike (same : String → String → Prop)
    (entry entry' : String × SlotContent) : Prop :=
  entry.1 = entry'.1 ∧ entry.2.Renamed same entry'.2

/-- All content is the same up to ids. -/
structure Slots.Renamed (same : String → String → Prop) (slots slots' : Slots) : Prop where
  default : slots.default.Renamed same slots'.default
  named : List.Forall₂ (SlotContent.NamedAlike same) slots.named slots'.named

namespace Slots

variable {slots slots' : Slots}

theorem Renamed.empty : ({} : Slots).Renamed same {} := ⟨⟨.nil, rfl⟩, .nil⟩

theorem Renamed.addDefault {nodes nodes' : List Node} (renamed : slots.Renamed same slots')
    (new : Node.Renamed same nodes nodes') :
    (slots.addDefault nodes).Renamed same (slots'.addDefault nodes') :=
  ⟨⟨renamed.default.nodes.append new, renamed.default.placed⟩, renamed.named⟩

theorem addNamed_renamed {nodes nodes' : List Node} {named named' : List (String × SlotContent)}
    (slot : String) (renamed : List.Forall₂ (SlotContent.NamedAlike same) named named')
    (new : Node.Renamed same nodes nodes') :
    List.Forall₂ (SlotContent.NamedAlike same) (addNamed slot nodes named)
      (addNamed slot nodes' named') := by
  induction renamed with
  | nil => exact .cons ⟨rfl, new, rfl⟩ .nil
  | @cons entry entry' rest rest' own others induction =>
      obtain ⟨key, content⟩ := entry
      obtain ⟨key', content'⟩ := entry'
      obtain ⟨rfl, contents⟩ := own
      rw [addNamed, addNamed]
      split
      · exact .cons ⟨rfl, contents.nodes.append new, contents.placed⟩ others
      · exact .cons ⟨rfl, contents⟩ induction

/-- Content and registries after dividing. -/
def Divided (same : String → String → Prop) (divided divided' : Slots × Registry) : Prop :=
  divided.1.Renamed same divided'.1 ∧ divided.2.InStep same divided'.2

/-- A child that is no marker joins the default slot. -/
private theorem divide_plain {definition : Definition} {scope scope' : Option Scope}
    {child child' : Node} {rest rest' : List Node} (scopes : Scope.Renamed same scope scope')
    (own : Node.Renamed same [child] [child']) (renamed : slots.Renamed same slots')
    (inStep : registry.InStep same registry')
    (behind : ∀ {slots slots' : Slots} {registry registry' : Registry},
      slots.Renamed same slots' → registry.InStep same registry' →
      Corresponds (Divided same) (divide definition scope slots registry rest)
        (divide definition scope' slots' registry' rest')) :
    Corresponds (Divided same)
      (divide definition scope (slots.addDefault (Node.rebind scope registry [child]).1)
        (Node.rebind scope registry [child]).2 rest)
      (divide definition scope' (slots'.addDefault (Node.rebind scope' registry' [child']).1)
        (Node.rebind scope' registry' [child']).2 rest') := by
  obtain ⟨rebound, after⟩ := Node.rebind_renamed scopes own inStep
  exact behind (renamed.addDefault rebound) after

theorem divide_renamed (definition : Definition) {scope scope' : Option Scope}
    (scopes : Scope.Renamed same scope scope') {children children' : List Node}
    (below : Node.Renamed same children children') (renamed : slots.Renamed same slots')
    (inStep : registry.InStep same registry') :
    Corresponds (Divided same) (divide definition scope slots registry children)
      (divide definition scope' slots' registry' children') := by
  induction below generalizing slots slots' registry registry' with
  | nil => exact .ok ⟨renamed, inStep⟩
  | @component name attributes attributes' site site' children children' rest rest' own sites inner
      _ _ behind =>
      rw [divide, divide]
      cases markedSlot? definition.name name with
      | none => exact divide_plain scopes (.component own sites inner .nil) renamed inStep behind
      | some slot =>
          dsimp only
          split
          · obtain ⟨rebound, after⟩ := Node.rebind_renamed scopes inner inStep
            exact behind ⟨renamed.default, addNamed_renamed slot renamed.named rebound⟩ after
          · rw [sites.location]
            exact .error _
  | element own sites inner _ _ behind =>
      simp only [divide]
      exact divide_plain scopes (.element own sites inner .nil) renamed inStep behind
  | text sites _ behind =>
      simp only [divide]
      exact divide_plain scopes (.text sites .nil) renamed inStep behind
  | expression own _ behind =>
      simp only [divide]
      exact divide_plain scopes (.expression own .nil) renamed inStep behind
  | conditional own first second _ _ _ behind =>
      simp only [divide]
      exact divide_plain scopes (.conditional own first second .nil) renamed inStep behind
  | optional own branch _ _ behind =>
      simp only [divide]
      exact divide_plain scopes (.optional own branch .nil) renamed inStep behind
  | loop own body _ _ behind =>
      simp only [divide]
      exact divide_plain scopes (.loop own body .nil) renamed inStep behind
  | doctype _ behind =>
      simp only [divide]
      exact divide_plain scopes (.doctype .nil) renamed inStep behind

/-! ### Placing -/

theorem selected_renamed {attributes attributes' : List Attribute}
    (renamed : List.Forall₂ (Attribute.Renamed same) attributes attributes') :
    selected attributes = selected attributes' := by
  have alike : Attribute.Alike (Expression.Renamed same) attributes attributes' :=
    renamed.imp fun _ _ own => ⟨own.name, own.value⟩
  rw [selected, selected, alike.fixed?]

theorem lookup_renamed {named named' : List (String × SlotContent)}
    (renamed : List.Forall₂ (SlotContent.NamedAlike same) named named') (name : String) :
    Option.Rel (SlotContent.Renamed same) (named.lookup name) (named'.lookup name) := by
  induction renamed with
  | nil => exact .none
  | @cons entry entry' rest rest' own _ induction =>
      obtain ⟨key, content⟩ := entry
      obtain ⟨key', content'⟩ := entry'
      obtain ⟨rfl, contents⟩ := own
      rw [List.lookup_cons, List.lookup_cons]
      cases name == key with
      | true => exact .some contents
      | false => exact induction

theorem Renamed.content? (renamed : slots.Renamed same slots') (slot : Option String) :
    Option.Rel (SlotContent.Renamed same) (slots.content? slot) (slots'.content? slot) := by
  cases slot with
  | none => exact .some renamed.default
  | some name => exact lookup_renamed renamed.named name

theorem Renamed.markPlaced (renamed : slots.Renamed same slots') (slot : Option String) :
    (slots.markPlaced slot).Renamed same (slots'.markPlaced slot) := by
  cases slot with
  | none => exact ⟨⟨renamed.default.nodes, rfl⟩, renamed.named⟩
  | some name =>
      refine ⟨renamed.default, ?_⟩
      rw [Slots.markPlaced, Slots.markPlaced, List.forall₂_map_left_iff,
        List.forall₂_map_right_iff]
      refine renamed.named.imp fun entry entry' own => ?_
      obtain ⟨key, content⟩ := entry
      obtain ⟨key', content'⟩ := entry'
      obtain ⟨rfl, contents⟩ := own
      dsimp only
      split
      · exact ⟨rfl, contents.nodes, rfl⟩
      · exact ⟨rfl, contents⟩

end Slots

/-- Placements have content that is the same up to ids, and registries in step. -/
structure Placement.Renamed (same : String → String → Prop) (p p' : Placement) : Prop where
  slots : p.slots.Renamed same p'.slots
  registry : p.registry.InStep same p'.registry

/-- Nodes and placements afterwards. -/
def Placed (same : String → String → Prop) (placed placed' : List Node × Placement) : Prop :=
  Node.Renamed same placed.1 placed'.1 ∧ placed.2.Renamed same placed'.2

/-- Content that is placed again is copied in both runs. -/
theorem SlotContent.ready_renamed (one : OneToOne same) {content content' : SlotContent}
    (renamed : content.Renamed same content') (inStep : registry.InStep same registry') :
    Node.Renamed same (content.ready registry).1 (content'.ready registry').1 ∧
      (content.ready registry).2.InStep same (content'.ready registry').2 := by
  rw [ready, ready, renamed.placed]
  split
  · obtain ⟨loops, enclosed⟩ := Node.exists_enclosedAll content.nodes
    exact Node.rekey_renamed one (fun _ _ _ kept => kept) enclosed renamed.nodes inStep
  · exact ⟨renamed.nodes, inStep⟩

variable {usage usage' : Option Scope} {p p' : Placement}

theorem Placement.insert_renamed (one : OneToOne same) {content content' : SlotContent}
    {around around' : Option Scope} (slot : Option String) (renamed : p.Renamed same p')
    (contents : content.Renamed same content') (scopes : Scope.Renamed same around around') :
    Placed same (p.insert usage slot content around) (p'.insert usage' slot content' around') := by
  obtain ⟨ready, middle⟩ := SlotContent.ready_renamed one contents renamed.registry
  obtain ⟨rebound, after⟩ := Node.rebind_renamed scopes ready middle
  exact ⟨rebound, renamed.slots.markPlaced slot, after⟩

theorem placeNodes_renamed (one : OneToOne same) {nodes nodes' : List Node}
    (renamed : Node.Renamed same nodes nodes') (placement : p.Renamed same p') :
    Placed same (placeNodes usage p nodes) (placeNodes usage' p' nodes') := by
  induction renamed generalizing p p' with
  | nil =>
      rw [placeNodes, placeNodes]
      exact ⟨.nil, placement⟩
  | @element tag attributes attributes' site site' children children' rest rest' own sites _ _ below
      behind =>
      have first : Placed same (placeNode usage p (.element tag attributes children site))
          (placeNode usage' p' (.element tag attributes' children' site')) := by
        rw [placeNode, placeNode]
        split
        · rw [← Slots.selected_renamed own]
          dsimp only
          have contents := placement.slots.content? (Slots.selected attributes)
          generalize p.slots.content? (Slots.selected attributes) = content at contents
          generalize p'.slots.content? (Slots.selected attributes) = content' at contents
          cases contents with
          | none => exact below placement
          | some contents =>
              dsimp only
              rw [← contents.nodes.isEmpty_eq]
              split
              · exact below placement
              · exact Placement.insert_renamed one _ placement contents sites.scope
        · obtain ⟨inner, after⟩ := below placement
          exact ⟨.element own sites inner .nil, after⟩
      rw [placeNodes, placeNodes]
      obtain ⟨others, after⟩ := behind first.2
      exact ⟨first.1.append others, after⟩
  | component own sites _ _ below behind =>
      rw [placeNodes, placeNodes, placeNode, placeNode]
      obtain ⟨inner, middle⟩ := below placement
      obtain ⟨others, after⟩ := behind middle
      exact ⟨.component own sites inner others, after⟩
  | text sites _ behind =>
      rw [placeNodes, placeNodes, placeNode, placeNode]
      obtain ⟨others, after⟩ := behind placement
      exact ⟨.text sites others, after⟩
  | expression own _ behind =>
      rw [placeNodes, placeNodes, placeNode, placeNode]
      obtain ⟨others, after⟩ := behind placement
      exact ⟨.expression own others, after⟩
  | conditional own _ _ _ left right behind =>
      rw [placeNodes, placeNodes, placeNode, placeNode]
      obtain ⟨first, one⟩ := left placement
      obtain ⟨second, two⟩ := right one
      obtain ⟨others, after⟩ := behind two
      exact ⟨.conditional own first second others, after⟩
  | optional own _ _ below behind =>
      rw [placeNodes, placeNodes, placeNode, placeNode]
      obtain ⟨inner, middle⟩ := below placement
      obtain ⟨others, after⟩ := behind middle
      exact ⟨.optional own inner others, after⟩
  | loop own _ _ below behind =>
      rw [placeNodes, placeNodes, placeNode, placeNode]
      obtain ⟨inner, middle⟩ := below placement
      obtain ⟨others, after⟩ := behind middle
      exact ⟨.loop own inner others, after⟩
  | doctype _ behind =>
      rw [placeNodes, placeNodes, placeNode, placeNode]
      obtain ⟨others, after⟩ := behind placement
      exact ⟨.doctype others, after⟩

/-! ## Forwarded attributes -/

/-- Attributes and registries afterwards. -/
def Forwarded (same : String → String → Prop)
    (forwarded forwarded' : List Attribute × Registry) : Prop :=
  List.Forall₂ (Attribute.Renamed same) forwarded.1 forwarded'.1 ∧
    forwarded.2.InStep same forwarded'.2

theorem forget_renamed {value value' : AttributeValue}
    (inStep : registry.InStep same registry')
    (renamed : value.Alike (Expression.Renamed same) value') :
    (forget registry value).InStep same (forget registry' value') := by
  cases renamed with
  | fixed text => exact inStep
  | dynamic own => exact inStep

/-- A class of the root and a class of the usage, combined in new code. -/
def joinClass (registry : Registry) (own incoming : Attribute) : Attribute × Registry :=
  let code := "[" ++ Definition.valueCode own.value ++ ", " ++
    Definition.valueCode incoming.value ++ "].filter(Boolean).join(\" \")"
  let location := incoming.site.location
  let scope := Scope.merge own.site.scope incoming.site.scope
  let registry := forget (forget registry own.value) incoming.value
  let (id, registry) := registry.register "expr" code location scope
  ({ name := "class", value := .dynamic ⟨id, code, location, scope⟩, site := ⟨location, scope⟩ },
    registry)

theorem joinClass_renamed {own own' incoming incoming' : Attribute}
    (root : own.Renamed same own') (given : incoming.Renamed same incoming')
    (inStep : registry.InStep same registry') :
    (joinClass registry own incoming).1.Renamed same (joinClass registry' own' incoming').1 ∧
      (joinClass registry own incoming).2.InStep same (joinClass registry' own' incoming').2 := by
  have scopes := root.site.scope.merge given.site.scope
  have left := forget_renamed (forget_renamed inStep root.value) given.value
  rw [joinClass, joinClass]
  dsimp only
  rw [Definition.valueCode_renamed root.value, Definition.valueCode_renamed given.value,
    given.site.location]
  obtain ⟨new, after⟩ := left.register "expr" _ incoming'.site.location _ _
  exact ⟨⟨rfl, .dynamic ⟨new, rfl, rfl, scopes⟩, rfl, scopes⟩, after⟩

theorem mergeClass_renamed {own own' incoming incoming' : Attribute}
    (root : own.Renamed same own') (given : incoming.Renamed same incoming')
    (inStep : registry.InStep same registry') :
    (mergeClass registry own incoming).1.Renamed same (mergeClass registry' own' incoming').1 ∧
      (mergeClass registry own incoming).2.InStep same
        (mergeClass registry' own' incoming').2 := by
  have joined := joinClass_renamed root given inStep
  obtain ⟨name, value, site⟩ := own
  obtain ⟨name', value', site'⟩ := own'
  obtain ⟨given_name, given_value, given_site⟩ := incoming
  obtain ⟨given_name', given_value', given_site'⟩ := incoming'
  obtain ⟨-, values, -⟩ := root
  obtain ⟨rfl, given_values, given_sites⟩ := given
  cases values with
  | dynamic _ => exact joined
  | fixed text =>
      cases given_values with
      | dynamic _ => exact joined
      | fixed given_text => exact ⟨⟨rfl, .fixed _, given_sites⟩, inStep⟩

theorem forwardOne_renamed {incoming incoming' : Attribute}
    {attributes attributes' : List Attribute} (given : incoming.Renamed same incoming')
    (root : List.Forall₂ (Attribute.Renamed same) attributes attributes')
    (inStep : registry.InStep same registry') :
    Forwarded same (forwardOne registry incoming attributes)
      (forwardOne registry' incoming' attributes') := by
  induction root generalizing registry registry' with
  | nil => exact ⟨.cons given .nil, inStep⟩
  | cons own others induction =>
      rw [forwardOne, forwardOne, own.name, given.name]
      split
      · split
        · obtain ⟨merged, after⟩ := mergeClass_renamed own given inStep
          exact ⟨.cons merged others, after⟩
        · exact ⟨.cons given others, forget_renamed inStep own.value⟩
      · obtain ⟨rest, after⟩ := induction inStep
        exact ⟨.cons own rest, after⟩

theorem forwardAll_renamed {attributes attributes' forwarded forwarded' : List Attribute}
    (given : List.Forall₂ (Attribute.Renamed same) forwarded forwarded')
    (root : List.Forall₂ (Attribute.Renamed same) attributes attributes')
    (inStep : registry.InStep same registry') :
    Forwarded same (forwardAll registry attributes forwarded)
      (forwardAll registry' attributes' forwarded') := by
  induction given generalizing attributes attributes' registry registry' with
  | nil => exact ⟨root, inStep⟩
  | cons own _ induction =>
      obtain ⟨attributes_renamed, after⟩ := forwardOne_renamed own root inStep
      exact induction attributes_renamed after

theorem rootAttributes_renamed (definition : Definition) {site site' : Site}
    {attributes attributes' forwarded forwarded' : List Attribute}
    (given : List.Forall₂ (Attribute.Renamed same) forwarded forwarded')
    (root : List.Forall₂ (Attribute.Renamed same) attributes attributes')
    (sites : site.Renamed same site') (inStep : registry.InStep same registry') :
    Forwarded same (rootAttributes definition registry forwarded attributes site)
      (rootAttributes definition registry' forwarded' attributes' site') := by
  obtain ⟨whole, after⟩ := forwardAll_renamed given root inStep
  have owned : (forwardAll registry attributes forwarded).1.any (·.name == ownerAttribute) =
      (forwardAll registry' attributes' forwarded').1.any (·.name == ownerAttribute) := by
    generalize (forwardAll registry attributes forwarded).1 = result at whole
    generalize (forwardAll registry' attributes' forwarded').1 = result' at whole
    induction whole with
    | nil => rfl
    | cons own _ induction => rw [List.any_cons, List.any_cons, own.name, induction]
  rw [rootAttributes, rootAttributes]
  dsimp only
  rw [owned]
  split
  · exact ⟨List.rel_append whole (.cons ⟨rfl, .fixed _, sites⟩ .nil), after⟩
  · exact ⟨whole, after⟩

theorem forward_renamed (definition : Definition) (place : Location)
    {forwarded forwarded' : List Attribute} {nodes nodes' : List Node}
    (given : List.Forall₂ (Attribute.Renamed same) forwarded forwarded')
    (renamed : Node.Renamed same nodes nodes') (inStep : registry.InStep same registry') :
    Corresponds (Fragment.Made same) (forward definition place forwarded registry nodes)
      (forward definition place forwarded' registry' nodes') := by
  -- nodes that are no root are passed over
  have passed {node node' : Node} {rest rest' : List Node} (other : node.isRoot = false)
      (other' : node'.isRoot = false) (own : Node.Renamed same [node] [node'])
      (behind : Corresponds (Fragment.Made same) (forward definition place forwarded registry rest)
        (forward definition place forwarded' registry' rest')) :
      Corresponds (Fragment.Made same)
        (forward definition place forwarded registry (node :: rest))
        (forward definition place forwarded' registry' (node' :: rest')) := by
    rw [forward_cons other, forward_cons other']
    rcases behind.error_or_ok with ⟨fault, left, right⟩ | ⟨made, made', both, left, right⟩
    · rw [left, right]
      exact .error fault
    · rw [left, right]
      exact .ok ⟨own.append both.1, both.2⟩
  induction renamed with
  | nil =>
      cases given with
      | nil => exact .ok ⟨.nil, inStep⟩
      | cons own _ =>
          rw [forward, forward, own.name]
          exact .error _
  | element own sites children rest _ _ =>
      obtain ⟨attributes, after⟩ := rootAttributes_renamed definition given own sites inStep
      exact .ok ⟨.element attributes sites children rest, after⟩
  | component own sites children rest _ _ =>
      obtain ⟨attributes, after⟩ := rootAttributes_renamed definition given own sites inStep
      exact .ok ⟨.component attributes sites children rest, after⟩
  | text sites _ behind => exact passed rfl rfl (.text sites .nil) behind
  | expression own _ behind => exact passed rfl rfl (.expression own .nil) behind
  | conditional own first second _ _ _ behind =>
      exact passed rfl rfl (.conditional own first second .nil) behind
  | optional own branch _ _ behind => exact passed rfl rfl (.optional own branch .nil) behind
  | loop own body _ _ behind => exact passed rfl rfl (.loop own body .nil) behind
  | doctype _ behind => exact passed rfl rfl (.doctype .nil) behind

/-! ## Instances -/

/-- Usages are the same up to ids. -/
structure Usage.Renamed (same : String → String → Prop) (usage usage' : Usage) : Prop where
  name : usage.name = usage'.name
  attributes : List.Forall₂ (Attribute.Renamed same) usage.attributes usage'.attributes
  children : Node.Renamed same usage.children usage'.children
  site : usage.site.Renamed same usage'.site

/-- Nodes that have been made are the same up to ids, and the registries are in step. -/
def Advanced (same : String → String → Prop) (made made' : List Node × Progress) : Prop :=
  Node.Renamed same made.1 made'.1 ∧ made.2.registry.InStep same made'.2.registry

section Instances

variable {definition : Definition} {usage usage' : Usage} {context : Context}
variable {progress progress' : Progress} {loops : List String}

theorem Usage.Renamed.given (renamed : usage.Renamed same usage') (definition : Definition) :
    List.Forall₂ (Attribute.Renamed same) (usage.given definition) (usage'.given definition) := by
  refine List.rel_filter (fun attr attr' own => ?_) renamed.attributes
  dsimp only
  rw [definition.isProp_renamed own]

theorem Usage.Renamed.forwarded (renamed : usage.Renamed same usage') (definition : Definition) :
    List.Forall₂ (Attribute.Renamed same) (usage.forwarded definition)
      (usage'.forwarded definition) := by
  refine List.rel_filter (fun attr attr' own => ?_) renamed.attributes
  dsimp only
  rw [definition.isProp_renamed own]

/-- A definition is copied in the same way in both runs, if a loop that it names without having it
goes by that name in both. -/
theorem copy_renamed (enclosed : Node.EnclosedAll loops definition.nodes)
    (fixed : ∀ loop ∈ loops, same loop loop)
    (usages : usage.Renamed same usage') (inStep : registry.InStep same registry') :
    Corresponds (Fragment.Made same) (copy definition usage registry)
      (copy definition usage' registry') := by
  have given := usages.given definition
  have values : definition.propValues (usage.attributes.filter definition.isProp) =
      definition.propValues (usage'.attributes.filter definition.isProp) :=
    definition.propValues_renamed given
  obtain ⟨rekeyed, start⟩ := Node.rekey_renamed .eq
    (fun loop outside _ equal => equal ▸ fixed loop outside) enclosed
    (.refl (fun _ => rfl) definition.nodes) inStep
  unfold copy
  dsimp only
  rw [values, usages.site.location]
  refine (Fragment.lower_renamed definition.path rekeyed start).bind fun low low' lowered => ?_
  have removed := lowered.2.removeAll (Attribute.ids (usage.given definition))
    (Attribute.ids (usage'.given definition))
  obtain ⟨filled, after⟩ := Definition.substitute_renamed
    (definition.propValues (usage'.given definition)) lowered.1 removed
  exact .ok (Node.relocate_renamed usage'.site.location filled after)

/-- Instances for renamed usages with renamed content are renamed. -/
theorem assemble_renamed (one : OneToOne same)
    (enclosed : Node.EnclosedAll loops definition.nodes) (fixed : ∀ loop ∈ loops, same loop loop)
    (usages : usage.Renamed same usage') {slots slots' : Slots}
    (contents : slots.Renamed same slots')
    (inStep : progress.registry.InStep same progress'.registry) :
    Corresponds (Advanced same) (assemble context definition usage slots progress)
      (assemble context definition usage' slots' progress') := by
  unfold assemble
  rw [usages.site.location]
  refine (copy_renamed enclosed fixed usages inStep).bind fun made made' copied => ?_
  have placed : Placed same
      (placeNodes usage.site.scope ⟨slots, made.2, progress.expectations⟩ made.1)
      (placeNodes usage'.site.scope ⟨slots', made'.2, progress'.expectations⟩ made'.1) :=
    placeNodes_renamed one copied.1 ⟨contents, copied.2⟩
  have dropped := placed.2.registry.removeAll
    (placeNodes usage.site.scope ⟨slots, made.2, progress.expectations⟩ made.1).2.slots.unplacedIds
    (placeNodes usage'.site.scope ⟨slots', made'.2, progress'.expectations⟩
      made'.1).2.slots.unplacedIds
  have rooted := (forward_renamed definition usage'.site.location (usages.forwarded definition)
    placed.1 dropped).reportIn context.file
  refine rooted.bind fun root root' both => ?_
  obtain ⟨rebound, after⟩ := Node.rebind_renamed usages.site.scope both.1 both.2
  exact .ok ⟨rebound, after⟩

end Instances

/-! ## Trees -/

/-- Renamed usages are replaced by renamed nodes, or refused with the same report. -/
def Consistent (same : String → String → Prop) (replace : Usage → Action (List Node)) : Prop :=
  ∀ {usage usage' : Usage} {progress progress' : Progress}, usage.Renamed same usage' →
    progress.registry.InStep same progress'.registry →
    Corresponds (Advanced same) (replace usage progress) (replace usage' progress')

section Trees

variable {replace : Usage → Action (List Node)} {nodes nodes' : List Node}
variable {progress progress' : Progress}

private theorem resolveNodes_cons {node node' : Node} {rest rest' : List Node}
    (own : Corresponds (Advanced same) (resolveNode replace node progress)
      (resolveNode replace node' progress'))
    (behind : ∀ {progress progress' : Progress},
      progress.registry.InStep same progress'.registry →
      Corresponds (Advanced same) (resolveNodes replace rest progress)
        (resolveNodes replace rest' progress')) :
    Corresponds (Advanced same) (resolveNodes replace (node :: rest) progress)
      (resolveNodes replace (node' :: rest') progress') := by
  rw [resolveNodes, resolveNodes]
  refine own.bind fun first first' made => ?_
  refine (behind made.2).bind fun others others' more => ?_
  exact .ok ⟨made.1.append more.1, more.2⟩

theorem resolveNodes_renamed (consistent : Consistent same replace)
    (renamed : Node.Renamed same nodes nodes')
    (inStep : progress.registry.InStep same progress'.registry) :
    Corresponds (Advanced same) (resolveNodes replace nodes progress)
      (resolveNodes replace nodes' progress') := by
  induction renamed generalizing progress progress' with
  | nil =>
      rw [resolveNodes, resolveNodes]
      exact .ok ⟨.nil, inStep⟩
  | component own sites children _ _ behind =>
      refine resolveNodes_cons ?_ behind
      rw [resolveNode, resolveNode]
      exact consistent ⟨rfl, own, children, sites⟩ inStep
  | element own sites _ _ below behind =>
      refine resolveNodes_cons ?_ behind
      rw [resolveNode, resolveNode]
      refine (below inStep).bind fun inner inner' made => ?_
      exact .ok ⟨.element own sites made.1 .nil, made.2⟩
  | text sites _ behind =>
      refine resolveNodes_cons ?_ behind
      rw [resolveNode, resolveNode]
      exact .ok ⟨.text sites .nil, inStep⟩
  | expression own _ behind =>
      refine resolveNodes_cons ?_ behind
      rw [resolveNode, resolveNode]
      exact .ok ⟨.expression own .nil, inStep⟩
  | conditional own _ _ _ left right behind =>
      refine resolveNodes_cons ?_ behind
      rw [resolveNode, resolveNode]
      refine (left inStep).bind fun first first' one => ?_
      refine (right one.2).bind fun second second' two => ?_
      exact .ok ⟨.conditional own one.1 two.1 .nil, two.2⟩
  | optional own _ _ below behind =>
      refine resolveNodes_cons ?_ behind
      rw [resolveNode, resolveNode]
      refine (below inStep).bind fun inner inner' made => ?_
      exact .ok ⟨.optional own made.1 .nil, made.2⟩
  | loop own _ _ below behind =>
      refine resolveNodes_cons ?_ behind
      rw [resolveNode, resolveNode]
      refine (below inStep).bind fun inner inner' made => ?_
      exact .ok ⟨.loop own made.1 .nil, made.2⟩
  | doctype _ behind =>
      refine resolveNodes_cons ?_ behind
      rw [resolveNode, resolveNode]
      exact .ok ⟨.doctype .nil, inStep⟩

/-- Content and registries after resolving. -/
def Filled (same : String → String → Prop) (filled filled' : Slots × Progress) : Prop :=
  filled.1.Renamed same filled'.1 ∧ filled.2.registry.InStep same filled'.2.registry

theorem resolveNamed_renamed (consistent : Consistent same replace)
    {named named' : List (String × SlotContent)}
    (renamed : List.Forall₂ (SlotContent.NamedAlike same) named named')
    (inStep : progress.registry.InStep same progress'.registry) :
    Corresponds
      (fun filled filled' => List.Forall₂ (SlotContent.NamedAlike same) filled.1 filled'.1 ∧
        filled.2.registry.InStep same filled'.2.registry)
      (resolveNamed (resolveNodes replace) named progress)
      (resolveNamed (resolveNodes replace) named' progress') := by
  induction renamed generalizing progress progress' with
  | nil => exact .ok ⟨.nil, inStep⟩
  | @cons entry entry' rest rest' own _ induction =>
      obtain ⟨key, content⟩ := entry
      obtain ⟨key', content'⟩ := entry'
      obtain ⟨rfl, contents⟩ := own
      rw [resolveNamed, resolveNamed]
      refine (resolveNodes_renamed consistent contents.nodes inStep).bind fun made made' both => ?_
      refine (induction both.2).bind fun others others' more => ?_
      exact .ok ⟨.cons ⟨rfl, both.1, contents.placed⟩ more.1, more.2⟩

theorem resolveSlots_renamed (consistent : Consistent same replace) {slots slots' : Slots}
    (renamed : slots.Renamed same slots')
    (inStep : progress.registry.InStep same progress'.registry) :
    Corresponds (Filled same) (resolveSlots (resolveNodes replace) slots progress)
      (resolveSlots (resolveNodes replace) slots' progress') := by
  rw [resolveSlots, resolveSlots]
  refine (resolveNodes_renamed consistent renamed.default.nodes inStep).bind
    fun made made' both => ?_
  have sorted : List.Forall₂ (SlotContent.NamedAlike same)
      (slots.named.mergeSort fun a b => a.1 ≤ b.1)
      (slots'.named.mergeSort fun a b => a.1 ≤ b.1) :=
    forall₂_mergeSort renamed.named fun first second => by rw [first.1, second.1]
  refine (resolveNamed_renamed consistent sorted both.2).bind fun named named' more => ?_
  exact .ok ⟨⟨⟨both.1, renamed.default.placed⟩, more.1⟩, more.2⟩

end Trees

/-! ## Usages -/

section Usages

variable {context : Context} {loops : List String}

theorem definitionOf_renamed (context : Context) (stack : List String) {usage usage' : Usage}
    (usages : usage.Renamed same usage') :
    definitionOf context stack usage = definitionOf context stack usage' := by
  rw [definitionOf, definitionOf, usages.name, usages.site.location]

/-- Renamed usages are resolved in the same way, if what their instances contain is. -/
theorem instantiate_consistent (one : OneToOne same)
    (enclosed : ∀ entry ∈ context.library.entries, Node.EnclosedAll loops entry.2.nodes)
    (fixed : ∀ loop ∈ loops, same loop loop)
    {inside : List String → List Node → Action (List Node)}
    (inner : ∀ (stack : List String) {nodes nodes' : List Node} {progress progress' : Progress},
      Node.Renamed same nodes nodes' → progress.registry.InStep same progress'.registry →
      Corresponds (Advanced same) (inside stack nodes progress) (inside stack nodes' progress'))
    (stack : List String) (depth : Nat) :
    Consistent same (instantiate context inside stack depth) := by
  induction depth with
  | zero =>
      intro usage usage' progress progress' _ _
      exact .error _
  | succ depth induction =>
      intro usage usage' progress progress' usages inStep
      rw [instantiate, instantiate, definitionOf_renamed context stack usages]
      cases found : definitionOf context stack usage' with
      | error misstep => exact .error _
      | ok definition =>
          obtain ⟨key, known⟩ := Library.mem_of_lookup? (definitionOf_lookup found)
          have used : (progress.use definition).registry.InStep same
              (progress'.use definition).registry := by
            rw [Progress.use_registry, Progress.use_registry]
            exact inStep
          have divided := (Slots.divide_renamed definition usages.site.scope usages.children
            .empty used).reportIn context.file
          refine divided.bind fun parts parts' both => ?_
          have start : Registry.InStep same
              ({ progress.use definition with registry := parts.2 } : Progress).registry
              ({ progress'.use definition with registry := parts'.2 } : Progress).registry :=
            both.2
          refine (resolveSlots_renamed induction both.1 start).bind fun filled filled' more => ?_
          have own : Node.EnclosedAll loops definition.nodes := enclosed _ known
          refine (assemble_renamed one own fixed usages more.1 more.2).bind
            fun made made' instances => ?_
          exact inner _ instances.1 instances.2

/-- Renamed trees are resolved in the same way. -/
theorem resolveWithin_renamed (one : OneToOne same)
    (enclosed : ∀ entry ∈ context.library.entries, Node.EnclosedAll loops entry.2.nodes)
    (fixed : ∀ loop ∈ loops, same loop loop) (levels : Nat)
    (stack : List String) {nodes nodes' : List Node} {progress progress' : Progress}
    (renamed : Node.Renamed same nodes nodes')
    (inStep : progress.registry.InStep same progress'.registry) :
    Corresponds (Advanced same) (resolveWithin context levels stack nodes progress)
      (resolveWithin context levels stack nodes' progress') := by
  induction levels generalizing stack nodes nodes' progress progress' with
  | zero => exact .error _
  | succ levels induction =>
      rw [resolveWithin, resolveWithin, renamed.alike.heightOfList_eq]
      exact resolveNodes_renamed
        (instantiate_consistent one enclosed fixed induction stack _) renamed inStep

/-- Two usages that are the same up to the names of ids have instances that are the same up to the
names of ids, or are refused with the same report, whatever else is registered. A loop that a
definition names without having it (none, for a definition read from its source) keeps its name. -/
theorem instantiate_renamed {usage usage' : Usage} {progress progress' : Progress}
    (enclosed : ∀ entry ∈ context.library.entries, Node.EnclosedAll loops entry.2.nodes)
    (fixed : ∀ loop ∈ loops, same loop loop) (one : OneToOne same)
    (issued : ∀ id id', same id id' →
      progress.registry.Issued id ∧ progress'.registry.Issued id')
    (usages : usage.Renamed same usage') (levels depth : Nat) (stack : List String) :
    ∃ same', OneToOne same' ∧ (∀ id id', same id id' → same' id id') ∧
      Corresponds (Advanced same')
        (instantiate context (resolveWithin context levels) stack depth usage progress)
        (instantiate context (resolveWithin context levels) stack depth usage' progress') := by
  let onward := Onward progress.registry progress'.registry same
  have one' : OneToOne onward := one.onward issued
  have kept : ∀ id id', same id id' → onward id id' := fun _ _ both => .inl both
  have usages' : usage.Renamed onward usage' :=
    ⟨usages.name, usages.attributes.imp fun _ _ own => own.mono kept, usages.children.mono kept,
      usages.site.mono kept⟩
  refine ⟨onward, one', kept, ?_⟩
  have fixed' : ∀ loop ∈ loops, onward loop loop := fun loop member => kept _ _ (fixed loop member)
  exact instantiate_consistent one' enclosed fixed'
    (resolveWithin_renamed one' enclosed fixed' levels) stack depth usages' (inStep_onward _ _)

end Usages

/-! ## Two panels -/

/-- A panel with a prop, a fragment and two places for its content. Its class is written for the
items of a loop that it does not have. -/
def panel : Definition where
  name := "Panel"
  path := "Panel.zen"
  nodes := [.element "div"
    [⟨"class", .dynamic ⟨"expr_0", "name", {}, some ⟨[], some "loop_2"⟩⟩, {}⟩]
    [.element "slot" [] [] {}, .expression ⟨"expr_1", "on && <b>{name}</b>", {}, none⟩,
      .element "slot" [] [] {}] {}]
  slots := ["default"]
  props := ["name"]
  styles := []
  script := none

/-- A usage of the panel, with the ids of its three expressions. -/
def panelUsage (prop root content : String) : Usage where
  name := "Panel"
  attributes := [⟨"name", .dynamic ⟨prop, "a", {}, none⟩, {}⟩,
    ⟨"class", .dynamic ⟨root, "b", {}, none⟩, {}⟩]
  children := [.expression ⟨content, "c", {}, none⟩]
  site := {}

/-- The ids of two usages of the panel, and the loop that it names. -/
def panelIds : List (String × String) :=
  [("expr_0", "expr_5"), ("expr_1", "expr_3"), ("expr_2", "expr_4"), ("loop_2", "loop_2")]

/-- The same usage with the numbers from 3 on and with the numbers from 7 on. -/
theorem instantiate_renamed_panels :
    let context : Context := ⟨⟨[("Panel", panel)]⟩, "page.zen"⟩
    let first : Progress := { registry := ⟨[], 3⟩ }
    let second : Progress := { registry := ⟨[], 7⟩ }
    ∃ same', OneToOne same' ∧ (∀ id id', (id, id') ∈ panelIds → same' id id') ∧ ∃ made made',
      instantiate context (resolveWithin context 1) [] 2
        (panelUsage "expr_0" "expr_1" "expr_2") first = .ok made ∧
      instantiate context (resolveWithin context 1) [] 2
        (panelUsage "expr_5" "expr_3" "expr_4") second = .ok made' ∧
      Node.idsOfList made.1 = ["expr_8", "expr_2", "opt_5", "expr_6", "expr_7"] ∧
      Node.idsOfList made'.1 = ["expr_12", "expr_4", "opt_9", "expr_10", "expr_11"] ∧
      Node.Renamed same' made.1 made'.1 := by
  intro context first second
  have enclosed : ∀ entry ∈ context.library.entries,
      Node.EnclosedAll ["loop_2"] entry.2.nodes := by
    simp [context, panel, Node.Enclosed, Attribute.Enclosed, AttributeValue.expressions,
      Scope.Inside]
  have fixed : ∀ loop ∈ ["loop_2"], (loop, loop) ∈ panelIds := by simp [panelIds]
  have one : OneToOne fun id id' => (id, id') ∈ panelIds := by
    constructor
    · intro id id' id'' both both'
      simp only [panelIds, List.mem_cons, Prod.mk.injEq, List.not_mem_nil, or_false] at both both'
      grind
    · intro id id' id'' both both'
      simp only [panelIds, List.mem_cons, Prod.mk.injEq, List.not_mem_nil, or_false] at both both'
      grind
    · intro id id' both
      simp only [panelIds, List.mem_cons, Prod.mk.injEq, List.not_mem_nil, or_false] at both
      rcases both with ⟨rfl, rfl⟩ | ⟨rfl, rfl⟩ | ⟨rfl, rfl⟩ | ⟨rfl, rfl⟩ <;> decide +kernel
  have issued : ∀ id id', (id, id') ∈ panelIds →
      first.registry.Issued id ∧ second.registry.Issued id' := by
    intro id id' both
    simp only [panelIds, List.mem_cons, Prod.mk.injEq, List.not_mem_nil, or_false] at both
    rcases both with ⟨rfl, rfl⟩ | ⟨rfl, rfl⟩ | ⟨rfl, rfl⟩ | ⟨rfl, rfl⟩
    · exact ⟨⟨"expr", 0, by decide, by decide +kernel⟩, ⟨"expr", 5, by decide, by decide +kernel⟩⟩
    · exact ⟨⟨"expr", 1, by decide, by decide +kernel⟩, ⟨"expr", 3, by decide, by decide +kernel⟩⟩
    · exact ⟨⟨"expr", 2, by decide, by decide +kernel⟩, ⟨"expr", 4, by decide, by decide +kernel⟩⟩
    · exact ⟨⟨"loop", 2, by decide, by decide +kernel⟩, ⟨"loop", 2, by decide, by decide +kernel⟩⟩
  have usages : (panelUsage "expr_0" "expr_1" "expr_2").Renamed
      (fun id id' => (id, id') ∈ panelIds) (panelUsage "expr_5" "expr_3" "expr_4") := by
    have renamed {id id' : String} (code : String) (both : (id, id') ∈ panelIds) :
        Expression.Renamed (fun id id' => (id, id') ∈ panelIds) ⟨id, code, {}, none⟩
          ⟨id', code, {}, none⟩ := ⟨both, rfl, rfl, .none⟩
    constructor
    case name => rfl
    case attributes =>
      exact .cons ⟨rfl, .dynamic (renamed "a" (by simp [panelIds])), rfl, .none⟩
        (.cons ⟨rfl, .dynamic (renamed "b" (by simp [panelIds])), rfl, .none⟩ .nil)
    case children => exact .expression (renamed "c" (by simp [panelIds])) .nil
    case site => exact ⟨rfl, .none⟩
  obtain ⟨same', one', kept, corresponds⟩ :=
    instantiate_renamed enclosed fixed one issued usages 1 2 []
  have evaluates : (instantiate context (resolveWithin context 1) [] 2
      (panelUsage "expr_0" "expr_1" "expr_2") first).toOption.any
      (fun made => Node.idsOfList made.1 == ["expr_8", "expr_2", "opt_5", "expr_6", "expr_7"]) =
        true := by decide +kernel
  have evaluates' : (instantiate context (resolveWithin context 1) [] 2
      (panelUsage "expr_5" "expr_3" "expr_4") second).toOption.any
      (fun made => Node.idsOfList made.1 == ["expr_12", "expr_4", "opt_9", "expr_10", "expr_11"]) =
        true := by decide +kernel
  obtain ⟨made, ok, ids⟩ := exists_ok _ evaluates
  obtain ⟨made', ok', ids'⟩ := exists_ok _ evaluates'
  obtain ⟨other, same_ok, advanced⟩ := corresponds.exists_ok ok
  rw [ok', Except.ok.injEq] at same_ok
  exact ⟨same', one', kept, made, made', ok, ok', by simpa using ids, by simpa using ids',
    same_ok ▸ advanced.1⟩

end Component
end ReactiveTemplate
