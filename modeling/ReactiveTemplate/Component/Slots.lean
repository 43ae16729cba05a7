import ReactiveTemplate.Component.Definition
import ReactiveTemplate.Tree.Traversal

/-!
# Slots

The children of a usage are content for the slots of the definition.  A marker, whose name is that of
the component with the slot after a dot, gives its children to that slot; everything else goes to the
default slot.  Each slot element of the instance is replaced by the content for it, or by its own
children if there is none.
-/

namespace ReactiveTemplate
namespace Component

/-- Content for a slot. -/
structure SlotContent where
  /-- The nodes. -/
  nodes : List Node := []
  /-- The content stands in the instance already. -/
  placed : Bool := false
  deriving Repr, Inhabited

/-- The content that a usage gives to the slots of its component. -/
structure Slots where
  /-- Content for the default slot. -/
  default : SlotContent := {}
  /-- Content that markers give to slots, by name. -/
  named : List (String × SlotContent) := []
  deriving Repr, Inhabited

/-- The slot that a marker selects in a component of the given name. -/
def markedSlot? (parent name : String) : Option String :=
  let start := parent.toList ++ ['.']
  if start.isPrefixOf name.toList then
    some (Text.lowercase (String.ofList (name.toList.drop start.length)))
  else none

namespace Slots

/-- Add nodes to the content for a slot. -/
def addNamed (slot : String) (nodes : List Node) :
    List (String × SlotContent) → List (String × SlotContent)
  | [] => [(slot, { nodes })]
  | (name, content) :: rest =>
    if name = slot then (name, { content with nodes := content.nodes ++ nodes }) :: rest
    else (name, content) :: addNamed slot nodes rest

/-- Add nodes to the content for the default slot. -/
def addDefault (slots : Slots) (nodes : List Node) : Slots :=
  { slots with default := { slots.default with nodes := slots.default.nodes ++ nodes } }

/-- Divide the children of a usage among the slots.  All content sees the scope of the usage. -/
def divide (definition : Definition) (scope : Option Scope) :
    Slots → Registry → List Node → Except Misstep (Slots × Registry)
  | slots, registry, [] => .ok (slots, registry)
  | slots, registry, child :: rest =>
    match child with
    | .component name attributes children site =>
      match markedSlot? definition.name name with
      | some slot =>
        if definition.slots.contains slot then
          let (content, registry) := Node.rebind scope registry children
          divide definition scope { slots with named := addNamed slot content slots.named }
            registry rest
        else
          .error (.undeclaredSlot name slot definition.name definition.slots, site.location)
      | none =>
        let (content, registry) :=
          Node.rebind scope registry [.component name attributes children site]
        divide definition scope (slots.addDefault content) registry rest
    | other =>
      let (content, registry) := Node.rebind scope registry [other]
      divide definition scope (slots.addDefault content) registry rest

/-- The slot that a slot element stands for; none is the default slot. -/
def selected (attributes : List Attribute) : Option String :=
  match (Attribute.fixed? attributes "name").map Text.lowercase with
  | some name => if name = Definition.defaultSlot then none else some name
  | none => none

/-- The content for a slot. -/
def content? (slots : Slots) : Option String → Option SlotContent
  | none => some slots.default
  | some name => slots.named.lookup name

/-- The content for a slot stands in the instance. -/
def markPlaced (slots : Slots) : Option String → Slots
  | none => { slots with default := { slots.default with placed := true } }
  | some name =>
    { slots with
      named := slots.named.map fun (key, content) =>
        (key, if key = name then { content with placed := true } else content) }

/-- The ids of content that stands nowhere. -/
def unplacedIds (slots : Slots) : List String :=
  (slots.default :: slots.named.map (·.2)).flatMap fun content =>
    if content.placed then [] else Node.idsOfList content.nodes

end Slots

/-- What slot elements are replaced with, and what that has led to. -/
structure Placement where
  /-- The content. -/
  slots : Slots
  /-- The registry. -/
  registry : Registry
  /-- The variables that the scope of an id has to contain. -/
  expectations : List (String × List String)

/-- Set the variables expected of an id. -/
def expect (names : List String) (expectations : List (String × List String)) (id : String) :
    List (String × List String) :=
  expectations.filter (·.1 != id) ++ [(id, names)]

/-- All ids of placed content keep the scope of the usage. -/
def expectAll (scope : Option Scope) (nodes : List Node)
    (expectations : List (String × List String)) : List (String × List String) :=
  let names := Scope.names scope
  if names.isEmpty then expectations
  else (Node.idsOfList nodes).foldl (expect names) expectations

/-- Put content where a slot element stands.  Content that is placed again gets ids of its own, and
sees the loops that the slot element stands in. -/
def Placement.insert (usage : Option Scope) (p : Placement) (slot : Option String)
    (content : SlotContent) (around : Option Scope) : List Node × Placement :=
  let (nodes, registry) :=
    if content.placed then Node.rekey p.registry content.nodes else (content.nodes, p.registry)
  let expectations := expectAll usage nodes p.expectations
  let (nodes, registry) := Node.rebind around registry nodes
  (nodes, { slots := p.slots.markPlaced slot, registry, expectations })

mutual

/-- Replace the slot elements in a node. -/
def placeNode (usage : Option Scope) (p : Placement) : Node → List Node × Placement
  | .element tag attributes children site =>
    if tag = "slot" then
      let slot := Slots.selected attributes
      match p.slots.content? slot with
      | some content =>
        if content.nodes.isEmpty then placeNodes usage p children
        else p.insert usage slot content site.scope
      | none => placeNodes usage p children
    else
      let (children, p) := placeNodes usage p children
      ([.element tag attributes children site], p)
  | .component name attributes children site =>
    let (children, p) := placeNodes usage p children
    ([.component name attributes children site], p)
  | .conditional id condition consequent alternate site =>
    let (consequent, p) := placeNodes usage p consequent
    let (alternate, p) := placeNodes usage p alternate
    ([.conditional id condition consequent alternate site], p)
  | .optional id condition branch site =>
    let (branch, p) := placeNodes usage p branch
    ([.optional id condition branch site], p)
  | .loop id source binder body site =>
    let (body, p) := placeNodes usage p body
    ([.loop id source binder body site], p)
  | .text value site => ([.text value site], p)
  | .expression e => ([.expression e], p)
  | .doctype name publicId systemId location => ([.doctype name publicId systemId location], p)

/-- Replace the slot elements in a list of nodes. -/
def placeNodes (usage : Option Scope) (p : Placement) : List Node → List Node × Placement
  | [] => ([], p)
  | node :: rest =>
    let (first, p) := placeNode usage p node
    let (nodes, p) := placeNodes usage p rest
    (first ++ nodes, p)

end

end Component
end ReactiveTemplate
