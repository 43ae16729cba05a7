import ReactiveTemplate.Component.Forwarding
import ReactiveTemplate.Component.Slots
import ReactiveTemplate.Fragment.Lowering

/-!
# Resolution

Every usage of a component is replaced by an instance: a copy of the definition with ids of its own,
in which props have their values, slots their content, and the root the remaining attributes of the
usage.  The usages inside an instance are resolved in turn.  A definition that is reached again from
inside itself is refused, so that instances are nested at most as deep as there are definitions.
-/

namespace ReactiveTemplate
namespace Component

/-- A usage of a component. -/
structure Usage where
  /-- The name that is used. -/
  name : String
  /-- The attributes. -/
  attributes : List Attribute
  /-- The content. -/
  children : List Node
  /-- Where the usage stands and what it sees. -/
  site : Site

/-- What resolution has brought together so far. -/
structure Progress where
  /-- The registry. -/
  registry : Registry
  /-- Components in order of first use. -/
  used : List String := []
  /-- Their styles. -/
  styles : List String := []
  /-- Their scripts. -/
  scripts : List (String × Template.Script) := []
  /-- The variables that the scope of an id has to contain. -/
  expectations : List (String × List String) := []
  deriving Inhabited

/-- A step of resolution. -/
abbrev Action (α : Type) := Progress → Except Diagnostic (α × Progress)

/-- The part of resolution that stays the same throughout. -/
structure Context where
  /-- The definitions. -/
  library : Library
  /-- The file of the page. -/
  file : String

/-- A component is used; its styles and its script are taken at the first use. -/
def Progress.use (progress : Progress) (definition : Definition) : Progress :=
  if progress.used.contains definition.name then progress
  else
    { progress with
      used := progress.used ++ [definition.name]
      styles := progress.styles ++ definition.styles
      scripts := progress.scripts ++
        (definition.script.map fun script => (definition.name, script)).toList }

mutual

/-- Replace the usages below a node, each by the nodes that `instantiate` makes of it. -/
def resolveNode (instantiate : Usage → Action (List Node)) : Node → Action (List Node)
  | .component name attributes children site, progress =>
    instantiate ⟨name, attributes, children, site⟩ progress
  | .element tag attributes children site, progress => do
    let (children, progress) ← resolveNodes instantiate children progress
    pure ([.element tag attributes children site], progress)
  | .conditional id condition consequent alternate site, progress => do
    let (consequent, progress) ← resolveNodes instantiate consequent progress
    let (alternate, progress) ← resolveNodes instantiate alternate progress
    pure ([.conditional id condition consequent alternate site], progress)
  | .optional id condition branch site, progress => do
    let (branch, progress) ← resolveNodes instantiate branch progress
    pure ([.optional id condition branch site], progress)
  | .loop id source binder body site, progress => do
    let (body, progress) ← resolveNodes instantiate body progress
    pure ([.loop id source binder body site], progress)
  | .text value site, progress => pure ([.text value site], progress)
  | .expression e, progress => pure ([.expression e], progress)
  | .doctype name publicId systemId location, progress =>
    pure ([.doctype name publicId systemId location], progress)

/-- Replace the usages below the nodes of a list. -/
def resolveNodes (instantiate : Usage → Action (List Node)) : List Node → Action (List Node)
  | [], progress => pure ([], progress)
  | node :: rest, progress => do
    let (first, progress) ← resolveNode instantiate node progress
    let (nodes, progress) ← resolveNodes instantiate rest progress
    pure (first ++ nodes, progress)

end

/-- Resolve the content for named slots, in order. -/
def resolveNamed (resolve : List Node → Action (List Node)) :
    List (String × SlotContent) → Action (List (String × SlotContent))
  | [], progress => pure ([], progress)
  | (name, content) :: rest, progress => do
    let (nodes, progress) ← resolve content.nodes progress
    let (others, progress) ← resolveNamed resolve rest progress
    pure ((name, { content with nodes }) :: others, progress)

/-- Resolve the content for all slots: the default slot first, then the others by name. -/
def resolveSlots (resolve : List Node → Action (List Node)) (slots : Slots) : Action Slots :=
  fun progress => do
    let (nodes, progress) ← resolve slots.default.nodes progress
    let ordered := slots.named.mergeSort fun a b => a.1 ≤ b.1
    let (named, progress) ← resolveNamed resolve ordered progress
    pure ({ default := { slots.default with nodes }, named }, progress)

/-- The definition that a usage refers to. -/
def definitionOf (context : Context) (stack : List String) (usage : Usage) :
    Except Misstep Definition :=
  let location := usage.site.location
  match usage.name.toList.dropWhile (· != '.') with
  | _ :: _ =>
    let parent := String.ofList (usage.name.toList.takeWhile (· != '.'))
    .error (.orphanMarker usage.name parent, location)
  | [] =>
    match context.library.lookup? usage.name with
    | none => .error (.undefinedComponent usage.name, location)
    | some definition =>
      if stack.contains definition.name then
        .error (.recursiveComponent definition.name (stack ++ [definition.name]), location)
      else .ok definition

/-- A copy of a definition with ids of its own, with fragments in place of expressions with markup,
with the values of props, and at the location of the usage. -/
def copy (definition : Definition) (usage : Usage) (registry : Registry) :
    Except Diagnostic (List Node × Registry) := do
  let (nodes, registry) := Node.rekey registry definition.nodes
  let (nodes, registry) ← Fragment.lower nodes definition.path registry
  let given := usage.attributes.filter definition.isProp
  let registry := registry.removeAll (Attribute.ids given)
  let (nodes, registry) :=
    Definition.substitute (definition.propValues given) registry nodes
  pure (Node.relocate usage.site.location registry nodes)

/-- The instance of a definition for a usage, given the content for its slots.  The usages that the
definition contains are still there. -/
def assemble (context : Context) (definition : Definition) (usage : Usage) (slots : Slots) :
    Action (List Node) := fun progress => do
  let (nodes, registry) ← copy definition usage progress.registry
  let (nodes, placement) :=
    placeNodes usage.site.scope ⟨slots, registry, progress.expectations⟩ nodes
  let registry := placement.registry.removeAll placement.slots.unplacedIds
  let forwarded := usage.attributes.filter fun attr => !definition.isProp attr
  let (nodes, registry) ← reportIn context.file
    (forward definition usage.site.location forwarded registry nodes)
  let (nodes, registry) := Node.rebind usage.site.scope registry nodes
  pure (nodes, { progress with registry, expectations := placement.expectations })

/-- Instances are nested too deep: some definition contains itself. -/
def nestedTooDeep (context : Context) (stack : List String) : Diagnostic :=
  Fault.report (.recursiveComponent (stack.getLastD "") stack) context.file {}

/-- Replace a usage by its instance.  `resolveInside` resolves what the definition contains, and
nodes in the content are nested less than `depth` deep. -/
def instantiate (context : Context) (resolveInside : List String → List Node → Action (List Node))
    (stack : List String) : Nat → Usage → Action (List Node)
  | 0, _, _ => .error (nestedTooDeep context stack)
  | depth + 1, usage, progress => do
    let definition ← reportIn context.file (definitionOf context stack usage)
    let progress := progress.use definition
    let (slots, registry) ← reportIn context.file
      (Slots.divide definition usage.site.scope {} progress.registry usage.children)
    let resolveContent := resolveNodes (instantiate context resolveInside stack depth)
    let (slots, progress) ← resolveSlots resolveContent slots { progress with registry }
    let (nodes, progress) ← assemble context definition usage slots progress
    resolveInside (stack ++ [definition.name]) nodes progress

/-- Replace all usages, where instances are nested less than `levels` deep. -/
def resolveWithin (context : Context) :
    Nat → List String → List Node → Action (List Node)
  | 0, stack, _, _ => .error (nestedTooDeep context stack)
  | levels + 1, stack, nodes, progress =>
    resolveNodes
      (instantiate context (resolveWithin context levels) stack (Node.heightOfList nodes + 1))
      nodes progress

/-- A tree without usages, and what the components that were used bring along. -/
structure Resolution where
  /-- The nodes. -/
  nodes : List Node
  /-- Components in order of first use. -/
  used : List String
  /-- Their styles. -/
  styles : List String
  /-- Their scripts. -/
  scripts : List (String × Template.Script)
  /-- The variables that the scope of an id has to contain. -/
  expectations : List (String × List String)
  deriving Repr, Inhabited

/-- Replace all usages of components.  The stack holds distinct names of definitions, so that there
are never more levels than definitions. -/
def resolve (library : Library) (file : String) (nodes : List Node) (registry : Registry) :
    Except Diagnostic (Resolution × Registry) :=
  match resolveWithin ⟨library, file⟩ (library.entries.length + 1) [] nodes { registry } with
  | .error report => .error report
  | .ok (nodes, progress) =>
    .ok (⟨nodes, progress.used, progress.styles, progress.scripts, progress.expectations⟩,
      progress.registry)

end Component
end ReactiveTemplate
