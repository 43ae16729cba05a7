import ReactiveTemplate.Component.Props

/-!
# Forwarded attributes

The attributes of a usage that are no props land on the root of the instance, which is its first
element or usage at the top level.  Classes are combined; any other attribute takes the place of one
of the same name.
-/

namespace ReactiveTemplate
namespace Component

/-- The attribute that marks the root of a component with a script. -/
def ownerAttribute : String := "data-zen-component"

/-- Forget the expression of a value. -/
def forget (registry : Registry) : AttributeValue → Registry
  | .fixed _ => registry
  | .dynamic e => registry.remove e.id

/-- Combine the class of the root with a class of the usage. -/
def mergeClass (registry : Registry) (own incoming : Attribute) : Attribute × Registry :=
  match own.value, incoming.value with
  | .fixed first, .fixed second =>
    ({ incoming with value := .fixed (Text.trimmed (first ++ " " ++ second)) }, registry)
  | first, second =>
    let code := "[" ++ Definition.valueCode first ++ ", " ++ Definition.valueCode second ++
      "].filter(Boolean).join(\" \")"
    let location := incoming.site.location
    let scope := Scope.merge own.site.scope incoming.site.scope
    let registry := forget (forget registry first) second
    let (id, registry) := registry.register "expr" code location scope
    ({ name := "class", value := .dynamic ⟨id, code, location, scope⟩, site := ⟨location, scope⟩ },
      registry)

/-- Put an attribute on the root. -/
def forwardOne (registry : Registry) (incoming : Attribute) :
    List Attribute → List Attribute × Registry
  | [] => ([incoming], registry)
  | own :: rest =>
    if own.name = incoming.name then
      if incoming.name = "class" then
        let (merged, registry) := mergeClass registry own incoming
        (merged :: rest, registry)
      else (incoming :: rest, forget registry own.value)
    else
      let (rest, registry) := forwardOne registry incoming rest
      (own :: rest, registry)

/-- Put attributes on the root, in order. -/
def forwardAll (registry : Registry) (attributes : List Attribute) :
    List Attribute → List Attribute × Registry
  | [] => (attributes, registry)
  | incoming :: rest =>
    let (attributes, registry) := forwardOne registry incoming attributes
    forwardAll registry attributes rest

/-- The attributes of the root of an instance. -/
def rootAttributes (definition : Definition) (registry : Registry) (forwarded : List Attribute)
    (attributes : List Attribute) (site : Site) : List Attribute × Registry :=
  let (attributes, registry) := forwardAll registry attributes forwarded
  if definition.hasScript && !attributes.any (·.name == ownerAttribute) then
    (attributes ++ [{ name := ownerAttribute, value := .fixed definition.name, site }], registry)
  else (attributes, registry)

/-- Put the forwarded attributes on the root of an instance. -/
def forward (definition : Definition) (usage : Location) (forwarded : List Attribute)
    (registry : Registry) : List Node → Except Misstep (List Node × Registry)
  | [] =>
    match forwarded with
    | [] => .ok ([], registry)
    | attr :: _ => .error (.noForwardRoot attr.name definition.name, usage)
  | .element tag attributes children site :: rest =>
    let (attributes, registry) := rootAttributes definition registry forwarded attributes site
    .ok (.element tag attributes children site :: rest, registry)
  | .component name attributes children site :: rest =>
    let (attributes, registry) := rootAttributes definition registry forwarded attributes site
    .ok (.component name attributes children site :: rest, registry)
  | node :: rest =>
    match forward definition usage forwarded registry rest with
    | .ok (rest, registry) => .ok (node :: rest, registry)
    | .error misstep => .error misstep

end Component
end ReactiveTemplate
