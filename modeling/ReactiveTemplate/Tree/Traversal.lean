import ReactiveTemplate.Tree.Node

/-!
# Traversals of template trees

Several passes change every site of a tree and keep the registry in step: ids are renewed, locations
replaced, scopes widened, code changed.  They visit a tree in the same order, which is the order of
its ids; what they do at a site is a `Traversal`.  A fragment is seen as an expression at its head.
-/

namespace ReactiveTemplate

/-- What a pass does at the sites of a tree, with a state of type `σ`. -/
structure Traversal (σ : Type) where
  /-- At a site that has no id. -/
  site : σ → Site → Site := fun _ s => s
  /-- At a site that has an id. -/
  expression : σ → Expression → Expression × σ
  /-- At the document type. -/
  place : Location → Location := fun l => l

namespace Traversal

variable {σ : Type}

/-- Visit an attribute. -/
def attr (t : Traversal σ) (state : σ) (a : Attribute) : Attribute × σ :=
  let site := t.site state a.site
  match a.value with
  | .fixed _ => ({ a with site }, state)
  | .dynamic e =>
    let (e, state) := t.expression state e
    ({ a with site, value := .dynamic e }, state)

/-- Visit attributes in order. -/
def attrs (t : Traversal σ) (state : σ) : List Attribute → List Attribute × σ
  | [] => ([], state)
  | a :: rest =>
    let (a, state) := t.attr state a
    let (rest, state) := t.attrs state rest
    (a :: rest, state)

mutual

/-- Visit a node and everything below it. -/
def node (t : Traversal σ) (state : σ) : Node → Node × σ
  | .element tag attributes children site =>
    let site := t.site state site
    let (attributes, state) := t.attrs state attributes
    let (children, state) := t.nodes state children
    (.element tag attributes children site, state)
  | .component name attributes children site =>
    let site := t.site state site
    let (attributes, state) := t.attrs state attributes
    let (children, state) := t.nodes state children
    (.component name attributes children site, state)
  | .text value site => (.text value (t.site state site), state)
  | .expression e =>
    let (e, state) := t.expression state e
    (.expression e, state)
  | .conditional id condition consequent alternate site =>
    let (e, state) := t.expression state ⟨id, condition, site.location, site.scope⟩
    let (consequent, state) := t.nodes state consequent
    let (alternate, state) := t.nodes state alternate
    (.conditional e.id e.code consequent alternate ⟨e.location, e.scope⟩, state)
  | .optional id condition branch site =>
    let (e, state) := t.expression state ⟨id, condition, site.location, site.scope⟩
    let (branch, state) := t.nodes state branch
    (.optional e.id e.code branch ⟨e.location, e.scope⟩, state)
  | .loop id source binder body site =>
    let (e, state) := t.expression state ⟨id, source, site.location, site.scope⟩
    let (body, state) := t.nodes state body
    (.loop e.id e.code binder body ⟨e.location, e.scope⟩, state)
  | .doctype name publicId systemId location =>
    (.doctype name publicId systemId (t.place location), state)

/-- Visit nodes in order. -/
def nodes (t : Traversal σ) (state : σ) : List Node → List Node × σ
  | [] => ([], state)
  | first :: rest =>
    let (first, state) := t.node state first
    let (rest, state) := t.nodes state rest
    (first :: rest, state)

end

end Traversal

namespace Node

/-! ## Fresh ids -/

/-- The kind in an id: what stands before its last underscore. -/
def kindOf (id : String) : String :=
  let reversed := id.toList.reverse
  match reversed.dropWhile (· != '_') with
  | _ :: kind => String.ofList kind.reverse
  | [] => "expr"

/-- The new names of ids, latest first. -/
abbrev Renaming := List (String × String)

/-- The scope with its loop under the new name. -/
def renameScope (renamed : Renaming) (scope : Option Scope) : Option Scope :=
  scope.map fun s =>
    match s.loop.bind fun loop => renamed.lookup loop with
    | some new => { s with loop := some new }
    | none => s

/-- Give every id a fresh entry in the registry. -/
def rekeying : Traversal (Registry × Renaming) where
  site := fun (_, renamed) s => { s with scope := renameScope renamed s.scope }
  expression := fun (registry, renamed) e =>
    let scope := renameScope renamed e.scope
    let (id, registry) := registry.register (kindOf e.id) e.code e.location scope
    ({ e with id, scope }, (registry, (e.id, id) :: renamed))

/-- Give every id of a copy a fresh entry in the registry, so that copies never share ids. -/
def rekey (registry : Registry) (nodes : List Node) : List Node × Registry :=
  let (nodes, registry, _) := rekeying.nodes (registry, []) nodes
  (nodes, registry)

/-! ## Locations -/

/-- Move every site to a location. -/
def relocating (location : Location) : Traversal Registry where
  site := fun _ s => { s with location }
  expression := fun registry e => ({ e with location }, registry.setLocation e.id location)
  place := fun _ => location

/-- Move every site to a location. -/
def relocate (location : Location) (registry : Registry) (nodes : List Node) :
    List Node × Registry :=
  (relocating location).nodes registry nodes

/-! ## Scopes -/

/-- Widen the scope of every site. -/
def rebinding (scope : Option Scope) : Traversal Registry where
  site := fun _ s => { s with scope := Scope.merge s.scope scope }
  expression := fun registry e =>
    let merged := Scope.merge e.scope scope
    ({ e with scope := merged }, registry.setScope e.id merged)

/-- Widen the scope of every site; an absent scope changes nothing. -/
def rebind (scope : Option Scope) (registry : Registry) (nodes : List Node) :
    List Node × Registry :=
  if scope.isNone then (nodes, registry) else (rebinding scope).nodes registry nodes

/-! ## Heights -/

mutual

/-- How deep the nodes below a node are nested. -/
def height : Node → Nat
  | element _ _ children _ | component _ _ children _ => heightOfList children + 1
  | text .. | expression .. | doctype .. => 0
  | conditional _ _ consequent alternate _ =>
    max (heightOfList consequent) (heightOfList alternate) + 1
  | optional _ _ branch _ => heightOfList branch + 1
  | loop _ _ _ body _ => heightOfList body + 1

/-- How deep the nodes of a list are nested. -/
def heightOfList : List Node → Nat
  | [] => 0
  | node :: rest => max (height node) (heightOfList rest)

end

end Node
end ReactiveTemplate
