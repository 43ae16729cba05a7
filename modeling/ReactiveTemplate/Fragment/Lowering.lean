import ReactiveTemplate.Code.Shape
import ReactiveTemplate.Fragment.Markup

/-!
# Fragments

An expression whose value is markup becomes a fragment: a choice between two branches, a branch that
may be absent, or a branch that is repeated.  The branches are read as markup, and the expressions in
them become fragments in turn.  Each branch is shorter than the code it stands in, so that the depth
of this is bounded by the length of the code.
-/

namespace ReactiveTemplate
namespace Fragment

/-- A step that reads or changes the registry and can fail. -/
abbrev Action (α : Type) := Registry → Except Misstep (α × Registry)

/-- An attribute value that is markup is refused. -/
def checkAttribute (attr : Attribute) : Except Misstep Unit :=
  match attr.value with
  | .fixed _ => .ok ()
  | .dynamic e =>
    match Code.findsMarkup? e.code.toList with
    | some true => .error (.markupAttribute attr.name e.code, attr.site.location)
    | some false => .ok ()
    | none => .error (.crash e.code, attr.site.location)

/-- No attribute value is markup. -/
def checkAttributes : List Attribute → Except Misstep Unit
  | [] => .ok ()
  | attr :: rest =>
    match checkAttribute attr with
    | .ok () => checkAttributes rest
    | .error misstep => .error misstep

mutual

/-- Replace the expressions below a node, each by the nodes that `lowerExpression` makes of it. -/
def lowerNode (lowerExpression : Expression → Action (List Node)) :
    Node → Action (List Node)
  | .expression e, registry => lowerExpression e registry
  | .element tag attributes children site, registry => do
    checkAttributes attributes
    let (children, registry) ← lowerNodes lowerExpression children registry
    pure ([.element tag attributes children site], registry)
  | .component name attributes children site, registry => do
    checkAttributes attributes
    let (children, registry) ← lowerNodes lowerExpression children registry
    pure ([.component name attributes children site], registry)
  | .conditional id condition consequent alternate site, registry => do
    let (consequent, registry) ← lowerNodes lowerExpression consequent registry
    let (alternate, registry) ← lowerNodes lowerExpression alternate registry
    pure ([.conditional id condition consequent alternate site], registry)
  | .optional id condition branch site, registry => do
    let (branch, registry) ← lowerNodes lowerExpression branch registry
    pure ([.optional id condition branch site], registry)
  | .loop id source binder body site, registry => do
    let (body, registry) ← lowerNodes lowerExpression body registry
    pure ([.loop id source binder body site], registry)
  | .text value site, registry => pure ([.text value site], registry)
  | .doctype name publicId systemId location, registry =>
    pure ([.doctype name publicId systemId location], registry)

/-- Replace the expressions below the nodes of a list. -/
def lowerNodes (lowerExpression : Expression → Action (List Node)) :
    List Node → Action (List Node)
  | [], registry => pure ([], registry)
  | node :: rest, registry => do
    let (first, registry) ← lowerNode lowerExpression node registry
    let (nodes, registry) ← lowerNodes lowerExpression rest registry
    pure (first ++ nodes, registry)

end

/-- Branches that show nothing. -/
def isEmptyBranch (code : List Char) : Bool :=
  ["", "null", "undefined", "false", "''", "\"\"", "\x60\x60"].contains (String.ofList code)

/-- Read a branch of a fragment.  Markup is read into nodes, and any other code is an expression of
its own. -/
def readBranch (lowerExpression : Expression → Action (List Node)) (code : List Char)
    (location : Location) (scope : Option Scope) : Action (List Node) := fun registry =>
  let (start, stop) := Code.unwrap code
  let inner := Text.slice code start stop
  let location := location.advance (code.take start)
  if isEmptyBranch inner then pure ([], registry)
  else if inner.head? = some '<' then do
    let (nodes, registry) ← readChildren scope false registry location inner
    lowerNodes lowerExpression nodes registry
  else
    let text := String.ofList inner
    let (id, registry) := registry.register "expr" text location scope
    lowerExpression ⟨id, text, location, scope⟩ registry

/-- Where a segment of an expression starts. -/
def segmentLocation (e : Expression) (segment : Code.Segment) : Location :=
  e.location.advance (e.code.toList.take segment.start)

/-- The text of a segment. -/
def segmentText (segment : Code.Segment) : String := String.ofList segment.text

/-- Turn an expression with the given shape into a fragment. -/
def lowerShape (lowerExpression : Expression → Action (List Node)) (e : Expression) :
    Code.Shape → Action (List Node)
  | .primitive, registry => pure ([.expression e], registry)
  | .unknown, _ => .error (.mixedMarkup e.code, e.location)
  | .crash, _ => .error (.crash e.code, e.location)
  | .fragment markup, registry => do
    let (nodes, registry) ←
      readBranch lowerExpression markup.text (segmentLocation e markup) e.scope registry
    pure (nodes, registry.remove e.id)
  | .conditional condition consequent alternate, registry => do
    let text := segmentText condition
    let (id, registry) := registry.register "cond" text (segmentLocation e condition) e.scope
    let (first, registry) ←
      readBranch lowerExpression consequent.text (segmentLocation e consequent) e.scope registry
    let (second, registry) ←
      readBranch lowerExpression alternate.text (segmentLocation e alternate) e.scope registry
    pure ([.conditional id text first second ⟨e.location, e.scope⟩], registry.remove e.id)
  | .optional condition branch, registry => do
    let text := segmentText condition
    let (id, registry) := registry.register "opt" text (segmentLocation e condition) e.scope
    let (nodes, registry) ←
      readBranch lowerExpression branch.text (segmentLocation e branch) e.scope registry
    pure ([.optional id text nodes ⟨e.location, e.scope⟩], registry.remove e.id)
  | .loop source binder body, registry => do
    let text := segmentText source
    let (id, registry) := registry.register "loop" text (segmentLocation e source) e.scope
    let inside := Scope.insideLoop e.scope id binder.bound
    let (nodes, registry) ←
      readBranch lowerExpression body.text (segmentLocation e body) (some inside) registry
    pure ([.loop id text binder nodes ⟨e.location, e.scope⟩], registry.remove e.id)

/-- Turn an expression into a fragment if its value is markup, at most so many levels deep. -/
def lowerWithin : Nat → Expression → Action (List Node)
  | 0, e, _ => .error (.mixedMarkup e.code, e.location)
  | depth + 1, e, registry =>
    lowerShape (lowerWithin depth) e (Code.analyze e.code.toList) registry

/-- Turn an expression into a fragment if its value is markup. -/
def lowerExpression (e : Expression) : Action (List Node) := lowerWithin (e.code.length + 1) e

/-- Turn every expression whose value is markup into a fragment. -/
def lower (nodes : List Node) (file : String) (registry : Registry) :
    Except Diagnostic (List Node × Registry) :=
  reportIn file (lowerNodes lowerExpression nodes registry)

end Fragment
end ReactiveTemplate
