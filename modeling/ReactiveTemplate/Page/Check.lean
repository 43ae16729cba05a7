import ReactiveTemplate.Code.Shape
import ReactiveTemplate.Diagnostic

/-!
# The final check

Before a page is written out its tree is checked: no component usage is left, every id is registered
and used once, loop variables are in reach wherever a loop repeats nodes, and no expression shows
markup.  The first violation in document order is reported.
-/

namespace ReactiveTemplate
namespace Page

/-- What the check of a tree knows. -/
structure Terms where
  /-- The registered expressions. -/
  registry : Registry
  /-- The variables that the scope of an id has to contain. -/
  expectations : List (String × List String)

/-- All required variables are in the scope. -/
def checkScope (scope : Option Scope) (required : List String) (location : Location) :
    Except Misstep Unit :=
  match required.find? fun name => !(Scope.names scope).contains name with
  | some missing => .error (.scopeLost missing, location)
  | none => .ok ()

/-- The variables expected of an id are in the scope. -/
def checkExpectation (terms : Terms) (id : String) (scope : Option Scope) (location : Location) :
    Except Misstep Unit :=
  match terms.expectations.lookup id with
  | some expected => checkScope scope expected location
  | none => .ok ()

/-- The id is registered and has not been met before; afterwards it has been. -/
def checkRegistered (terms : Terms) (seen : List String) (id : String) (location : Location) :
    Except Misstep (List String) :=
  if !terms.registry.contains id then .error (.unregistered id, location)
  else if seen.contains id then .error (.boundTwice id, location)
  else .ok (id :: seen)

/-- How a report names a kind of output; a crash is not reported. -/
def outputName : Code.Output → String
  | .primitive => "Primitive"
  | .conditional => "Conditional"
  | .optional => "Optional"
  | .loop => "Loop"
  | .fragment => "Fragment"
  | .unknown => "Unknown"
  | .crash => ""

/-- The code shows no markup. -/
def checkPlain (code : String) (location : Location) : Except Misstep Unit :=
  match (Code.analyze code.toList).output with
  | .primitive => .ok ()
  | .crash => .error (.crash code, location)
  | output => .error (.markupSurvived (outputName output) code, location)

/-- An attribute by which a template element would select a slot. -/
def selectsSlot (name : String) : Bool :=
  name == "name" || Text.startsWith name.toList "#" || Text.startsWith name.toList "v-slot"

/-- Slots are selected neither by an attribute nor by a template element. -/
def checkElement (tag : String) (attributes : List Attribute) (location : Location) :
    Except Misstep Unit :=
  match Attribute.find? attributes "slot" with
  | some attr => .error (.slotAttribute tag, attr.site.location)
  | none =>
    if tag == "template" && attributes.any fun attr => selectsSlot attr.name then
      .error (.templateSlot, location)
    else .ok ()

/-- The dynamic attributes are registered, and see what they have to see. -/
def checkAttributes (terms : Terms) (required : List String) :
    List String → List Attribute → Except Misstep (List String)
  | seen, [] => .ok seen
  | seen, attr :: rest =>
    match attr.value with
    | .fixed _ => checkAttributes terms required seen rest
    | .dynamic e => do
      let location := attr.site.location
      let seen ← checkRegistered terms seen e.id location
      checkScope e.scope required location
      checkExpectation terms e.id e.scope location
      checkAttributes terms required seen rest

/-- The head of a fragment is registered, and sees what it has to see. -/
def checkHead (terms : Terms) (required seen : List String) (id : String) (site : Site) :
    Except Misstep (List String) := do
  checkScope site.scope required site.location
  let seen ← checkRegistered terms seen id site.location
  checkExpectation terms id site.scope site.location
  pure seen

mutual

/-- Check a node, where the variables of the loops around it are required; `seen` are the ids met so
far. -/
def checkNode (terms : Terms) (required : List String) :
    List String → Node → Except Misstep (List String)
  | _, .component name _ _ site => .error (.unresolvedComponent name, site.location)
  | seen, .doctype .. => .ok seen
  | seen, .text _ site => do
    checkScope site.scope required site.location
    pure seen
  | seen, .element tag attributes children site => do
    checkScope site.scope required site.location
    checkElement tag attributes site.location
    let seen ← checkAttributes terms required seen attributes
    checkNodes terms required seen children
  | seen, .expression e => do
    let seen ← checkHead terms required seen e.id ⟨e.location, e.scope⟩
    checkPlain e.code e.location
    pure seen
  | seen, .conditional id _ consequent alternate site => do
    let seen ← checkHead terms required seen id site
    let seen ← checkNodes terms required seen consequent
    checkNodes terms required seen alternate
  | seen, .optional id _ branch site => do
    let seen ← checkHead terms required seen id site
    checkNodes terms required seen branch
  | seen, .loop id _ binder body site => do
    let seen ← checkHead terms required seen id site
    checkNodes terms (Scope.addNames required binder.bound) seen body

/-- Check nodes in order. -/
def checkNodes (terms : Terms) (required : List String) :
    List String → List Node → Except Misstep (List String)
  | seen, [] => .ok seen
  | seen, node :: rest => do
    let seen ← checkNode terms required seen node
    checkNodes terms required seen rest

end

/-- Check a tree. -/
def check (nodes : List Node) (registry : Registry) (expectations : List (String × List String))
    (file : String) : Except Diagnostic Unit :=
  match reportIn file (checkNodes ⟨registry, expectations⟩ [] [] nodes) with
  | .ok _ => .ok ()
  | .error report => .error report

end Page
end ReactiveTemplate
