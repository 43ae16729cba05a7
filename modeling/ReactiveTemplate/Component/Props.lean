import ReactiveTemplate.Component.Definition
import ReactiveTemplate.Script.Substitution
import ReactiveTemplate.Text.Quoted
import ReactiveTemplate.Tree.Traversal

/-!
# Props

The attributes of a usage that the definition declares as props are its arguments: inside the
instance, every free reference to a prop is replaced by the value given at the usage.
-/

namespace ReactiveTemplate
namespace Definition

/-- The attribute gives the value of a declared prop. -/
def isProp (definition : Definition) (attr : Attribute) : Bool :=
  definition.props.any fun prop => Text.equalIgnoringAsciiCase prop attr.name

/-- The value of an attribute as code. -/
def valueCode : AttributeValue → String
  | .fixed text => Text.quoted text
  | .dynamic e => "(" ++ e.code ++ ")"

/-- The code given for a prop; a prop without a value is undefined. -/
def propValue (given : List Attribute) (prop : String) : String :=
  match given.find? fun attr => Text.equalIgnoringAsciiCase attr.name prop with
  | some attr => valueCode attr.value
  | none => "undefined"

/-- The values of all props of a definition. -/
def propValues (definition : Definition) (given : List Attribute) : Script.Values :=
  definition.props.map fun prop => (prop, propValue given prop)

/-- Replace references to props by their values. -/
def substituting (values : Script.Values) : Traversal Registry where
  expression := fun registry e =>
    let code := Script.substitute e.code values (Scope.names e.scope)
    ({ e with code }, registry.setCode e.id code)

/-- Replace references to props by their values, if there are any props. -/
def substitute (values : Script.Values) (registry : Registry) (nodes : List Node) :
    List Node × Registry :=
  if values.isEmpty then (nodes, registry) else (substituting values).nodes registry nodes

end Definition
end ReactiveTemplate
