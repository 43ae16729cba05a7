import ReactiveTemplate.Script.Term

/-!
# Targets of assignments

Which terms may stand on the left of an assignment: names, members, and object and list literals
that are built from such terms.
-/

namespace ReactiveTemplate
namespace Script

namespace Term

/-- The term is an object or list literal. -/
def isLiteralPattern : Term → Bool
  | .object _ | .array _ => true
  | _ => false

mutual

/-- The term can be assigned to. -/
def isTarget : Term → Bool
  | .name .. | .member .. | .index .. => true
  | .parenthesized _ _ inner => !inner.isLiteralPattern && inner.isTarget
  | .typed inner => inner.isTarget
  | .object properties => propertiesAreTargets properties
  | .array elements => itemsAreTargets elements
  | _ => false

/-- The term can be assigned to, possibly with a default. -/
def isElementTarget : Term → Bool
  | .assignment .. => true
  | .name .. | .member .. | .index .. => true
  | .parenthesized _ _ inner => !inner.isLiteralPattern && inner.isTarget
  | .typed inner => inner.isTarget
  | .object properties => propertiesAreTargets properties
  | .array elements => itemsAreTargets elements
  | _ => false

/-- The properties of an object literal can be assigned to; only the last may take the rest. -/
def propertiesAreTargets : List Property → Bool
  | [] => true
  | [.spread term] => !term.isLiteralPattern && term.isTarget
  | .shorthand .. :: rest | .defaulted .. :: rest => propertiesAreTargets rest
  | .keyed _ value :: rest => value.isElementTarget && propertiesAreTargets rest
  | .spread _ :: _ => false

/-- The elements of a list literal can be assigned to; only the last may take the rest. -/
def itemsAreTargets : List Item → Bool
  | [] => true
  | [.spread term] => term.isTarget
  | .hole :: rest => itemsAreTargets rest
  | .single term :: rest => term.isElementTarget && itemsAreTargets rest
  | .spread _ :: _ => false

end

mutual

/-- Places of the properties with a default that belong to the term as the target of an
assignment. -/
def defaultPlaces : Term → List Nat
  | .object properties => propertiesDefaultPlaces properties
  | .array elements => itemsDefaultPlaces elements
  | .typed inner => inner.defaultPlaces
  | _ => []

/-- Places of the properties with a default in the properties of a target. -/
def propertiesDefaultPlaces : List Property → List Nat
  | [] => []
  | .defaulted start _ _ :: rest => start :: propertiesDefaultPlaces rest
  | .keyed _ value :: rest => value.defaultPlaces ++ propertiesDefaultPlaces rest
  | .shorthand .. :: rest | .spread _ :: rest => propertiesDefaultPlaces rest

/-- Places of the properties with a default in the elements of a target. -/
def itemsDefaultPlaces : List Item → List Nat
  | [] => []
  | .single term :: rest => term.defaultPlaces ++ itemsDefaultPlaces rest
  | .spread term :: rest => term.defaultPlaces ++ itemsDefaultPlaces rest
  | .hole :: rest => itemsDefaultPlaces rest

end

/-- The term can be counted up or down. -/
def isSimpleTarget (term : Term) : Bool := !term.isLiteralPattern && term.isTarget

end Term
end Script
end ReactiveTemplate
