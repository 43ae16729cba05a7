import ReactiveTemplate.Script.Statements

/-!
# Replacement of names by values

The properties that a usage passes to a component replace the names of these properties in the code
of the definition.  A reference is replaced unless a surrounding arrow function, an earlier
declaration in its block or a loop binds the name.  A property can also be reached as a member of
the name `props`.
-/

namespace ReactiveTemplate
namespace Script

/-- A stretch of the text and what takes its place. -/
structure Replacement where
  /-- Place of the old text. -/
  extent : Extent
  /-- The new text. -/
  text : String
  deriving DecidableEq, Repr

/-- Values by name, in no particular order. -/
abbrev Values := List (String × String)

/-- The value of a name. -/
def Values.get? (values : Values) (name : String) : Option String :=
  (values.find? (·.1 == name)).map (·.2)

/-- The value of a name that is not bound. -/
def Values.free? (values : Values) (bound : List String) (name : String) : Option String :=
  if bound.contains name then none else values.get? name

mutual

/-- The replacements in a term, where `bound` lists the names that are bound around it. -/
def replacements (values : Values) (bound : List String) : Term → List Replacement
  | .name extent name =>
    match values.free? bound name with
    | some value => [⟨extent, value⟩]
    | none => []
  | .binary _ left right => replacements values bound left ++ replacements values bound right
  | .conditional test consequent alternate =>
    replacements values bound test ++ replacements values bound consequent ++
      replacements values bound alternate
  | .unary operand | .await operand | .parenthesized _ _ operand =>
    replacements values bound operand
  | .update target => targetReplacements values bound target
  | .assignment target value =>
    targetReplacements values bound target ++ replacements values bound value
  | .sequence terms | .template terms => termsReplacements values bound terms
  | .tagged tag parts => replacements values bound tag ++ termsReplacements values bound parts
  | .call callee arguments | .construct callee arguments =>
    replacements values bound callee ++ itemsReplacements values bound arguments
  | .chain inner => linkReplacements values bound inner
  | .index object key => replacements values bound object ++ replacements values bound key
  | .member object place name =>
    match object with
    | .name extent base =>
      match if base == "props" && !bound.contains "props" then values.get? name else none with
      | some value => [⟨⟨extent.start, place.stop⟩, value⟩]
      | none => replacements values bound object
    | _ => replacements values bound object
  | .object properties => propertiesReplacements values bound properties
  | .array elements => itemsReplacements values bound elements
  | .arrow parameters body =>
    let inner := parameters.items.foldl (fun names item => item.pattern.addNames names) bound
    (statementsReplacements values inner body)
  | .function .. | .typed _ | .literal | .other => []

/-- The replacements in the target of an assignment: only the object of a member is read. -/
def targetReplacements (values : Values) (bound : List String) : Term → List Replacement
  | .member object _ _ => replacements values bound object
  | .index object key => replacements values bound object ++ replacements values bound key
  | .parenthesized _ _ inner => targetReplacements values bound inner
  | _ => []

/-- The replacements in the outermost link of a chain of accesses. -/
def linkReplacements (values : Values) (bound : List String) : Term → List Replacement
  | .call callee arguments =>
    replacements values bound callee ++ itemsReplacements values bound arguments
  | .member object _ _ => replacements values bound object
  | .index object key => replacements values bound object ++ replacements values bound key
  | _ => []

/-- The replacements in a list of terms. -/
def termsReplacements (values : Values) (bound : List String) : List Term → List Replacement
  | [] => []
  | term :: rest => replacements values bound term ++ termsReplacements values bound rest

/-- The replacements in arguments or elements; what is spread stays as it is. -/
def itemsReplacements (values : Values) (bound : List String) : List Item → List Replacement
  | [] => []
  | .single term :: rest => replacements values bound term ++ itemsReplacements values bound rest
  | .spread _ :: rest | .hole :: rest => itemsReplacements values bound rest

/-- The replacements in the properties of an object. -/
def propertiesReplacements (values : Values) (bound : List String) :
    List Property → List Replacement
  | [] => []
  | .shorthand extent name :: rest =>
    (match values.free? bound name with
      | some value => [⟨extent, name ++ ": " ++ value⟩]
      | none => []) ++ propertiesReplacements values bound rest
  | .defaulted .. :: rest => propertiesReplacements values bound rest
  | .keyed key value :: rest =>
    replacements values bound value ++ keyReplacements values bound key ++
      propertiesReplacements values bound rest
  | .spread term :: rest =>
    replacements values bound term ++ propertiesReplacements values bound rest

/-- The replacements in a computed key. -/
def keyReplacements (values : Values) (bound : List String) : Option Term → List Replacement
  | none => []
  | some term => replacements values bound term

/-- The replacements in a list of statements. -/
def statementsReplacements (values : Values) (bound : List String) :
    List Statement → List Replacement
  | [] => []
  | statement :: rest =>
    let (own, bound) := statementReplacements values bound statement
    own ++ statementsReplacements values bound rest

/-- The replacements in a statement, and the names bound after it. -/
def statementReplacements (values : Values) (bound : List String) :
    Statement → List Replacement × List String
  | .declaration _ items => declarationReplacements values bound items
  | .expression term => (replacements values bound term, bound)
  | .block body => (statementsReplacements values bound body, bound)
  | .branch test consequent alternate =>
    let first := replacements values bound test
    let (second, bound) := statementReplacements values bound consequent
    let (third, bound) := alternateReplacements values bound alternate
    (first ++ second ++ third, bound)
  | .return value => (valueReplacements values bound value, bound)
  | .named _ | .empty | .other _ => ([], bound)

/-- The replacements in the second branch of a choice, and the names bound after it. -/
def alternateReplacements (values : Values) (bound : List String) :
    Option Statement → List Replacement × List String
  | none => ([], bound)
  | some statement => statementReplacements values bound statement

/-- The replacements in a value that may be absent. -/
def valueReplacements (values : Values) (bound : List String) : Option Term → List Replacement
  | none => []
  | some term => replacements values bound term

/-- The replacements in declarations, and the names bound after them.  A declared name is bound in
its own initial value. -/
def declarationReplacements (values : Values) (bound : List String) :
    List (Pattern × Option Term) → List Replacement × List String
  | [] => ([], bound)
  | (pattern, value) :: rest =>
    let bound := pattern.addNames bound
    let own := valueReplacements values bound value
    let (others, bound) := declarationReplacements values bound rest
    (own ++ others, bound)

end

/-- Put new text in place of a stretch of the text. -/
def Replacement.apply (text : List Char) (replacement : Replacement) : List Char :=
  text.take replacement.extent.start ++ replacement.text.toList ++
    text.drop replacement.extent.stop

/-- Replace the free references to names by their values.  Code that is no expression stays as it
is, and so does code without references. -/
def substitute (code : String) (values : Values) (bound : List String) : String :=
  if values.isEmpty then code
  else
    let text := '(' :: code.toList ++ [')']
    match readProgram text with
    | some (.expression term :: _) =>
      match replacements values bound term with
      | [] => code
      | found =>
        let ordered := found.mergeSort fun a b => b.extent.start ≤ a.extent.start
        String.ofList (((ordered.foldl Replacement.apply text).drop 1).dropLast)
    | _ => code

end Script
end ReactiveTemplate
