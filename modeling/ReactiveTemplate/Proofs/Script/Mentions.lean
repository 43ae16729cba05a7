import ReactiveTemplate.Proofs.Script.Patterns
import ReactiveTemplate.Script.Substitution

/-!
# Mentions of names

A term mentions a name wherever it refers to it, and each mention has a scope: the names that the
functions and blocks around it bind.  A declaration binds its names in the whole block it stands in,
or in the whole function.  What a mention is replaced by, and which terms have only mentions that
the replacement looks at.
-/

namespace ReactiveTemplate
namespace Script

/-- How a name is mentioned. -/
inductive Use where
  /-- By itself. -/
  | plain
  /-- As the key and the value of a property. -/
  | shorthand
  /-- As the object whose member with the given name, at the given place, is accessed. -/
  | object (extent : Extent) (member : String)
  deriving DecidableEq, Repr

/-- A mention of a name. -/
structure Mention where
  /-- Place of the name. -/
  extent : Extent
  /-- The name. -/
  name : String
  /-- How it is mentioned. -/
  use : Use
  /-- The names that are bound there. -/
  scope : List String
  deriving DecidableEq, Repr

/-! ## Names that are bound -/

/-- The names that a statement makes known in the block around it. -/
def Statement.blockNames : Statement → List String
  | .declaration false declarations => declaredNames declarations
  | .named name => [name]
  | _ => []

/-- The names that the statements of a block make known in it. -/
def blockNames (body : List Statement) : List String := body.flatMap Statement.blockNames

/-- The names that the body of a function makes known in it. -/
def bodyNames (body : List Statement) : List String :=
  blockNames body ++ Statement.functionNamesOfList body

/-! ## Mentions of a term -/

mutual

/-- The mentions of a term, where `scope` lists the names that are bound around it. -/
def Term.mentions (scope : List String) : Term → List Mention
  | .name extent name => [⟨extent, name, .plain, scope⟩]
  | .binary _ left right => left.mentions scope ++ right.mentions scope
  | .conditional test consequent alternate =>
    test.mentions scope ++ consequent.mentions scope ++ alternate.mentions scope
  | .unary operand | .await operand | .parenthesized _ _ operand | .chain operand
  | .typed operand => operand.mentions scope
  | .update target => target.targetMentions scope
  | .assignment target value => target.targetMentions scope ++ value.mentions scope
  | .sequence terms | .template terms => mentionsOfTerms scope terms
  | .tagged tag parts => tag.mentions scope ++ mentionsOfTerms scope parts
  | .call callee arguments | .construct callee arguments =>
    callee.mentions scope ++ mentionsOfItems scope arguments
  | .member object extent name =>
    match object with
    | .name own base => [⟨own, base, .object extent name, scope⟩]
    | _ => object.mentions scope
  | .index object key => object.mentions scope ++ key.mentions scope
  | .object properties => mentionsOfProperties scope properties
  | .array elements => mentionsOfItems scope elements
  | .arrow parameters body =>
    mentionsOfStatements (bodyNames body ++ parameters.names ++ scope) body
  | .function own parameters body =>
    mentionsOfStatements (bodyNames body ++ parameters.names ++ own.toList ++ scope) body
  | .literal | .other => []

/-- The mentions of the target of an assignment: a name that is assigned to is not one. -/
def Term.targetMentions (scope : List String) : Term → List Mention
  | .member object _ _ => object.mentions scope
  | .index object key => object.mentions scope ++ key.mentions scope
  | .parenthesized _ _ inner | .typed inner => inner.targetMentions scope
  | .assignment target value => target.targetMentions scope ++ value.mentions scope
  | .object properties => targetMentionsOfProperties scope properties
  | .array elements => targetMentionsOfItems scope elements
  | _ => []

/-- The mentions of the elements of a target. -/
def targetMentionsOfItems (scope : List String) : List Item → List Mention
  | [] => []
  | .single term :: rest | .spread term :: rest =>
    term.targetMentions scope ++ targetMentionsOfItems scope rest
  | .hole :: rest => targetMentionsOfItems scope rest

/-- The mentions of the properties of a target. -/
def targetMentionsOfProperties (scope : List String) : List Property → List Mention
  | [] => []
  | .shorthand .. :: rest => targetMentionsOfProperties scope rest
  | .defaulted _ _ value :: rest =>
    value.mentions scope ++ targetMentionsOfProperties scope rest
  | .keyed key value :: rest =>
    mentionsOfOption scope key ++ value.targetMentions scope ++
      targetMentionsOfProperties scope rest
  | .spread term :: rest => term.targetMentions scope ++ targetMentionsOfProperties scope rest

/-- The mentions of a list of terms. -/
def mentionsOfTerms (scope : List String) : List Term → List Mention
  | [] => []
  | term :: rest => term.mentions scope ++ mentionsOfTerms scope rest

/-- The mentions of arguments or elements. -/
def mentionsOfItems (scope : List String) : List Item → List Mention
  | [] => []
  | .single term :: rest | .spread term :: rest =>
    term.mentions scope ++ mentionsOfItems scope rest
  | .hole :: rest => mentionsOfItems scope rest

/-- The mentions of the properties of an object. -/
def mentionsOfProperties (scope : List String) : List Property → List Mention
  | [] => []
  | .shorthand extent name :: rest =>
    ⟨extent, name, .shorthand, scope⟩ :: mentionsOfProperties scope rest
  | .defaulted _ _ value :: rest => value.mentions scope ++ mentionsOfProperties scope rest
  | .keyed key value :: rest =>
    mentionsOfOption scope key ++ value.mentions scope ++ mentionsOfProperties scope rest
  | .spread term :: rest => term.mentions scope ++ mentionsOfProperties scope rest

/-- The mentions of a term that may be absent. -/
def mentionsOfOption (scope : List String) : Option Term → List Mention
  | none => []
  | some term => term.mentions scope

/-- The mentions of a list of statements. -/
def mentionsOfStatements (scope : List String) : List Statement → List Mention
  | [] => []
  | statement :: rest => statement.mentions scope ++ mentionsOfStatements scope rest

/-- The mentions of a statement. -/
def Statement.mentions (scope : List String) : Statement → List Mention
  | .declaration _ declarations => mentionsOfDeclarations scope declarations
  | .expression term => term.mentions scope
  | .block body => mentionsOfStatements (blockNames body ++ scope) body
  | .branch test consequent alternate =>
    test.mentions scope ++ consequent.mentions scope ++ mentionsOfAlternate scope alternate
  | .return value => mentionsOfOption scope value
  | .named _ | .empty | .other _ => []

/-- The mentions of the second branch of a choice. -/
def mentionsOfAlternate (scope : List String) : Option Statement → List Mention
  | none => []
  | some statement => statement.mentions scope

/-- The mentions of declarations. -/
def mentionsOfDeclarations (scope : List String) : List (Pattern × Option Term) → List Mention
  | [] => []
  | (_, value) :: rest => mentionsOfOption scope value ++ mentionsOfDeclarations scope rest

end

/-! ## Replacement of mentions -/

namespace Mention

/-- What a mention by name is replaced by, if the name has a value and is not bound. -/
def plainEdit? (values : Values) (mention : Mention) : Option Replacement :=
  (values.free? mention.scope mention.name).map fun value =>
    ⟨mention.extent, if mention.use = .shorthand then mention.name ++ ": " ++ value else value⟩

/-- The value of a member of the properties as a whole. -/
def memberValue? (values : Values) (mention : Mention) : Option (Extent × String) :=
  match mention.use with
  | .object extent member =>
    if mention.name = "props" ∧ "props" ∉ mention.scope then
      (values.get? member).map fun value => (⟨mention.extent.start, extent.stop⟩, value)
    else none
  | _ => none

/-- What a mention is replaced by: the access to a member of the properties as a whole by the value
of this property, and a name by its value. -/
def edit? (values : Values) (mention : Mention) : Option Replacement :=
  match mention.memberValue? values with
  | some (extent, value) => some ⟨extent, value⟩
  | none => mention.plainEdit? values

/-- The replacement puts the value of a property in the place of the mention. -/
inductive Replaces (values : Values) (mention : Mention) : String → Replacement → Prop where
  /-- The name of the property is mentioned. -/
  | name {value : String} (found : values.get? mention.name = some value)
    (use : mention.use ≠ .shorthand) : Replaces values mention value ⟨mention.extent, value⟩
  /-- The name of the property is a key at the same time. -/
  | shorthand {value : String} (found : values.get? mention.name = some value)
    (use : mention.use = .shorthand) :
    Replaces values mention value ⟨mention.extent, mention.name ++ ": " ++ value⟩
  /-- The property is accessed as a member of the properties as a whole. -/
  | member {extent : Extent} {name value : String} (found : values.get? name = some value)
    (use : mention.use = .object extent name) (base : mention.name = "props") :
    Replaces values mention value ⟨⟨mention.extent.start, extent.stop⟩, value⟩

end Mention

/-- The mentions of the identifiers that occur free in the text of a value. -/
def freeMentions (value : String) : List Mention :=
  match readProgram value.toList with
  | some statements =>
    (mentionsOfStatements (bodyNames statements) statements).filter fun mention =>
      !mention.scope.contains mention.name
  | none => []

/-- The identifiers that occur free in the text of a value. -/
def freeNames (value : String) : List String := (freeMentions value).map Mention.name

end Script
end ReactiveTemplate
