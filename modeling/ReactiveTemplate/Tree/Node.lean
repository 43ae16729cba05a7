import ReactiveTemplate.Text.Blank
import ReactiveTemplate.Tree.Registry

/-!
# Template trees

A template is a list of nodes.  Besides elements, text and the document type there are expressions,
usages of components, and the three fragments that expressions with markup turn into: a choice
between two branches, a branch that may be absent, and a branch repeated for the items of a list.
-/

namespace ReactiveTemplate

/-- Where a node was written and which loop variables it sees. -/
structure Site where
  /-- Where the node starts. -/
  location : Location := {}
  /-- Variables of enclosing loops. -/
  scope : Option Scope := none
  deriving DecidableEq, Repr, Inhabited

/-- The value of an attribute: fixed text, or an expression. -/
inductive AttributeValue where
  /-- Fixed text. -/
  | fixed (text : String)
  /-- The value of an expression. -/
  | dynamic (expression : Expression)
  deriving DecidableEq, Repr

/-- An attribute of an element or of a component usage. -/
structure Attribute where
  /-- Attribute name. -/
  name : String
  /-- Attribute value. -/
  value : AttributeValue
  /-- Where the attribute was written and what it sees. -/
  site : Site
  deriving DecidableEq, Repr

/-- What a loop binds for each item of its list. -/
structure LoopBinder where
  /-- Text of the first parameter. -/
  item : String
  /-- Text of the second parameter. -/
  index : Option String
  /-- Every name that the parameters bind. -/
  bound : List String
  deriving DecidableEq, Repr

/-- A node of a template. -/
inductive Node where
  /-- An element of the page. -/
  | element (tag : String) (attributes : List Attribute) (children : List Node) (site : Site)
  /-- A usage of a component. -/
  | component (name : String) (attributes : List Attribute) (children : List Node) (site : Site)
  /-- Plain text. -/
  | text (value : String) (site : Site)
  /-- The value of an expression, shown as text. -/
  | expression (expression : Expression)
  /-- One of two branches, chosen by a condition. -/
  | conditional (id condition : String) (consequent alternate : List Node) (site : Site)
  /-- A branch shown while a condition holds. -/
  | optional (id condition : String) (branch : List Node) (site : Site)
  /-- A branch repeated for every item of a list; the site is that of the loop itself. -/
  | loop (id source : String) (binder : LoopBinder) (body : List Node) (site : Site)
  /-- The document type declaration. -/
  | doctype (name publicId systemId : String) (location : Location)
  deriving Repr, Inhabited

namespace Attribute

/-- The id of the expression that gives the value. -/
def id? (attr : Attribute) : Option String :=
  match attr.value with
  | .fixed _ => none
  | .dynamic e => some e.id

/-- The ids of a list of attributes, in order. -/
def ids (attributes : List Attribute) : List String := attributes.filterMap id?

/-- The first attribute with the given name. -/
def find? (attributes : List Attribute) (name : String) : Option Attribute :=
  attributes.find? (·.name == name)

/-- The fixed value of the first attribute with the given name. -/
def fixed? (attributes : List Attribute) (name : String) : Option String :=
  match find? attributes name with
  | some { value := .fixed text, .. } => some text
  | _ => none

end Attribute

namespace Node

/-- Where a node starts. -/
def location : Node → Location
  | element _ _ _ site | component _ _ _ site | text _ site | conditional _ _ _ _ site
  | optional _ _ _ site | loop _ _ _ _ site => site.location
  | expression e => e.location
  | doctype _ _ _ location => location

/-- The child lists of a node in document order. -/
def childLists : Node → List (List Node)
  | element _ _ children _ | component _ _ children _ => [children]
  | conditional _ _ consequent alternate _ => [consequent, alternate]
  | optional _ _ branch _ => [branch]
  | loop _ _ _ body _ => [body]
  | text .. | expression .. | doctype .. => []

/-- The node is text without any visible character. -/
def isBlankText : Node → Bool
  | text value _ => Text.allBlank value.toList
  | _ => false

mutual

/-- The ids of a node and of everything below it: its own, then those of its attributes, then
those of its children. -/
def ids : Node → List String
  | element _ attributes children _ | component _ attributes children _ =>
    Attribute.ids attributes ++ idsOfList children
  | text .. | doctype .. => []
  | expression e => [e.id]
  | conditional id _ consequent alternate _ => id :: (idsOfList consequent ++ idsOfList alternate)
  | optional id _ branch _ => id :: idsOfList branch
  | loop id _ _ body _ => id :: idsOfList body

/-- The ids of a list of nodes, in order. -/
def idsOfList : List Node → List String
  | [] => []
  | node :: rest => ids node ++ idsOfList rest

end

end Node
end ReactiveTemplate
