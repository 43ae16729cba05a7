import ReactiveTemplate.Markup.Tag
import ReactiveTemplate.Text.Letter
import ReactiveTemplate.Tree.Node

/-!
# The written page

A tree is written out as markup in which every dynamic site has a marker, and as a list of bindings
that say what belongs to the markers.
-/

namespace ReactiveTemplate
namespace Page

/-- The kinds of dynamic sites. -/
inductive BindingKind where
  /-- An expression shown as text. -/
  | text
  /-- An attribute. -/
  | attr
  /-- A loop. -/
  | loop
  /-- A choice between two branches. -/
  | conditional
  /-- A branch that may be absent. -/
  | optional
  deriving DecidableEq, Repr

/-- What a loop repeats, and the names it binds. -/
structure LoopBody where
  /-- The names. -/
  binder : LoopBinder
  /-- Markup of the body. -/
  html : String
  deriving DecidableEq, Repr

/-- What belongs to a marker in the markup. -/
structure Binding where
  /-- Id in the marker. -/
  id : String
  /-- Kind of the site. -/
  kind : BindingKind
  /-- Name of the attribute, if it is one. -/
  target : Option String := none
  /-- Code that gives the value. -/
  expression : String
  /-- Where the site stands and what it sees. -/
  site : Site
  /-- What a loop repeats. -/
  body : Option LoopBody := none
  deriving DecidableEq, Repr

/-! ## Escaping -/

/-- Text that stands for itself between tags. -/
def escapeText (text : List Char) : List Char :=
  text.flatMap fun c =>
    if c = '&' then "&amp;".toList
    else if c = '<' then "&lt;".toList
    else if c = '>' then "&gt;".toList
    else [c]

/-- Text that stands for itself inside double quotes. -/
def escapeValue (text : List Char) : List Char :=
  text.flatMap fun c =>
    if c = '&' then "&amp;".toList else if c = '"' then "&quot;".toList else [c]

/-! ## Attributes -/

/-- The event that an attribute handles: its name is that of the event after "on" or "on:". -/
def eventName? (name : String) : Option (List Char) :=
  let rest? := match name.toList with
    | 'o' :: 'n' :: ':' :: rest => some rest
    | 'o' :: 'n' :: rest => some rest
    | _ => none
  match rest? with
  | some rest =>
    if !rest.isEmpty && rest.all Char.isAlpha then some (rest.map Char.toLower) else none
  | none => none

/-- The code is a name alone. -/
def isName (code : List Char) : Bool :=
  match code with
  | first :: rest =>
    (Text.isAlphabetic first || first == '_' || first == '$') &&
      rest.all fun c => Text.isAlphanumeric c || c == '_' || c == '$'
  | [] => false

/-- How an attribute is written. -/
inductive AttributeForm where
  /-- As a name alone. -/
  | bare (name : List Char)
  /-- As a name with a value. -/
  | valued (name value : List Char)
  /-- As a marker for an expression that gives the value of the target. -/
  | marker (target : List Char) (expression : Expression)

/-- How an attribute is written.  The handler of an event is named in the markup if it has a name. -/
def formOf (attr : Attribute) : AttributeForm :=
  let event? := eventName? attr.name
  match attr.value, event? with
  | .fixed value, some event => .valued ("data-zen-".toList ++ event) (Text.trim value.toList)
  | .fixed value, none =>
    if value.isEmpty then .bare attr.name.toList else .valued attr.name.toList value.toList
  | .dynamic e, some event =>
    if isName e.code.toList then .valued ("data-zen-".toList ++ event) e.code.toList
    else .marker ("on".toList ++ event) e
  | .dynamic e, none => .marker attr.name.toList e

/-- A name with a value in quotes. -/
def assignment (name value : List Char) : List Char :=
  ' ' :: name ++ "=\"".toList ++ escapeValue value ++ ['"']

/-- The markup of an attribute. -/
def attributeHtml (attr : Attribute) : List Char :=
  match formOf attr with
  | .bare name => ' ' :: name
  | .valued name value => assignment name value
  | .marker target e => assignment ("data-zen-attr-".toList ++ target) e.id.toList

/-- The binding of an attribute. -/
def attributeBinding? (attr : Attribute) : Option Binding :=
  match formOf attr with
  | .marker target e =>
    some
      { id := e.id
        kind := .attr
        target := some (String.ofList target)
        expression := e.code
        site := ⟨e.location, e.scope⟩ }
  | _ => none

/-! ## Nodes -/

/-- Text in these elements is no markup. -/
def holdsRawText (tag : String) : Bool := tag == "script" || tag == "style"

/-- The attribute that shows the children of an element in its place. -/
def shown : List Char := " style=\"display: contents;\"".toList

/-- The attribute that hides an element. -/
def hidden : List Char := " style=\"display: none;\"".toList

/-- An opening tag. -/
def openTag (tag attributes : List Char) : List Char := '<' :: tag ++ attributes ++ ['>']

/-- A closing tag. -/
def closeTag (tag : List Char) : List Char := "</".toList ++ tag ++ ['>']

/-- An element with the given content. -/
def wrap (tag : String) (attributes content : List Char) : List Char :=
  openTag tag.toList attributes ++ content ++ closeTag tag.toList

/-- One of the two branches of a choice. -/
def branchAttributes (id : String) (name : String) (style : List Char) : List Char :=
  assignment "data-zen-cond".toList id.toList ++
    assignment "data-zen-branch".toList name.toList ++ style

/-- The attributes of the element that holds the body of a loop. -/
def loopAttributes (id : String) (binder : LoopBinder) : List Char :=
  assignment "data-zen-loop".toList id.toList ++
    assignment "data-zen-item".toList binder.item.toList ++
    match binder.index with
    | some index => assignment "data-zen-index".toList index.toList
    | none => []

mutual

/-- The markup of a node. -/
def nodeHtml : Node → List Char
  | .doctype name _ _ _ => "<!DOCTYPE ".toList ++ (if name.isEmpty then "html" else name).toList ++ ['>']
  | .text value _ => escapeText value.toList
  | .element tag attributes children _ =>
    let attributes := attributes.flatMap attributeHtml
    if Markup.isVoidElement tag then openTag tag.toList attributes
    else if holdsRawText tag then wrap tag attributes (rawHtml children)
    else wrap tag attributes (nodesHtml children)
  | .expression e => wrap "span" (assignment "data-zen-text".toList e.id.toList ++ shown) []
  | .conditional id _ consequent alternate _ =>
    wrap "div" (branchAttributes id "true" shown) (nodesHtml consequent) ++
      wrap "div" (branchAttributes id "false" hidden) (nodesHtml alternate)
  | .optional id _ branch _ =>
    wrap "div" (assignment "data-zen-opt".toList id.toList ++ shown) (nodesHtml branch)
  | .loop id _ binder body _ => wrap "template" (loopAttributes id binder) (nodesHtml body)
  | .component .. => []

/-- The markup of a list of nodes. -/
def nodesHtml : List Node → List Char
  | [] => []
  | node :: rest => nodeHtml node ++ nodesHtml rest

/-- The markup of a list of nodes where text is no markup. -/
def rawHtml : List Node → List Char
  | [] => []
  | .text value _ :: rest => value.toList ++ rawHtml rest
  | node :: rest => nodeHtml node ++ rawHtml rest

end

mutual

/-- The bindings of a node, in the order of writing: those of the attributes before those of the
children, and those of a fragment after those of its branches. -/
def nodeBindings : Node → List Binding
  | .doctype .. | .text .. | .component .. => []
  | .element tag attributes children _ =>
    attributes.filterMap attributeBinding? ++
      if Markup.isVoidElement tag then [] else nodesBindings children
  | .expression e =>
    [{ id := e.id, kind := .text, expression := e.code, site := ⟨e.location, e.scope⟩ }]
  | .conditional id condition consequent alternate site =>
    nodesBindings consequent ++ nodesBindings alternate ++
      [{ id, kind := .conditional, expression := condition, site }]
  | .optional id condition branch site =>
    nodesBindings branch ++ [{ id, kind := .optional, expression := condition, site }]
  | .loop id source binder body site =>
    nodesBindings body ++
      [{ id
         kind := .loop
         expression := source
         site
         body := some ⟨binder, String.ofList (nodesHtml body)⟩ }]

/-- The bindings of a list of nodes, in the order of writing. -/
def nodesBindings : List Node → List Binding
  | [] => []
  | node :: rest => nodeBindings node ++ nodesBindings rest

end

/-- A written page. -/
structure Output where
  /-- The markup. -/
  html : String
  /-- The bindings, by location. -/
  bindings : List Binding
  deriving DecidableEq, Repr

/-- Write out a tree.  Bindings at one location stay in the order of writing. -/
def emit (nodes : List Node) : Output :=
  { html := String.ofList (nodesHtml nodes)
    bindings :=
      (nodesBindings nodes).mergeSort fun a b => !b.site.location.before a.site.location }

end Page
end ReactiveTemplate
