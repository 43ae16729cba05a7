import ReactiveTemplate.Markup.Rules
import ReactiveTemplate.Markup.Tag
import ReactiveTemplate.Template.Draft
import ReactiveTemplate.Tree.Node

/-!
# Templates

A template is a list of nodes with its script and its styles.  It is read from the document that
its draft describes: placeholders turn back into expressions, and every expression is registered in
the order of the document.
-/

namespace ReactiveTemplate

/-- A template. -/
structure Template where
  /-- The nodes of the page. -/
  nodes : List Node
  /-- The script of the page. -/
  script : Option Template.Script
  /-- The styles of the page, in order. -/
  styles : List String
  deriving Repr, Inhabited

namespace Template

/-- Write text so that it stands for itself inside a template literal. -/
def escapeLiteral : List Char → List Char
  | [] => []
  | '\\' :: rest => '\\' :: '\\' :: escapeLiteral rest
  | '\x60' :: rest => '\\' :: '\x60' :: escapeLiteral rest
  | '$' :: '{' :: rest => '\\' :: '$' :: '{' :: escapeLiteral rest
  | c :: rest => c :: escapeLiteral rest

/-- The code behind the digits of a placeholder. -/
def codeFor? (captured : List Captured) (digits : List Char) : Option Captured :=
  match Text.digits? digits with
  | some number => captured[number]?
  | none => none

/-- A piece of an attribute value as a part of a template literal. -/
def literalPart (captured : List Captured) : Piece → List Char
  | .plain text => escapeLiteral text
  | .placeholder digits =>
    match codeFor? captured digits with
    | some found => '$' :: '{' :: found.code.toList ++ ['}']
    | none => []

/-- A value that mixes text and code, as a template literal. -/
def literal (captured : List Captured) (pieces : List Piece) : String :=
  String.ofList ('\x60' :: pieces.flatMap (literalPart captured) ++ ['\x60'])

/-- The code of a piece. -/
def Piece.code? (captured : List Captured) : Piece → Option Captured
  | .plain _ => none
  | .placeholder digits => codeFor? captured digits

/-- The piece is a placeholder. -/
def Piece.isPlaceholder : Piece → Bool
  | .plain _ => false
  | .placeholder _ => true

/-- The code that gives the value of an attribute, and where it starts; none for fixed text. -/
def dynamicValue? (captured : List Captured) (raw : String) (fallback : Location) :
    Option Captured :=
  let pieces := valuePieces raw
  if !pieces.any Piece.isPlaceholder then none
  else
    let mixed : Captured :=
      ⟨literal captured pieces,
        ((pieces.findSome? (Piece.code? captured)).map (·.location)).getD fallback⟩
    match pieces with
    | [piece] => some ((piece.code? captured).getD mixed)
    | _ => some mixed

/-- Read an attribute. -/
def readAttribute (captured : List Captured) (registry : Registry) (element : Location)
    (name raw : String) : Attribute × Registry :=
  match dynamicValue? captured raw element with
  | none => ({ name, value := .fixed raw, site := ⟨element, none⟩ }, registry)
  | some ⟨code, location⟩ =>
    let (id, registry) := registry.register "expr" code location none
    ({ name, value := .dynamic ⟨id, code, location, none⟩, site := ⟨location, none⟩ }, registry)

/-- Read the attributes of an element; the private ones are left out. -/
def readAttributes (captured : List Captured) (registry : Registry) (element : Location) :
    List (String × String) → List Attribute × Registry
  | [] => ([], registry)
  | (name, raw) :: rest =>
    if name = nameAttribute ∨ name = locationAttribute then
      readAttributes captured registry element rest
    else
      let (attr, registry) := readAttribute captured registry element name raw
      let (attrs, registry) := readAttributes captured registry element rest
      (attr :: attrs, registry)

/-- The expression with the given number. -/
def readExpression (captured : List Captured) (registry : Registry) (number? : Option Nat) :
    List Node × Registry :=
  match number?.bind (captured[·]?) with
  | some ⟨code, location⟩ =>
    let (id, registry) := registry.register "expr" code location none
    ([.expression ⟨id, code, location, none⟩], registry)
  | none => ([], registry)

/-- Text that only lays out the source: blank, with a line end in it. -/
def isLayout (text : List Char) : Bool :=
  text.isEmpty || (Text.allBlank text && text.contains '\n')

/-- Read the pieces of a text. -/
def readPieces (captured : List Captured) (registry : Registry) (location : Location) :
    List Piece → List Node × Registry
  | [] => ([], registry)
  | .plain text :: rest =>
    let (nodes, registry) := readPieces captured registry location rest
    (if isLayout text then nodes else .text (String.ofList text) ⟨location, none⟩ :: nodes,
      registry)
  | .placeholder digits :: rest =>
    let (first, registry) := readExpression captured registry (Text.digits? digits)
    let (nodes, registry) := readPieces captured registry location rest
    (first ++ nodes, registry)

/-- The name of an element: that of the component it stands for, if it carries one. -/
def elementName (name : String) (attributes : List (String × String)) : String :=
  ((attributes.find? (·.1 == nameAttribute)).map (·.2)).getD name

/-- The location an element carries, otherwise that of the element around it. -/
def elementLocation (around : Location) (attributes : List (String × String)) : Location :=
  ((attributes.find? (·.1 == locationAttribute)).bind fun entry => location? entry.2).getD around

/-- An element, or a usage of a component. -/
def elementNode (name : String) (attributes : List Attribute) (children : List Node)
    (location : Location) : Node :=
  if Markup.isComponentTag name then .component name attributes children ⟨location, none⟩
  else .element name attributes children ⟨location, none⟩

mutual

/-- Read a node of the document; `around` is the location of the element around it. -/
def readNode (captured : List Captured) (registry : Registry) (around : Location) :
    Markup.Dom → List Node × Registry
  | .doctype name publicId systemId => ([.doctype name publicId systemId {}], registry)
  | .comment _ => ([], registry)
  | .text text => readPieces captured registry around (textPieces text)
  | .element _ name attributes children =>
    let name := elementName name attributes
    let location := elementLocation around attributes
    match if name = "template" then attributes.find? (·.1 == numberAttribute) else none with
    | some (_, value) => readExpression captured registry (Text.natural? value.toList)
    | none =>
      let (attrs, registry) := readAttributes captured registry location attributes
      let (nodes, registry) := readNodes captured registry location children
      ([elementNode name attrs nodes location], registry)

/-- Read nodes of the document in order. -/
def readNodes (captured : List Captured) (registry : Registry) (around : Location) :
    List Markup.Dom → List Node × Registry
  | [] => ([], registry)
  | node :: rest =>
    let (first, registry) := readNode captured registry around node
    let (nodes, registry) := readNodes captured registry around rest
    (first ++ nodes, registry)

end

/-- The elements that every document has, whether its source mentions them or not. -/
def isWrapper (name : String) : Bool := ["html", "head", "body"].contains name

mutual

/-- What is inside the elements that every document has. -/
def contentOf : Markup.Dom → List Markup.Dom
  | .element vocabulary name attributes children =>
    if isWrapper name then contentOfAll children
    else [.element vocabulary name attributes children]
  | .text text => [.text text]
  | .doctype .. | .comment _ => []

/-- What is inside the elements that every document has, for a list of nodes. -/
def contentOfAll : List Markup.Dom → List Markup.Dom
  | [] => []
  | node :: rest => contentOf node ++ contentOfAll rest

end

/-- The source writes the root element itself. -/
def isFullDocument (source : List Char) : Bool := Text.contains (source.map Char.toLower) "<html"

/-- Read a template.  Every expression is registered. -/
def parse (source file : String) (registry : Registry) :
    Except Diagnostic (Template × Registry) :=
  match reportIn file (Draft.ofSource source.toList) with
  | .error report => .error report
  | .ok draft =>
    let document := Markup.document draft.markup
    let content := if isFullDocument source.toList then document else contentOfAll document
    let (nodes, registry) := readNodes draft.captured registry {} content
    .ok ({ nodes := nodes.filter (!·.isBlankText)
           script := mergeScripts draft.scripts
           styles := draft.styles }, registry)

end Template
end ReactiveTemplate
