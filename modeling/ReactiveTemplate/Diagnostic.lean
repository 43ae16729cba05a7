import ReactiveTemplate.Source.Location

/-!
# Diagnostics

A compilation fails with a diagnostic: the rule that was broken, a message, the place, and possibly
the offending text and hints.  Each rule has a code, belongs to a phase of the compilation, and
stands for a guarantee.  The causes of failure are the constructors of `Fault`; their wording is in
one place.  A crash of the lexer ends a compilation too, but belongs to no rule.
-/

namespace ReactiveTemplate

/-- The phase of the compilation that rejects a file. -/
inductive Phase where
  /-- Reading the template. -/
  | parse
  /-- Turning markup inside expressions into fragments. -/
  | lowering
  /-- Replacing component usages by their definitions. -/
  | resolution
  /-- The final check of the tree. -/
  | invariant
  deriving DecidableEq, Repr

/-- The rules a template has to obey. -/
inductive Rule where
  /-- Loop variables stay in reach. -/
  | scopeKept
  /-- Attributes of a usage land on a root element. -/
  | attributesForwarded
  /-- No component usage is left. -/
  | componentsResolved
  /-- Template elements do not select slots. -/
  | noTemplateSlot
  /-- The slot attribute is not used. -/
  | noSlotAttribute
  /-- A slot marker stands directly in the usage it belongs to. -/
  | markerInParent
  /-- Markup in expressions can be enumerated. -/
  | enumerableMarkup
  /-- Every binding is registered once. -/
  | registeredOnce
  /-- The source is well-formed. -/
  | wellFormed
  /-- Every component has a definition. -/
  | componentDefined
  /-- A slot marker selects a declared slot. -/
  | slotDeclared
  /-- Definitions do not contain themselves. -/
  | noRecursion
  /-- A code that stands for no rule. -/
  | unknown (code : String)
  deriving DecidableEq, Repr

namespace Rule

/-- What a crash is filed under: it stands for no rule. -/
def crash : Rule := unknown "panic"

/-- The code of a rule. -/
def code : Rule → String
  | scopeKept => "INV001"
  | attributesForwarded => "INV002"
  | componentsResolved => "INV003"
  | noTemplateSlot => "INV005"
  | noSlotAttribute => "INV006"
  | markerInParent => "INV007"
  | enumerableMarkup => "INV008"
  | registeredOnce => "INV009"
  | wellFormed => "Z-ERR-PARSE"
  | componentDefined => "Z-ERR-UNDEFINED-COMPONENT"
  | slotDeclared => "Z-ERR-UNKNOWN-SLOT"
  | noRecursion => "Z-ERR-RECURSIVE-COMPONENT"
  | unknown code => code

/-- The rules that have a meaning. -/
def known : List Rule :=
  [scopeKept, attributesForwarded, componentsResolved, noTemplateSlot, noSlotAttribute,
    markerInParent, enumerableMarkup, registeredOnce, wellFormed, componentDefined, slotDeclared,
    noRecursion]

/-- The rule with a given code. -/
def ofCode (code : String) : Rule :=
  (known.find? (·.code == code)).getD (unknown code)

/-- What the compiler guarantees by enforcing a rule. -/
def guarantee : Rule → String
  | scopeKept => "Slot content retains its original reactive scope."
  | attributesForwarded =>
    "Attributes passed to components are forwarded to the semantic root element."
  | componentsResolved => "All components are resolved at compile time."
  | noTemplateSlot => "Named slots use compound component pattern, not <template> tags."
  | noSlotAttribute => "Named slots use compound component pattern, not slot=\"\" attributes."
  | markerInParent => "Compound slot markers must be direct children of their parent component."
  | enumerableMarkup => "JSX expressions must have statically enumerable output."
  | registeredOnce => "All bindings must reference an ID that exists in the registry."
  | wellFormed => "Templates are well-formed before any analysis runs."
  | componentDefined => "Every component usage refers to a discovered definition."
  | slotDeclared => "Compound slot markers target a slot the component declares."
  | noRecursion => "Component inlining always terminates."
  | unknown _ => "Unknown invariant."

/-- The phase that enforces a rule. -/
def phase : Rule → Phase
  | wellFormed => .parse
  | enumerableMarkup => .lowering
  | componentDefined | slotDeclared | noRecursion | markerInParent | attributesForwarded =>
    .resolution
  | scopeKept | componentsResolved | noTemplateSlot | noSlotAttribute | registeredOnce
  | unknown _ => .invariant

end Rule

/-- A report of a broken rule. -/
structure Diagnostic where
  /-- The broken rule. -/
  rule : Rule
  /-- What went wrong. -/
  message : String
  /-- The file it went wrong in. -/
  file : String
  /-- The place in the file. -/
  location : Location
  /-- The offending text. -/
  context : Option String := none
  /-- Advice on how to mend it. -/
  hints : List String := []
  deriving DecidableEq, Repr

/-- The report as one line: place, code and message. -/
def Diagnostic.display (d : Diagnostic) : String :=
  d.file ++ ":" ++ toString d.location.line ++ ":" ++ toString d.location.column ++ ": [" ++
    d.rule.code ++ "] " ++ d.message

/-- The causes of failure. -/
inductive Fault where
  /-- Code in braces has no closing brace. -/
  | openExpression
  /-- A tag has no closing angle bracket. -/
  | openTag (name : String)
  /-- A quoted attribute value has no closing quote. -/
  | openAttributeValue
  /-- A script or style block has no closing tag. -/
  | openBlock (name : String)
  /-- A markup element inside an expression does not end. -/
  | openMarkup (text : String)
  /-- Code in braces inside expression markup has no closing brace. -/
  | openMarkupExpression
  /-- The braces of an attribute value in expression markup do not close. -/
  | openMarkupValue (name : String)
  /-- A file is not readable as text. -/
  | unreadableFile (reason : String)
  /-- An attribute value contains markup. -/
  | markupAttribute (name code : String)
  /-- Markup is mixed with code in a way that cannot be enumerated. -/
  | mixedMarkup (code : String)
  /-- A slot marker stands outside the component it belongs to. -/
  | orphanMarker (name parent : String)
  /-- A component has no definition. -/
  | undefinedComponent (name : String)
  /-- A definition contains itself. -/
  | recursiveComponent (name : String) (chain : List String)
  /-- A slot marker selects a slot that is not declared. -/
  | undeclaredSlot (marker slot component : String) (declared : List String)
  /-- A forwarded attribute finds no root element. -/
  | noForwardRoot (name component : String)
  /-- A component usage is left in the final tree. -/
  | unresolvedComponent (name : String)
  /-- A loop variable is out of reach. -/
  | scopeLost (name : String)
  /-- A binding refers to an id that is not registered. -/
  | unregistered (id : String)
  /-- Two bindings share an id. -/
  | boundTwice (id : String)
  /-- An expression of the final tree still contains markup. -/
  | markupSurvived (kind code : String)
  /-- An element has a slot attribute. -/
  | slotAttribute (tag : String)
  /-- A template element selects a slot. -/
  | templateSlot
  /-- The lexer crashes in a part of the code, and nothing is reported. -/
  | crash (code : String)
  deriving DecidableEq, Repr

namespace Fault

/-- The rule that a fault breaks. -/
def rule : Fault → Rule
  | openExpression | openTag _ | openAttributeValue | openBlock _ | openMarkup _
  | openMarkupExpression | openMarkupValue _
  | unreadableFile _ => .wellFormed
  | markupAttribute .. | mixedMarkup _ | markupSurvived .. => .enumerableMarkup
  | orphanMarker .. => .markerInParent
  | undefinedComponent _ => .componentDefined
  | recursiveComponent .. => .noRecursion
  | undeclaredSlot .. => .slotDeclared
  | noForwardRoot .. => .attributesForwarded
  | unresolvedComponent _ => .componentsResolved
  | scopeLost _ => .scopeKept
  | unregistered _ | boundTwice _ => .registeredOnce
  | slotAttribute _ => .noSlotAttribute
  | templateSlot => .noTemplateSlot
  | crash _ => .crash

/-- The wording of a fault. -/
def message : Fault → String
  | openExpression => "Unterminated expression: missing closing '\x7d'."
  | openTag name => "Unterminated <" ++ name ++ "> tag."
  | openAttributeValue => "Unterminated attribute value."
  | openBlock name => "Unclosed <" ++ name ++ "> block."
  | openMarkup _ => "Unterminated JSX element."
  | openMarkupExpression => "Unterminated '\x7b' in JSX children."
  | openMarkupValue name => "Unterminated value for attribute '" ++ name ++ "'."
  | unreadableFile reason => "Failed to read file: " ++ reason
  | markupAttribute name _ => "Attribute '" ++ name ++ "' evaluates to markup."
  | mixedMarkup _ =>
    "Expression mixes markup with logic that cannot be enumerated at compile time."
  | orphanMarker name parent =>
    "<" ++ name ++ "> can only be used as a direct child of <" ++ parent ++ ">."
  | undefinedComponent name => "Component <" ++ name ++ "> is not defined."
  | recursiveComponent name _ => "Component <" ++ name ++ "> includes itself."
  | undeclaredSlot marker slot component _ =>
    "<" ++ marker ++ "> targets slot '" ++ slot ++ "' which <" ++ component ++
      "> does not declare."
  | noForwardRoot name component =>
    "Attribute '" ++ name ++ "' passed to <" ++ component ++
      "> has no root element to land on."
  | unresolvedComponent name => "Unresolved component: <" ++ name ++ ">."
  | scopeLost name => "Loop variable '" ++ name ++ "' is not in scope for this node."
  | unregistered id => "Expression '" ++ id ++ "' is not in the expression registry."
  | boundTwice id => "Expression '" ++ id ++ "' is bound more than once."
  | markupSurvived kind _ => "Expression classified as " ++ kind ++ " survived fragment lowering."
  | slotAttribute _ => "slot=\"\" attributes are forbidden."
  | templateSlot => "<template> tags cannot target slots."
  | crash _ => "attempt to subtract with overflow"

/-- The text that shows a fault. -/
def context : Fault → Option String
  | openMarkup text => some text
  | markupAttribute _ code | mixedMarkup code | markupSurvived _ code => some code
  | recursiveComponent _ chain => some (" -> ".intercalate chain)
  | slotAttribute tag => some ("<" ++ tag ++ " slot>")
  | templateSlot => some "<template>"
  | _ => none

/-- The advice that goes with a fault. -/
def hints : Fault → List String
  | markupAttribute .. => ["Pass markup as children instead of as an attribute value."]
  | mixedMarkup _ =>
    ["Use a ternary, `cond && <markup>`, or `items.map(item => <markup>)`."]
  | undefinedComponent name => ["Create " ++ name ++ ".zen in the components directory."]
  | undeclaredSlot _ _ _ declared => ["Declared slots: " ++ ", ".intercalate declared]
  | noForwardRoot .. => ["Wrap the component template in a single element."]
  | scopeLost _ =>
    ["This is a compiler bug: reactive scope was narrowed during slot projection."]
  | boundTwice _ => ["Each component instance must receive its own expression ids."]
  | slotAttribute _ =>
    ["Use a compound component such as <Card.Header> to target a named slot."]
  | templateSlot => ["Named slots should use the compound component pattern."]
  | _ => []

/-- The report of a fault at a place. -/
def report (fault : Fault) (file : String) (location : Location) : Diagnostic :=
  { rule := fault.rule
    message := fault.message
    file
    location
    context := fault.context
    hints := fault.hints }

end Fault

/-- A fault and the place of it. -/
abbrev Misstep := Fault × Location

/-- The result of a phase that can fail, as a report for the given file. -/
def reportIn {α : Type} (file : String) : Except Misstep α → Except Diagnostic α
  | .ok a => .ok a
  | .error (fault, location) => .error (fault.report file location)

end ReactiveTemplate
