import ReactiveTemplate.Code.Lexer
import ReactiveTemplate.Diagnostic
import ReactiveTemplate.Markup.Decode
import ReactiveTemplate.Text.Offset
import ReactiveTemplate.Tree.Node

/-!
# Markup inside code

Code may contain elements: the branches of a choice, the body of a loop.  They are read here into
nodes.  An element ends where the lexer of code says that it ends; its children stand between its
tag and the last closing tag before that end.
-/

namespace ReactiveTemplate
namespace Fragment

/-! ## Attributes -/

/-- The first character of an attribute name. -/
def startsName (c : Char) : Bool := c.isAlpha || c == '_' || c == '@' || c == ':'

/-- A later character of an attribute name. -/
def continuesName (c : Char) : Bool :=
  c.isAlphanum || c == '_' || c == '.' || c == ':' || c == '-'

/-- The name of an attribute in the document, where code spells some names differently. -/
def attributeName (name : List Char) : String :=
  match name with
  | 'o' :: 'n' :: third :: _ =>
    if third.isUpper then String.ofList (name.map Char.toLower) else String.ofList name
  | _ =>
    let written := String.ofList name
    if written = "className" then "class"
    else if written = "htmlFor" then "for"
    else written

/-- A value that has been read: its text or code, and how many characters belong to it. -/
structure ReadValue where
  /-- The value. -/
  value : AttributeValue
  /-- How many characters belong to it. -/
  length : Nat
  /-- The registry afterwards. -/
  registry : Registry

/-- Register code in braces: `raw` stands between the braces, at the given location. -/
def registerCode (scope : Option Scope) (registry : Registry) (location : Location)
    (raw : List Char) : Expression × Registry :=
  let code := String.ofList (Text.trim raw)
  let location := location.advance (raw.take (Text.blankLead raw))
  let (id, registry) := registry.register "expr" code location scope
  (⟨id, code, location, scope⟩, registry)

/-- Read a value without quotes.  A slash right before the end of the tag is not part of it. -/
def bareValue (text : List Char) : List Char :=
  let value := text.takeWhile fun c => !Text.isBlank c && c != '>'
  if value.getLast? = some '/' ∧ (text.drop value.length).head? = some '>' then value.dropLast
  else value

/-- Read the value after an equals sign and white space. -/
def readValue (scope : Option Scope) (registry : Registry) (name : String)
    (nameLocation location : Location) (text : List Char) : Except Misstep ReadValue :=
  match text with
  | '{' :: rest =>
    match Code.closingFrom .afterOpening rest with
    | none => .error (.openMarkupValue name, nameLocation)
    | some length =>
      let (expression, registry) :=
        registerCode scope registry (location.next '{') (rest.take length)
      .ok ⟨.dynamic expression, length + 2, registry⟩
  | [] => .ok ⟨.fixed "", 0, registry⟩
  | c :: rest =>
    if c = '"' ∨ c = '\x27' then
      let value := rest.takeWhile (· != c)
      .ok ⟨.fixed (String.ofList (Markup.decodeValue value)), value.length + 2, registry⟩
    else if c = '>' then .ok ⟨.fixed "", 0, registry⟩
    else
      let value := bareValue text
      .ok ⟨.fixed (String.ofList (Markup.decodeValue value)), value.length, registry⟩

/-- Read what follows the name of an attribute. -/
def readAssignment (scope : Option Scope) (registry : Registry) (name : String)
    (nameLocation location : Location) (text : List Char) : Except Misstep ReadValue :=
  let lead := text.takeWhile Code.isAsciiSpace
  match text.drop lead.length with
  | '=' :: rest =>
    let gap := rest.takeWhile Code.isAsciiSpace
    let before := lead ++ '=' :: gap
    match readValue scope registry name nameLocation (location.advance before)
        (rest.drop gap.length) with
    | .ok read => .ok { read with length := before.length + read.length }
    | .error misstep => .error misstep
  | _ => .ok ⟨.fixed "", 0, registry⟩

/-- The rest of an opening tag. -/
structure Header where
  /-- The attributes. -/
  attributes : List Attribute := []
  /-- The tag ends with a slash. -/
  selfClosing : Bool := false
  /-- How many characters belong to it. -/
  length : Nat := 0
  /-- The registry afterwards. -/
  registry : Registry

/-- The header with an attribute before the others. -/
def Header.cons (attr : Attribute) (header : Header) : Header :=
  { header with attributes := attr :: header.attributes }

/-- The header, one character later. -/
def Header.later (header : Header) : Header := { header with length := header.length + 1 }

/-- Read the rest of an opening tag after its name; `skip` characters belong to a part that has been
read.  Braces between attributes are passed over: they spread values whose names are not known. -/
def readHeader (scope : Option Scope) (registry : Registry) (location : Location) :
    Nat → List Char → Except Misstep Header
  | _, [] => .ok { registry }
  | skip + 1, c :: rest =>
    match readHeader scope registry (location.next c) skip rest with
    | .ok header => .ok header.later
    | .error misstep => .error misstep
  | 0, c :: rest =>
    if c = '>' then .ok { length := 1, registry }
    else if c = '/' ∧ rest.head? = some '>' then
      .ok { selfClosing := true, length := 2, registry }
    else if startsName c then
      let more := rest.takeWhile continuesName
      let name := attributeName (c :: more)
      match readAssignment scope registry name location (location.advance (c :: more))
          (rest.drop more.length) with
      | .error misstep => .error misstep
      | .ok read =>
        match readHeader scope read.registry (location.next c) (more.length + read.length) rest with
        | .ok header =>
          .ok (header.later.cons { name, value := read.value, site := ⟨location, scope⟩ })
        | .error misstep => .error misstep
    else
      let skip :=
        if c = '{' then
          ((Code.closingFrom .afterOpening rest).map (· + 1)).getD rest.length
        else 0
      match readHeader scope registry (location.next c) skip rest with
      | .ok header => .ok header.later
      | .error misstep => .error misstep

/-! ## Children -/

/-- A tag or the opening of a fragment starts here. -/
def startsElement : List Char → Bool
  | '<' :: c :: _ => c.isAlpha || c == '>'
  | _ => false

/-- The characters before the first element and the first brace. -/
def plainLead : List Char → List Char
  | [] => []
  | c :: rest => if c = '{' || startsElement (c :: rest) then [] else c :: plainLead rest

/-- What is left of a text after its plain lead. -/
def afterLead : List Char → List Char
  | [] => []
  | c :: rest => if c = '{' || startsElement (c :: rest) then c :: rest else afterLead rest

theorem length_afterLead_le (text : List Char) : (afterLead text).length ≤ text.length := by
  induction text with
  | nil => simp [afterLead]
  | cons c rest ih =>
    rw [afterLead]
    split
    · exact Nat.le_refl _
    · simp only [List.length_cons]
      omega

/-- The node of a plain text, if it shows anything.  Text over several lines loses the blank
characters at its ends. -/
def textNodes (scope : Option Scope) (location : Location) (raw : List Char) : List Node :=
  let spread := raw.contains '\n'
  let value := if spread then Text.trim raw else raw
  let lead := if spread then raw.take (Text.blankLead raw) else []
  if value.isEmpty then []
  else [.text (String.ofList (Markup.decodeText value)) ⟨location.advance lead, scope⟩]

/-- Code that is only one comment. -/
def isComment (code : List Char) : Bool :=
  Text.startsWith code "/*" && Text.endsWith code "*/" &&
    !Text.contains (Text.slice code 2 (code.length - 2)) "*/"

/-- The text has a closing tag in it. -/
def hasClosing (text : List Char) : Bool := Text.contains text "</"

/-- Where the children of an element stand: `start` is the end of its tag.  An element without a
closing tag of its own has children only if there is no closing tag before it either. -/
def childrenRange (closed : Bool) (element : List Char) (start : Nat) : Nat × Nat :=
  match Text.findLast? "</".toList element with
  | some close => (min start close, close)
  | none => if closed then (0, 0) else (start, element.length)

/-- A tag name at the start of a text. -/
def tagName : List Char → List Char
  | first :: rest => if first.isAlpha then first :: rest.takeWhile Code.isTagNamePart else []
  | [] => []

/-- An element, or a usage of a component. -/
def elementNode (name : String) (attributes : List Attribute) (children : List Node)
    (site : Site) : Node :=
  if Markup.isComponentTag name then .component name attributes children site
  else .element name attributes children site

/-- Read the nodes of a text; `closed` tells whether there is a closing tag before it. -/
def readChildren (scope : Option Scope) (closed : Bool) (registry : Registry) (location : Location)
    (text : List Char) : Except Misstep (List Node × Registry) :=
  let lead := plainLead text
  let plain := textNodes scope location lead
  let start := location.advance lead
  let closed := closed || hasClosing lead
  have _shorter := length_afterLead_le text
  match _after : afterLead text with
  | [] => .ok (plain, registry)
  | '{' :: rest =>
    match Code.closingFrom .afterOpening rest with
    | none => .error (.openMarkupExpression, start)
    | some length =>
      let raw := rest.take length
      let code := Text.trim raw
      let (own, registry) :=
        if code.isEmpty || isComment code then ([], registry)
        else
          let (expression, registry) := registerCode scope registry (start.next '{') raw
          ([Node.expression expression], registry)
      match readChildren scope (closed || hasClosing raw) registry
          (start.advance ('{' :: rest.take (length + 1))) (rest.drop (length + 1)) with
      | .ok (nodes, registry) => .ok (plain ++ own ++ nodes, registry)
      | .error misstep => .error misstep
  | c :: rest =>
    match Code.markupEndFrom {} (c :: rest) with
    | none => .error (.openMarkup (String.ofList (c :: rest)), start)
    | some stop =>
      let inside := rest.take (stop - 1)
      let element := c :: inside
      let name := tagName inside
      let header :=
        if name.isEmpty then .ok { length := 1, registry }
        else
          readHeader scope registry (start.advance (c :: name)) 0 (inside.drop name.length)
      match header with
      | .error misstep => .error misstep
      | .ok header =>
        let tag := String.ofList name
        let opened := 1 + name.length + header.length
        let (first, last) :=
          if header.selfClosing || Markup.isVoidElement tag then (0, 0)
          else childrenRange closed element opened
        match readChildren scope (closed || hasClosing (element.take first)) header.registry
            (start.advance (element.take first)) (Text.slice inside (first - 1) (last - 1)) with
        | .error misstep => .error misstep
        | .ok (children, registry) =>
          let own :=
            if name.isEmpty then children
            else [elementNode tag header.attributes children ⟨start, scope⟩]
          match readChildren scope (closed || hasClosing element) registry
              (start.advance element) (rest.drop (stop - 1)) with
          | .ok (nodes, registry) => .ok (plain ++ own ++ nodes, registry)
          | .error misstep => .error misstep
termination_by text.length
decreasing_by
  all_goals
    rw [_after] at _shorter
    simp only [Text.slice, List.length_drop, List.length_take, List.length_cons] at *
    omega

end Fragment
end ReactiveTemplate
