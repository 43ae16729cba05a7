import ReactiveTemplate.Template.Parse
import ReactiveTemplate.Text.Case
import ReactiveTemplate.Text.Letter

/-!
# Component definitions

A definition is a template with a name.  It declares slots, by the slot elements in its markup and in
its code, and props, by the tag of its script and inside the script.
-/

namespace ReactiveTemplate

/-- The definition of a component. -/
structure Definition where
  /-- Name of the component. -/
  name : String
  /-- File it is written in. -/
  path : String
  /-- The template, with expressions as they were written. -/
  nodes : List Node
  /-- Names of its slots in lower case, each once, the default slot first. -/
  slots : List String
  /-- Names of its props. -/
  props : List String
  /-- Its styles. -/
  styles : List String
  /-- Its script. -/
  script : Option Template.Script
  deriving Repr, Inhabited

namespace Definition

/-- The slot for content that names no other slot. -/
def defaultSlot : String := "default"

/-- Add a name that is not there yet. -/
def addName (names : List String) (name : String) : List String :=
  if names.contains name then names else names ++ [name]

/-! ## Slots -/

/-- The name that an attribute gives to a slot, where the text starts with the attribute; with the
number of characters that belong to it. -/
def nameValue? (text : List Char) : Option (List Char × Nat) :=
  if Text.startsWith text "name" then
    let afterWord := text.drop 4
    let lead := Text.blankLead afterWord
    match afterWord.drop lead with
    | '=' :: rest =>
      let isQuote (c : Char) : Bool := c == '"' || c == '\x27'
      let gap := Text.blankLead rest
      match rest.drop gap with
      | quote :: written =>
        let value := written.takeWhile fun c => !isQuote c
        if isQuote quote && !value.isEmpty && value.length < written.length then
          some (value, 4 + lead + 1 + gap + 1 + value.length + 1)
        else none
      | [] => none
    | _ => none
  else none

/-- The first name given to a slot before its tag ends, and the number of characters up to the end
of it; `previous` is the character before the text. -/
def slotName? (previous : Char) : List Char → Option (List Char × Nat)
  | [] => none
  | c :: rest =>
    match if Text.isWordChar previous then none else nameValue? (c :: rest) with
    | some found => some found
    | none =>
      if c = '>' then none else (slotName? c rest).map fun (value, length) => (value, length + 1)

/-- The names of slots in code; `skip` characters belong to a tag that has been read. -/
def slotNamesInCode : Nat → List Char → List (List Char)
  | _, [] => []
  | skip + 1, _ :: rest => slotNamesInCode skip rest
  | 0, c :: rest =>
    let after := (c :: rest).drop 5
    let isTag := Text.startsWith (c :: rest) "<slot" && !(after.head?.any Text.isWordChar)
    match if isTag then slotName? 't' after else none with
    | some (value, length) => value :: slotNamesInCode (4 + length) rest
    | none => slotNamesInCode 0 rest

/-- The slots that a node places itself. -/
def ownSlots : Node → List String
  | .element tag attributes _ _ =>
    if tag = "slot" then (Attribute.fixed? attributes "name").toList else []
  | .expression e => (slotNamesInCode 0 e.code.toList).map String.ofList
  | _ => []

mutual

/-- The slots that a node and the nodes below it place, in order. -/
def placedSlots : Node → List String
  | .element tag attributes children site =>
    ownSlots (.element tag attributes children site) ++ placedSlotsOfList children
  | .component _ _ children _ => placedSlotsOfList children
  | .expression e => ownSlots (.expression e)
  | .conditional _ _ consequent alternate _ =>
    placedSlotsOfList consequent ++ placedSlotsOfList alternate
  | .optional _ _ branch _ => placedSlotsOfList branch
  | .loop _ _ _ body _ => placedSlotsOfList body
  | .text .. | .doctype .. => []

/-- The slots that a list of nodes places, in order. -/
def placedSlotsOfList : List Node → List String
  | [] => []
  | node :: rest => placedSlots node ++ placedSlotsOfList rest

end

/-- The declared slots of a template. -/
def slotsOf (nodes : List Node) : List String :=
  ((placedSlotsOfList nodes).map Text.lowercase).foldl addName [defaultSlot]

/-! ## Props -/

/-- The first character of a prop name. -/
def startsPropName (c : Char) : Bool := c.isAlpha || c == '_' || c == '$'

/-- The name that a declaration gives to a prop, where the text starts with the declaration; with the
number of characters that belong to it. -/
def propName? (text : List Char) : Option (List Char × Nat) :=
  if Text.startsWith text "prop" then
    let gap := Text.blankLead (text.drop 4)
    match text.drop (4 + gap) with
    | first :: rest =>
      if 0 < gap ∧ startsPropName first then
        let name := first :: rest.takeWhile fun c => Text.isWordChar c || c == '$'
        some (name, 4 + gap + name.length)
      else none
    | [] => none
  else none

/-- The props declared in a script; `inWord` tells whether the character before the text is part of
a word, and `skip` characters belong to a declaration that has been read. -/
def propsInScript (inWord : Bool) : Nat → List Char → List (List Char)
  | _, [] => []
  | skip + 1, c :: rest => propsInScript (Text.isWordChar c) skip rest
  | 0, c :: rest =>
    match if inWord then none else propName? (c :: rest) with
    | some (name, length) => name :: propsInScript (Text.isWordChar c) (length - 1) rest
    | none => propsInScript (Text.isWordChar c) 0 rest

/-- Cut a text at every comma. -/
def splitCommas : List Char → List (List Char)
  | [] => [[]]
  | c :: rest =>
    if c = ',' then [] :: splitCommas rest
    else
      match splitCommas rest with
      | first :: others => (c :: first) :: others
      | [] => [[c]]

/-- The props listed in the tag of a script. -/
def propsInTag (script : Template.Script) : List String :=
  match script.attributes.lookup "props" with
  | some text =>
    ((splitCommas text.toList).map Text.trim).filterMap fun name =>
      if name.isEmpty then none else some (String.ofList name)
  | none => []

/-- The declared props of a script. -/
def propsOf (script : Template.Script) : List String :=
  ((propsInScript false 0 script.raw.toList).map String.ofList).foldl addName (propsInTag script)

/-! ## Reading -/

/-- Read a definition. -/
def ofSource (name path source : String) : Except Diagnostic Definition :=
  match Template.parse source path {} with
  | .error report => .error report
  | .ok (template, _) =>
    .ok
      { name
        path
        nodes := template.nodes
        slots := slotsOf template.nodes
        props := (template.script.map propsOf).getD []
        styles := template.styles
        script := template.script }

/-- The component has a script. -/
def hasScript (definition : Definition) : Bool := definition.script.isSome

end Definition

/-- The definitions that a compilation can use, each under its key. -/
structure Library where
  /-- Definitions with their keys, each key once. -/
  entries : List (String × Definition) := []
  deriving Repr, Inhabited

namespace Library

/-- Put a definition under its name; it takes the place of one that is there. -/
def insert (library : Library) (definition : Definition) : Library :=
  ⟨library.entries.filter (·.1 != definition.name) ++ [(definition.name, definition)]⟩

/-- The library of the given definitions; of two with one name the later counts. -/
def ofList (definitions : List Definition) : Library := definitions.foldl insert {}

/-- The definition under a key. -/
def get? (library : Library) (key : String) : Option Definition := library.entries.lookup key

/-- The smaller of two entries by key. -/
def smaller (left right : String × Definition) : String × Definition :=
  if right.1 < left.1 then right else left

/-- The entry with the smallest key. -/
def smallest? : List (String × Definition) → Option (String × Definition)
  | [] => none
  | first :: rest => some (rest.foldl smaller first)

/-- The definition that a name refers to: the one under that key, otherwise the one with the smallest
key that differs from the name only in the case of ASCII letters. -/
def lookup? (library : Library) (name : String) : Option Definition :=
  (library.get? name).or
    ((smallest? (library.entries.filter fun entry =>
      Text.equalIgnoringAsciiCase entry.1 name)).map (·.2))

end Library
end ReactiveTemplate
