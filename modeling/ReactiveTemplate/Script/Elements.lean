import ReactiveTemplate.Script.Terms

/-!
# Markup inside expressions

Elements and fragments of markup.  The text between tags is not made of tokens, so the reader goes
from tag to tag and from brace to brace in the raw text.  An element ends at its last closing angle
bracket, which stays the current token.
-/

namespace ReactiveTemplate
namespace Script
namespace Grammar

/-- A name in markup, in which hyphens may stand. -/
def hyphenatedName : Reader String := do
  match ← Reader.kind with
  | .word _ false =>
    let text := (← Reader.cursor).text
    let chars := text.takeWhile fun c => Text.isIdentifierPart c || c == '-'
    Reader.jump chars.length
    return String.ofList chars
  | _ => Reader.fail

/-- A name of an attribute: possibly two names with a colon between them. -/
def attributeName : Reader String := do
  let first ← hyphenatedName
  if ← Reader.eat ":" then return first ++ ":" ++ (← hyphenatedName) else return first

/-- The name of an element: with a colon, or with dots. -/
def elementName : Reader String := do
  let first ← attributeName
  Reader.repeating first fun name => do
    if ← Reader.eat "." then
      let word ← hyphenatedName
      return (name ++ "." ++ word, true)
    else return (name, false)

/-- The value of an attribute, at the equals sign. -/
def attributeValue (g : Grammar) (context : Context) : Reader Unit := do
  let text := (← Reader.cursor).text.drop 1
  let gap := gapFrom .blank text
  match text.drop gap.length with
  | '"' :: rest | '\x27' :: rest =>
    let quote := (text.drop gap.length).head?.getD '"'
    let value := rest.takeWhile (· != quote)
    Reader.require (value.length < rest.length)
    Reader.jump (gap.length + value.length + 3)
  | _ =>
    Reader.advance
    if ← Reader.eat "\x7b" then
      let _ ← g.expression { context with allowIn := true }
      Reader.expect "\x7d"
    else
      Reader.require (← Reader.atMark "<")
      g.element context
      Reader.advance

/-- The attributes of an opening tag. -/
def attributes (g : Grammar) (context : Context) : Reader Unit :=
  Reader.repeating () fun _ => do
    if ← Reader.eat "\x7b" then
      Reader.expect "..."
      let _ ← g.assignment { context with allowIn := true } true
      Reader.expect "\x7d"
      return ((), true)
    else
      match ← Reader.kind with
      | .word _ _ =>
        let _ ← attributeName
        if ← Reader.atMark "=" then g.attributeValue context
        return ((), true)
      | _ => return ((), false)

/-- The closing tag, from its slash on, must have the given name; its last mark is not taken. -/
def closingTag (name : Option String) : Reader Unit := do
  Reader.expect "/"
  match name with
  | none => pure ()
  | some name => Reader.require ((← elementName) == name)
  Reader.require (← Reader.atMark ">")

/-- The children of an element up to its closing tag, at the last mark of the opening tag. -/
def children (g : Grammar) (context : Context) (name : Option String) : Reader Unit :=
  Reader.repeating () fun _ => do
    -- the current token is the last one of a tag or of code in braces; raw text follows it
    let text := (← Reader.cursor).text.drop 1
    let length := (text.takeWhile fun c => !(c == '{' || c == '<' || c == '>' || c == '}')).length
    match text.drop length with
    | '{' :: _ =>
      Reader.jump (length + 1)
      Reader.advance
      if !(← Reader.atMark "\x7d") then
        let _ ← Reader.eat "..."
        let _ ← g.expression { context with allowIn := true }
        Reader.require (← Reader.atMark "\x7d")
      return ((), true)
    | '<' :: _ =>
      Reader.jump (length + 1)
      if (← Reader.cursor).next.kind == .mark "/" then
        Reader.advance
        closingTag name
        return ((), false)
      else
        g.element context
        return ((), true)
    | _ => Reader.fail

/-- An element or a fragment, from its opening angle bracket on. -/
def readElement (g : Grammar) (context : Context) : Reader Unit := do
  Reader.expect "<"
  if ← Reader.atMark ">" then g.children context none
  else
    let name ← elementName
    if ← Reader.atMark "<" then g.typeArguments context
    g.attributes context
    if ← Reader.eat "/" then Reader.require (← Reader.atMark ">")
    else
      Reader.require (← Reader.atMark ">")
      g.children context (some name)

end Grammar
end Script
end ReactiveTemplate
