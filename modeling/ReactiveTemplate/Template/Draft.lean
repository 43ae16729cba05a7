import ReactiveTemplate.Code.Lexer
import ReactiveTemplate.Diagnostic
import ReactiveTemplate.Template.Block
import ReactiveTemplate.Template.Placeholder
import ReactiveTemplate.Text.Offset

/-!
# Drafts

The draft of a template is plain markup with placeholders, and beside it the code that was taken
out, the scripts and the styles.  It is written in one pass that reads one character at a time:
parts of the source that stand for something as a whole (a comment, code in braces, a script) are
recognized at their first character, and then copied or passed over.
-/

namespace ReactiveTemplate
namespace Template

/-- Code that was taken out of the source. -/
structure Captured where
  /-- The code, without blank characters at its ends. -/
  code : String
  /-- Where the code starts. -/
  location : Location
  deriving DecidableEq, Repr, Inhabited

/-- A tag that is being read. -/
structure OpenTag where
  /-- Its name. -/
  name : String
  /-- Where it starts. -/
  location : Location
  deriving DecidableEq, Repr

/-- Where in the source the next character stands. -/
inductive Position where
  /-- Between tags. -/
  | content
  /-- In an opening tag. -/
  | tag (tag : OpenTag)
  /-- In a quoted value in an opening tag. -/
  | quoted (quote : Char) (tag : OpenTag)
  deriving DecidableEq, Repr

/-- A draft under way. -/
structure Draft where
  /-- Location of the next character. -/
  location : Location := {}
  /-- Where the next character stands. -/
  position : Position := .content
  /-- How many of the next characters belong to a part that has been recognized. -/
  skip : Nat := 0
  /-- Whether these characters are copied. -/
  copying : Bool := false
  /-- The markup, backwards. -/
  written : List Char := []
  /-- The code that was taken out, in order. -/
  captured : List Captured := []
  /-- The scripts that were taken out, in order. -/
  scripts : List Script := []
  /-- The styles that were taken out, in order. -/
  styles : List String := []
  deriving Inhabited

namespace Draft

/-- Write text. -/
def write (draft : Draft) (text : List Char) : Draft :=
  { draft with written := text.reverse ++ draft.written }

/-- Copy this character and the given number of characters after it. -/
def copy (draft : Draft) (c : Char) (more : Nat) : Draft :=
  { draft with
    written := c :: draft.written, location := draft.location.next c, skip := more, copying := true }

/-- Pass over this character and the given number of characters after it. -/
def passOver (draft : Draft) (c : Char) (more : Nat) : Draft :=
  { draft with location := draft.location.next c, skip := more, copying := false }

/-- Read a character of a part that has been recognized. -/
def follow (draft : Draft) (c : Char) : Draft :=
  { draft with
    written := if draft.copying then c :: draft.written else draft.written
    location := draft.location.next c, skip := draft.skip - 1 }

/-- Code that is only a comment puts nothing on the page. -/
def isRemark (code : List Char) : Bool := Text.startsWith code "/*" && Text.endsWith code "*/"

/-- Take out the code after an opening brace.  Gives its number; empty code and remarks have
none. -/
def capture (draft : Draft) (rest : List Char) : Except Misstep (Option Nat × Draft) :=
  match Code.closingFrom .afterOpening rest with
  | none => .error (.openExpression, draft.location)
  | some length =>
    let raw := rest.take length
    let code := Text.trim raw
    let location := (draft.location.next '{').advance (raw.take (Text.blankLead raw))
    let after := draft.passOver '{' (length + 1)
    if code.isEmpty || isRemark code then .ok (none, after)
    else
      .ok (some draft.captured.length,
        { after with captured := draft.captured ++ [⟨String.ofList code, location⟩] })

/-- Read a closing tag. -/
def closeTag (draft : Draft) (rest : List Char) : Draft :=
  let name := String.ofList ((rest.drop 1).takeWhile Code.isTagNamePart)
  let length := ((lengthBefore? (· == '>') rest).map (· + 1)).getD rest.length
  if Markup.isComponentTag name then
    (draft.write ("</" ++ usageTag ++ ">").toList).passOver '<' length
  else draft.copy '<' length

/-- The tag that stands in the markup for a tag of the given name. -/
def markupTag (name : String) : String := if Markup.isComponentTag name then usageTag else name

/-- Read the start of an opening tag, up to its name. -/
def openTag (draft : Draft) (name : String) : Draft :=
  let start :=
    if Markup.isComponentTag name then
      "<" ++ usageTag ++ " " ++ nameAttribute ++ "=\"" ++ name ++ "\""
    else "<" ++ name
  let tag : OpenTag := ⟨name, draft.location⟩
  { (draft.write (start ++ locationMark draft.location).toList).passOver '<' name.length with
    position := .tag tag }

/-- The script stays where it is: it comes from elsewhere or asks to stay. -/
def staysInline (lower : String) (attributes : List (String × String)) : Bool :=
  lower == "script" && attributes.any fun (name, _) => name == "src" || name == "is:inline"

/-- Read a script or style block; `rest` is what follows the angle bracket. -/
def block (draft : Draft) (name lower : String) (rest : List Char) : Except Misstep Draft := do
  let after := rest.drop name.length
  let tagLength ← match tagLength? none after with
    | some length => .ok length
    | none => .error (.openTag lower, draft.location)
  let attributeText := after.take tagLength
  let attributes :=
    tagAttributes (attributeText.reverse.dropWhile (· == '/')).reverse
  let inline := staysInline lower attributes
  if attributeText.getLast? = some '/' then
    let written := '<' :: rest.take (name.length + tagLength - 1) ++ "></script>".toList
    .ok ((if inline then draft.write written else draft).passOver '<' (name.length + tagLength + 1))
  else
    let body := after.drop (tagLength + 1)
    let bodyLength ← match Text.find? ("</" ++ lower).toList (body.map Char.toLower) with
      | some length => .ok length
      | none => .error (.openBlock lower, draft.location)
    let closing := body.drop bodyLength
    let closingLength := ((lengthBefore? (· == '>') closing).map (· + 1)).getD closing.length
    let length := name.length + tagLength + 1 + bodyLength + closingLength
    let raw := String.ofList (body.take bodyLength)
    if inline then .ok (draft.copy '<' length)
    else if lower = "script" then
      .ok ({ draft with scripts := draft.scripts ++ [Script.mk raw attributes] }.passOver '<' length)
    else .ok ({ draft with styles := draft.styles ++ [raw] }.passOver '<' length)

/-- Read a character between tags. -/
def readContent (draft : Draft) (c : Char) (rest : List Char) : Except Misstep Draft :=
  if c = '{' then do
    let (number?, after) ← draft.capture rest
    match number? with
    | some number => .ok (after.write (elementPlaceholder number).toList)
    | none => .ok after
  else if c ≠ '<' then .ok (draft.copy c 0)
  else
    match rest with
    | '!' :: '-' :: '-' :: _ =>
      .ok (draft.copy c (((Text.find? "-->".toList rest).map (· + 3)).getD rest.length))
    | '!' :: _ | '?' :: _ =>
      .ok (draft.copy c (((lengthBefore? (· == '>') rest).map (· + 1)).getD rest.length))
    | '/' :: _ => .ok (draft.closeTag rest)
    | first :: _ =>
      if first.isAlpha then
        let name := String.ofList (rest.takeWhile Code.isTagNamePart)
        let lower := Text.asciiLowercase name
        if lower = "script" ∨ lower = "style" then draft.block name lower rest
        else .ok (draft.openTag name)
      else .ok (draft.copy c 0)
    | [] => .ok (draft.copy c 0)

/-- Read a character of an opening tag. -/
def readTag (draft : Draft) (tag : OpenTag) (c : Char) (rest : List Char) :
    Except Misstep Draft :=
  if c = '"' ∨ c = '\x27' then .ok { draft.copy c 0 with position := .quoted c tag }
  else if c = '{' then do
    let (number?, after) ← draft.capture rest
    match number? with
    | some number => .ok (after.write ("\"" ++ wordPlaceholder number ++ "\"").toList)
    | none => .ok (after.write "\"\"".toList)
  else if c = '/' ∧ rest.head? = some '>' then
    let closing :=
      if !Markup.isComponentTag tag.name && Markup.isVoidElement tag.name then ">"
      else "></" ++ markupTag tag.name ++ ">"
    .ok { (draft.write closing.toList).passOver c 1 with position := .content }
  else if c = '>' then .ok { draft.copy c 0 with position := .content }
  else .ok (draft.copy c 0)

/-- Read a character of a quoted value. -/
def readQuoted (draft : Draft) (quote : Char) (tag : OpenTag) (c : Char) (rest : List Char) :
    Except Misstep Draft :=
  if c = quote then .ok { draft.copy c 0 with position := .tag tag }
  else if c = '{' then do
    let (number?, after) ← draft.capture rest
    match number? with
    | some number => .ok (after.write (wordPlaceholder number).toList)
    | none => .ok after
  else .ok (draft.copy c 0)

/-- Read one character. -/
def step (draft : Draft) (c : Char) (rest : List Char) : Except Misstep Draft :=
  if 0 < draft.skip then .ok (draft.follow c)
  else
    match draft.position with
    | .content => draft.readContent c rest
    | .tag tag => draft.readTag tag c rest
    | .quoted quote tag => draft.readQuoted quote tag c rest

/-- The source may end here. -/
def finish (draft : Draft) : Except Misstep Draft :=
  match draft.position with
  | .content => .ok draft
  | .tag tag => .error (.openTag tag.name, tag.location)
  | .quoted _ tag => .error (.openAttributeValue, tag.location)

/-- Read a source up to its end. -/
def runFrom (draft : Draft) : List Char → Except Misstep Draft
  | [] => draft.finish
  | c :: rest =>
    match draft.step c rest with
    | .ok next => next.runFrom rest
    | .error misstep => .error misstep

/-- The draft of a source. -/
def ofSource (source : List Char) : Except Misstep Draft := runFrom {} source

/-- The markup of a draft. -/
def markup (draft : Draft) : List Char := draft.written.reverse

end Draft
end Template
end ReactiveTemplate
