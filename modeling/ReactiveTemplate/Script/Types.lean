import ReactiveTemplate.Script.Patterns

/-!
# Types

Types have no influence on what an expression refers to; they are read to find where they end.
-/

namespace ReactiveTemplate
namespace Script
namespace Grammar

/-- The start of a parameter of a function type: a name or a pattern. -/
def parameterStart (g : Grammar) (context : Context) : Reader Unit := do
  match ← Reader.kind with
  | .word _ _ => Reader.advance
  | .mark "[" | .mark "\x7b" =>
    let _ ← g.pattern context
  | _ => Reader.fail

/-- What stands after an opening parenthesis can only be a function type. -/
def functionTypeAhead (g : Grammar) (context : Context) : Reader Bool := do
  Reader.advance
  if (← Reader.atMark ")") || (← Reader.atMark "...") then return true
  match ← Reader.attempt (g.parameterStart context) with
  | none => return false
  | some _ =>
    if (← Reader.atMark ":") || (← Reader.atMark ",") || (← Reader.atMark "?") ||
        (← Reader.atMark "=") then
      return true
    else if ← Reader.eat ")" then Reader.atMark "=>"
    else return false

/-- A function type or a constructor type starts here. -/
def atFunctionType (g : Grammar) (context : Context) : Reader Bool := do
  match ← Reader.kind with
  | .mark "<" => return true
  | .mark "(" => return (← Reader.look (g.functionTypeAhead context)).getD false
  | .word "new" false => return true
  | .word "abstract" false => return (← Reader.cursor).next.kind == .word "new" false
  | _ => return false

/-- A type, or the statement that a name has a type. -/
def predicateOrType (g : Grammar) (context : Context) : Reader Unit := do
  let next := (← Reader.cursor).next
  let assertsName := match next.kind with
    | .word _ _ => !next.newline
    | _ => false
  if (← Reader.atWord "asserts") && assertsName then Reader.advance
  match ← Reader.kind with
  | .word _ _ =>
    let next := (← Reader.cursor).next
    if next.kind == .word "is" false && !next.newline then
      Reader.advance
      Reader.advance
      g.type context
    else g.type context
  | _ => g.type context

/-- The result type after a colon, if there is one. -/
def resultType (g : Grammar) (context : Context) : Reader Bool := do
  if ← Reader.eat ":" then
    g.predicateOrType context
    return true
  else return false

/-- A function type or a constructor type. -/
def functionType (g : Grammar) (context : Context) : Reader Unit := do
  let _ ← Reader.eatWord "abstract"
  let _ ← Reader.eatWord "new"
  g.typeParameters context
  let _ ← g.parameters context .function
  Reader.expect "=>"
  g.predicateOrType context

/-- A dotted name with optional type arguments. -/
def typeReference (g : Grammar) (context : Context) : Reader Unit := do
  let _ ← anyWord
  Reader.repeating () fun _ => do
    if ← Reader.eat "." then
      let _ ← anyWord
      return ((), true)
    else return ((), false)
  if (← Reader.atMark "<") && !(← Reader.onNewLine) then g.typeArguments context

/-- The end of a member of an object type. -/
def memberEnd : Reader Unit := do
  if (← Reader.eat ";") || (← Reader.eat ",") then return ()
  else
    let cursor ← Reader.cursor
    Reader.require (cursor.newline || cursor.kind == .mark "\x7d")

/-- The signature of a function: parameters and result. -/
def signature (g : Grammar) (context : Context) : Reader Unit := do
  g.typeParameters context
  let _ ← g.parameters context .function
  let _ ← g.resultType context

/-- The word is a modifier: something to be named follows it. -/
def modifierAhead : Reader Bool := do
  match (← Reader.cursor).next.kind with
  | .word _ _ | .string | .number | .mark "[" | .privateName => return true
  | _ => return false

/-- One member of an object type. -/
def typeMember (g : Grammar) (context : Context) : Reader Unit := do
  if (← Reader.atMark "(") || (← Reader.atMark "<") then
    g.signature context
    memberEnd
  else
    for word in ["readonly", "get", "set"] do
      if (← Reader.atWord word) && (← modifierAhead) then Reader.advance
    if (← Reader.atWord "new") &&
        ((← Reader.cursor).next.kind == .mark "(" || (← Reader.cursor).next.kind == .mark "<") then
      Reader.advance
      g.signature context
      memberEnd
    else
      let indexed ← Reader.attempt do
        Reader.expect "["
        let _ ← anyWord
        Reader.expect ":"
        g.type context
        Reader.expect "]"
      if indexed.isSome then
        let _ ← g.annotation context
        memberEnd
      else
        let _ ← g.propertyKey context
        let _ ← Reader.eat "?"
        if (← Reader.atMark "(") || (← Reader.atMark "<") then g.signature context
        else
          let _ ← g.annotation context
        memberEnd

/-- A sign before a modifier of a mapped type. -/
def signed (word : Reader Bool) : Reader Unit := do
  if (← Reader.eat "+") || (← Reader.eat "-") then Reader.require (← word)
  else
    let _ ← word

/-- A mapped type after its opening brace. -/
def mappedType (g : Grammar) (context : Context) : Reader Unit := do
  signed (Reader.eatWord "readonly")
  Reader.expect "["
  let _ ← anyWord
  Reader.expectWord "in"
  g.type context
  if ← Reader.eatWord "as" then g.type context
  Reader.expect "]"
  signed (Reader.eat "?")
  let _ ← g.annotation context
  let _ ← Reader.eat ";"
  let _ ← Reader.eat ","
  Reader.expect "\x7d"

/-- An object type after its opening brace. -/
def objectType (g : Grammar) (context : Context) : Reader Unit := do
  match ← Reader.attempt (g.mappedType context) with
  | some _ => return ()
  | none =>
    let _ ← Reader.listUntil "\x7d" (g.typeMember context)

/-- One element of a tuple type. -/
def tupleElement (g : Grammar) (context : Context) : Reader Unit := do
  let _ ← Reader.eat "..."
  let _ ← Reader.attempt do
    let _ ← anyWord
    let _ ← Reader.eat "?"
    Reader.expect ":"
  g.type context
  let _ ← Reader.eat "?"

/-- The expressions of a template, after its opening quote; `part` reads what stands in one. -/
def templateParts {α : Type} (checkEscapes : Bool) (part : Reader α) : Reader (List α) := do
  let parts ← Reader.repeating ([] : List α) fun parts => do
    let cursor ← Reader.cursor
    match templatePart? (cursor.text.drop 1) with
    | none => Reader.fail
    | some (length, ending) =>
      Reader.require (!checkEscapes || templateEscapesValid ((cursor.text.drop 1).take length))
      match ending with
      | .quote =>
        Reader.jump (length + 1)
        return (parts, false)
      | .expression =>
        Reader.jump (length + 1)
        let value ← part
        -- the brace that ends the expression takes the place of the opening quote
        Reader.require (← Reader.atMark "\x7d")
        return (value :: parts, true)
  return parts.reverse

/-- A type without operators. -/
def primaryType (g : Grammar) (context : Context) : Reader Unit := do
  match ← Reader.kind with
  | .string | .number => Reader.advance
  | .backquote =>
    let _ ← templateParts true (g.type context)
  | .mark "-" =>
    Reader.advance
    Reader.require ((← Reader.kind) == .number)
    Reader.advance
  | .mark "\x7b" =>
    Reader.advance
    g.objectType context
  | .mark "[" =>
    Reader.advance
    let _ ← Reader.commaList "]" (g.tupleElement context)
  | .mark "(" =>
    Reader.advance
    g.type context
    Reader.expect ")"
  | .word "typeof" false =>
    Reader.advance
    g.typeReference context
  | .word "import" false =>
    Reader.advance
    Reader.expect "("
    g.type context
    Reader.expect ")"
    if ← Reader.eat "." then g.typeReference context
    else if ← Reader.atMark "<" then g.typeArguments context
  | .word text escaped =>
    if ["this", "void", "null", "true", "false"].contains text then
      Reader.require !escaped
      Reader.advance
    else
      Reader.require !(reservedWords.contains text)
      g.typeReference context
  | _ => Reader.fail

/-- A type with the brackets that follow it. -/
def suffixedType (g : Grammar) (context : Context) : Reader Unit := do
  g.primaryType context
  Reader.repeating () fun _ => do
    if (← Reader.atMark "[") && !(← Reader.onNewLine) then
      Reader.advance
      if ← Reader.eat "]" then return ((), true)
      else
        g.type context
        Reader.expect "]"
        return ((), true)
    else return ((), false)

/-- A type with the operators before it. -/
def operatorType (g : Grammar) (context : Context) : Reader Unit := do
  Reader.repeating () fun _ => do
    let isOperator ← match ← Reader.kind with
      | .word text false => pure (["keyof", "unique", "readonly"].contains text)
      | _ => pure false
    let follows := match (← Reader.cursor).next.kind with
      | .word _ _ | .string | .number | .backquote | .mark "\x7b" | .mark "[" | .mark "(" => true
      | _ => false
    if isOperator && follows then
      Reader.advance
      return ((), true)
    else return ((), false)
  let infers := match (← Reader.cursor).next.kind with
    | .word _ _ => true
    | _ => false
  if (← Reader.atWord "infer") && infers then
    Reader.advance
    let _ ← anyWord
    let _ ← Reader.attempt do
      Reader.expectWord "extends"
      g.primaryType context
      Reader.require !(← Reader.atMark "?")
  else g.suffixedType context

/-- Types joined by a mark, which may also stand before the first. -/
def joinedTypes (mark : String) (item : Reader Unit) : Reader Unit := do
  let _ ← Reader.eat mark
  item
  Reader.repeating () fun _ => do
    if ← Reader.eat mark then
      item
      return ((), true)
    else return ((), false)

/-- A type. -/
def readType (g : Grammar) (context : Context) : Reader Unit := do
  if ← g.atFunctionType context then g.functionType context
  else
    let operand : Reader Unit := do
      if ← g.atFunctionType context then g.functionType context else g.operatorType context
    let union := joinedTypes "|" (joinedTypes "&" operand)
    union
    if (← Reader.atWord "extends") && !(← Reader.onNewLine) then
      let _ ← Reader.attempt do
        Reader.advance
        union
        Reader.expect "?"
        g.type context
        Reader.expect ":"
        g.type context

end Grammar
end Script
end ReactiveTemplate
