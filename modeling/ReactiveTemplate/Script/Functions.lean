import ReactiveTemplate.Script.Types

/-!
# Functions and classes

Arrow functions, functions with a name of their own, methods and classes.  Of a class only the
extent matters: nothing inside of it is replaced.
-/

namespace ReactiveTemplate
namespace Script
namespace Grammar

/-- The statements of a function in braces. -/
def functionBody (g : Grammar) (context : Context) : Reader (List Statement) := do
  Reader.expect "\x7b"
  Reader.listUntil "\x7d" (g.statement { context with allowIn := true, inFunction := true } false)

/-- Type parameters, parameters, result type and body of a function. -/
def functionRest (g : Grammar) (async generator : Bool) (role : ParameterRole) :
    Reader (Parameters × List Statement) := do
  let inner : Context := { await := async, yield := generator, inFunction := true }
  g.typeParameters inner
  let parameters ← g.parameters inner role
  let _ ← g.resultType inner
  let body ← g.functionBody inner
  return (parameters, body)

/-- The name of a function, which may be left out. -/
def functionName (context : Context) : Reader (Option String) := do
  match ← Reader.kind with
  | .word _ _ =>
    let word ← name context
    return some word
  | _ => return none

/-- A function after the word that starts it. -/
def functionTerm (g : Grammar) (async : Bool) : Reader Term := do
  let generator ← Reader.eat "*"
  let own ← functionName { await := async, yield := generator }
  let (parameters, body) ← g.functionRest async generator .function
  return .function own parameters body

/-- The arrow, which must stand on the line where the parameters end. -/
def arrowMark : Reader Unit := do
  Reader.require !(← Reader.onNewLine)
  Reader.expect "=>"

/-- The body of an arrow function: a block or one expression. -/
def arrowBody (g : Grammar) (context : Context) (allowResult : Bool) : Reader (List Statement) := do
  if ← Reader.atMark "\x7b" then g.functionBody context
  else
    let value ← g.assignment context allowResult
    return [.expression value]

/-- The context inside an arrow function. -/
def arrowContext (context : Context) (async : Bool) : Context :=
  { context with await := context.await || async }

/-- Whether an arrow function starts here. -/
inductive Likelihood where
  /-- Certainly not. -/
  | no
  /-- Only reading on can tell. -/
  | perhaps
  /-- Certainly. -/
  | yes
  deriving DecidableEq

/-- The words that may precede a parameter. -/
def parameterWords : List String :=
  ["public", "private", "protected", "readonly", "override", "static", "abstract", "declare",
    "accessor", "export", "default", "const", "in", "out"]

/-- Whether an arrow function starts at an opening parenthesis. -/
def arrowAfterParenthesis : Reader Likelihood := do
  Reader.advance
  match ← Reader.kind with
  | .mark ")" =>
    Reader.advance
    match ← Reader.kind with
    | .mark ":" => return .perhaps
    | .mark "=>" | .mark "\x7b" => return .yes
    | _ => return .no
  | .mark "[" | .mark "\x7b" => return .perhaps
  | .mark "..." => return .yes
  | .word text _ =>
    Reader.advance
    match ← Reader.kind with
    | .word third _ =>
      if parameterWords.contains text && !reservedWords.contains third then
        return if third == "as" then .no else .yes
      else return .no
    | third =>
      if reservedWords.contains text && text != "this" then return .no
      else
        match third with
        | .mark ":" => return .yes
        | .mark "?" =>
          Reader.advance
          match ← Reader.kind with
          | .mark ":" | .mark "," | .mark "=" | .mark ")" => return .yes
          | _ => return .no
        | .mark "," | .mark "=" | .mark ")" => return .perhaps
        | _ => return .no
  | _ => return .no

/-- Whether an arrow function with type parameters starts at an angle bracket.  A single type
parameter alone would be an element of markup. -/
def arrowAfterAngle : Reader Likelihood := do
  Reader.advance
  match ← Reader.kind with
  | .word text _ =>
    if reservedWords.contains text && text != "const" then return .no
    else
      Reader.advance
      match ← Reader.kind with
      | .word "extends" _ =>
        Reader.advance
        match ← Reader.kind with
        | .mark "=" | .mark ">" | .mark "/" => return .no
        | _ => return .yes
      | .mark "," | .mark "=" => return .yes
      | _ => return .no
  | _ => return .no

/-- Whether an arrow function with parameters in parentheses starts here. -/
def arrowLikelihood : Reader Likelihood := do
  let ahead : Reader Likelihood := do
    if ← Reader.eatWord "async" then
      if ← Reader.onNewLine then return .no
    match ← Reader.kind with
    | .mark "(" => arrowAfterParenthesis
    | .mark "<" => arrowAfterAngle
    | _ => return .no
  return (← Reader.look ahead).getD .no

/-- An arrow function with parameters in parentheses. -/
def parenthesizedArrow (g : Grammar) (context : Context) (allowResult : Bool) : Reader Term := do
  let async ← Reader.eatWord "async"
  let inner := arrowContext context async
  g.typeParameters inner
  let parameters ← g.parameters { inner with allowIn := true } .arrow
  let _ ← g.resultType inner
  arrowMark
  let body ← g.arrowBody inner allowResult
  return .arrow parameters body

/-- The first part of an arrow function, up to its arrow. -/
def arrowHeadAhead (g : Grammar) (context : Context) : Reader Unit := do
  let async ← Reader.eatWord "async"
  let inner := arrowContext context async
  g.typeParameters inner
  let _ ← g.parameters { inner with allowIn := true } .arrow
  let _ ← g.resultType inner
  Reader.require (← Reader.atMark "=>")

/-- An arrow function with parameters in parentheses within the first branch of a choice: a result
type is one only if the colon of the choice still follows. -/
def arrowInChoice (g : Grammar) (context : Context) : Reader Term := do
  let async ← Reader.eatWord "async"
  let inner := arrowContext context async
  g.typeParameters inner
  let parameters ← g.parameters { inner with allowIn := true } .arrow
  let hasResult ← g.resultType inner
  arrowMark
  let body ← g.arrowBody inner false
  Reader.require (!hasResult || (← Reader.atMark ":"))
  return .arrow parameters body

/-- An arrow function with parameters in parentheses, if one starts here. -/
def tryParenthesizedArrow (g : Grammar) (context : Context) (allowResult : Bool) :
    Reader (Option Term) := do
  match ← arrowLikelihood with
  | .no => return none
  | .yes => return some (← g.parenthesizedArrow context true)
  | .perhaps =>
    match ← Reader.look (g.arrowHeadAhead context) with
    | none => return none
    | some _ =>
      if allowResult then return some (← g.parenthesizedArrow context allowResult)
      else Reader.attempt (g.arrowInChoice context)

/-- An arrow function with a single bare parameter after the word "async", if one starts here. -/
def tryAsyncArrow (g : Grammar) (context : Context) (allowResult : Bool) :
    Reader (Option Term) := do
  let ahead : Reader Unit := do
    Reader.expectWord "async"
    Reader.require !(← Reader.onNewLine)
    let _ ← anyWord
    Reader.require ((← Reader.atMark "=>") && !(← Reader.onNewLine))
  match ← Reader.look ahead with
  | none => return none
  | some _ =>
    Reader.advance
    let extent : Extent :=
      ⟨(← Reader.cursor).start, (← Reader.cursor).start + (← Reader.cursor).length⟩
    let parameter ← name (arrowContext context true)
    arrowMark
    let body ← g.arrowBody (arrowContext context true) allowResult
    return some (.arrow ⟨[{ extent, pattern := .name parameter }], none⟩ body)

/-- The words that may precede a member of a class. -/
def classWords : List String :=
  ["static", "public", "private", "protected", "readonly", "override", "abstract", "declare",
    "accessor", "async", "get", "set"]

/-- Decorators: each an at sign and a term. -/
def decorators (g : Grammar) (context : Context) : Reader Unit :=
  Reader.repeating () fun _ => do
    if ← Reader.eat "@" then
      let _ ← g.unary context
      return ((), true)
    else return ((), false)

/-- The key of a class member. -/
def memberKey (g : Grammar) (context : Context) : Reader (Option String) := do
  match ← Reader.kind with
  | .privateName =>
    Reader.advance
    return none
  | _ =>
    let (word, _) ← g.propertyKey context
    return word

/-- One member of a class. -/
def classMember (g : Grammar) (context : Context) : Reader Unit := do
  if ← Reader.eat ";" then return ()
  g.decorators context
  let isBlock := (← Reader.atWord "static") && (← Reader.cursor).next.kind == .mark "\x7b"
  if isBlock then
    Reader.advance
    let _ ← g.functionBody { await := false }
    return ()
  let flags ← Reader.repeating (false, false) fun (async, abstract) => do
    match ← Reader.kind with
    | .word text false =>
      let next := (← Reader.cursor).next
      let follows := match next.kind with
        | .word _ _ | .string | .number | .privateName | .mark "[" | .mark "*" => true
        | _ => false
      if classWords.contains text && follows && !(next.newline && text != "static") then
        Reader.advance
        return ((async || text == "async", abstract || text == "abstract" || text == "declare"), true)
      else return ((async, abstract), false)
    | _ => return ((async, abstract), false)
  let generator ← Reader.eat "*"
  let indexed ← Reader.attempt do
    Reader.expect "["
    let _ ← anyWord
    Reader.expect ":"
    g.type context
    Reader.expect "]"
    let _ ← g.annotation context
    Reader.semicolon
  if indexed.isSome then return ()
  let word ← g.memberKey context
  let _ ← Reader.eat "?"
  let _ ← Reader.eat "!"
  if (← Reader.atMark "(") || (← Reader.atMark "<") then
    let inner : Context := { await := flags.1, yield := generator, inFunction := true }
    g.typeParameters inner
    let _ ← g.parameters inner (if word == some "constructor" then .constructor else .function)
    let _ ← g.resultType inner
    if ← Reader.atMark "\x7b" then
      let _ ← g.functionBody inner
    else Reader.semicolon
  else
    let _ ← g.annotation context
    let _ ← g.initializer { await := false, inFunction := false }
    Reader.semicolon

/-- The heritage and the members of a class, after its name. -/
def classRest (g : Grammar) (context : Context) : Reader Unit := do
  g.typeParameters context
  if ← Reader.eatWord "extends" then
    let _ ← g.unary context
    if ← Reader.atMark "<" then g.typeArguments context
  if ← Reader.eatWord "implements" then
    Reader.repeating () fun _ => do
      g.typeReference context
      return ((), ← Reader.eat ",")
  Reader.expect "\x7b"
  let _ ← Reader.listUntil "\x7d" (g.classMember context)

/-- The name of a class, which may be left out. -/
def className (context : Context) : Reader Unit := do
  match ← Reader.kind with
  | .word text _ =>
    if text != "extends" && !(text == "implements" && (← Reader.cursor).next.kind != .mark "\x7b") then
      let _ ← name context
  | _ => return ()

/-- A class after the word that starts it. -/
def classTerm (g : Grammar) (context : Context) : Reader Term := do
  className context
  g.classRest context
  return .other

end Grammar
end Script
end ReactiveTemplate
