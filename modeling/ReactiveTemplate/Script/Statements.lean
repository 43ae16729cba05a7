import ReactiveTemplate.Script.Elements

/-!
# Reading statements

The statements that may stand in the body of a function.  Declarations of types are read to find
where they end.
-/

namespace ReactiveTemplate
namespace Script
namespace Grammar

/-- The mark of a declared name that gets its value later, if it is there. -/
def definiteMark : Reader Unit := do
  if (← Reader.atMark "!") && !(← Reader.onNewLine) then Reader.advance

/-- One declared pattern with its initial value, where `constant` asks for a value. -/
def declarator (g : Grammar) (context : Context) (constant inHead : Bool) :
    Reader (Pattern × Option Term) := do
  let pattern ← g.pattern context
  definiteMark
  let _ ← g.annotation context
  let value ← g.initializer context
  Reader.require (inHead || value.isSome || (pattern.isName && !constant))
  return (pattern, value)

/-- The declared patterns after the word that starts a declaration. -/
def declarations (g : Grammar) (context : Context) (constant inHead : Bool) :
    Reader (List (Pattern × Option Term)) := do
  let items ← Reader.repeating ([] : List (Pattern × Option Term)) fun items => do
    let item ← g.declarator context constant inHead
    return (item :: items, ← Reader.eat ",")
  return items.reverse

/-- The words that start a declaration of resources, which are released at the end of the block: a
name follows on the line.  In the head of a loop, "of" after them belongs to the loop. -/
def resourceWords (context : Context) (inHead : Bool) : Reader Unit := do
  let waits ← if context.await then Reader.eatWord "await" else pure false
  Reader.require !(waits && (← Reader.onNewLine))
  Reader.expectWord "using"
  let cursor ← Reader.cursor
  match cursor.kind with
  | .word text _ =>
    Reader.require
      (!cursor.newline && !reservedWords.contains text && (!inHead || waits || text != "of"))
  | _ => Reader.fail

/-- The resources that are declared here, if any are.  They have names and no patterns. -/
def tryResources (g : Grammar) (context : Context) (inHead : Bool) :
    Reader (Option (List (Pattern × Option Term))) := do
  match ← Reader.attempt (resourceWords context inHead) with
  | some _ =>
    let items ← g.declarations context true inHead
    Reader.require (items.all (·.1.isName))
    return some items
  | none => return none

/-- The current word starts a declaration of names: something that can be bound follows. -/
def declarationAhead : Reader Bool := do
  match (← Reader.cursor).next.kind with
  | .word text _ => return !(["in", "instanceof", "of"].contains text) || text == "of"
  | .mark "[" | .mark "\x7b" => return true
  | _ => return false

/-- A block in braces. -/
def block (g : Grammar) (context : Context) : Reader (List Statement) := do
  Reader.expect "\x7b"
  Reader.listUntil "\x7d" (g.statement { context with allowIn := true } false)

/-- An expression in parentheses, as after "if" and "while". -/
def condition (g : Grammar) (context : Context) : Reader Term := do
  Reader.expect "("
  let test ← g.expression { context with allowIn := true }
  Reader.expect ")"
  return test

/-- The rest of the head of a loop with three parts, after the first part. -/
def countedHead (g : Grammar) (context : Context) : Reader Unit := do
  Reader.expect ";"
  if !(← Reader.atMark ";") then
    let _ ← g.expression context
  Reader.expect ";"
  if !(← Reader.atMark ")") then
    let _ ← g.expression context
  Reader.expect ")"

/-- The rest of the head of a loop, after the names that it declares; resources are no keys. -/
def declaredHead (g : Grammar) (context : Context) (items : List (Pattern × Option Term))
    (resources : Bool) : Reader Unit := do
  let single := items.length == 1
  if ← Reader.eatWord "of" then
    Reader.require (single && (items.all (·.2.isNone)))
    let _ ← g.assignment context true
    Reader.expect ")"
  else if ← Reader.eatWord "in" then
    Reader.require (single && !resources)
    let _ ← g.expression context
    Reader.expect ")"
  else g.countedHead context

/-- The head of a loop, after the opening parenthesis; gives the names that it makes known in the
whole function. -/
def loopHead (g : Grammar) (context : Context) : Reader (List String) := do
  let inHead : Context := { context with allowIn := false }
  let full : Context := { context with allowIn := true }
  let declares ←
    match ← Reader.kind with
    | .word "var" false | .word "const" false => pure true
    | .word "let" false => declarationAhead
    | _ => pure false
  if declares then
    let inFunction ← Reader.atWord "var"
    Reader.advance
    let items ← g.declarations inHead false true
    g.declaredHead full items false
    return if inFunction then declaredNames items else []
  else if let some items ← g.tryResources inHead true then
    g.declaredHead full items true
    return []
  else if ← Reader.atMark ";" then
    g.countedHead full
    return []
  else
    let first ← g.expression inHead
    if ← Reader.eatWord "of" then
      assignable true first
      let _ ← g.assignment full true
      Reader.expect ")"
    else if ← Reader.eatWord "in" then
      assignable true first
      let _ ← g.expression full
      Reader.expect ")"
    else g.countedHead full
    return []

/-- One case of a selection; gives the names that it makes known in the whole function. -/
def selectionCase (g : Grammar) (context : Context) : Reader (List String) := do
  if ← Reader.eatWord "case" then
    let _ ← g.expression { context with allowIn := true }
  else Reader.expectWord "default"
  Reader.expect ":"
  Reader.repeating ([] : List String) fun names => do
    if (← Reader.atWord "case") || (← Reader.atWord "default") || (← Reader.atMark "\x7d") then
      return (names, false)
    else
      let statement ← g.statement context false
      return (names ++ statement.functionNames, true)

/-- The handler of a guarded block, if there is one; gives the names that it makes known in the
whole function. -/
def handler (g : Grammar) (context : Context) : Reader (Option (List String)) := do
  if ← Reader.eatWord "catch" then
    if ← Reader.eat "(" then
      let _ ← g.pattern context
      let _ ← g.annotation context
      Reader.expect ")"
    let body ← g.block context
    return some (Statement.functionNamesOfList body)
  else return none

/-- The handlers of a guarded block; gives the names that they make known in the whole function. -/
def handlers (g : Grammar) (context : Context) : Reader (List String) := do
  let caught ← g.handler context
  if ← Reader.eatWord "finally" then
    let body ← g.block context
    return caught.getD [] ++ Statement.functionNamesOfList body
  else
    match caught with
    | some names => return names
    | none => Reader.fail

/-- An enumeration after the word that starts it. -/
def enumeration (g : Grammar) (context : Context) : Reader Statement := do
  let word ← name context
  Reader.expect "\x7b"
  let _ ← Reader.commaList "\x7d" do
    let _ ← g.propertyKey context
    let _ ← g.initializer { context with allowIn := true }
  return .named word

/-- The declaration of a name for a type, after the word that starts it. -/
def typeAlias (g : Grammar) (context : Context) : Reader Unit := do
  let _ ← name context
  g.typeParameters context
  Reader.expect "="
  g.type context
  Reader.semicolon

/-- The declaration of an interface, after the word that starts it. -/
def interface (g : Grammar) (context : Context) : Reader Unit := do
  let _ ← name context
  g.typeParameters context
  if ← Reader.eatWord "extends" then
    Reader.repeating () fun _ => do
      g.typeReference context
      return ((), ← Reader.eat ",")
  Reader.expect "\x7b"
  let _ ← Reader.listUntil "\x7d" (g.typeMember context)

/-- The current word starts the declaration of a type: a name follows on the line. -/
def typeAhead : Reader Bool := do
  let cursor ← Reader.cursor
  match cursor.next.kind with
  | .word text _ => return !cursor.next.newline && !reservedWords.contains text
  | _ => return false

/-- The declaration of a class, after the word that starts it. -/
def classDeclaration (g : Grammar) (context : Context) : Reader Statement := do
  let word ← name context
  g.classRest context
  return .named word

/-- A declaration of a type or of a class that is completed elsewhere, if one starts here. -/
def tryTypeDeclaration (g : Grammar) (context : Context) : Reader (Option Statement) := do
  let named ← typeAhead
  let next := (← Reader.cursor).next
  if (← Reader.atWord "type") && named then
    Reader.advance
    g.typeAlias context
    return some (.other [])
  else if (← Reader.atWord "interface") && named then
    Reader.advance
    g.interface context
    return some (.other [])
  else if ← Reader.eatWord "enum" then
    let statement ← g.enumeration context
    return some statement
  else if (← Reader.atWord "abstract") && next.kind == .word "class" false && !next.newline then
    Reader.advance
    Reader.advance
    return some (← g.classDeclaration context)
  else return none

/-- The declaration of a function, after the word that starts it.  A signature without a body ends
like a statement. -/
def functionDeclaration (g : Grammar) (context : Context) (async : Bool) : Reader Statement := do
  let generator ← Reader.eat "*"
  let word ← name context
  let inner : Context := { await := async, yield := generator, inFunction := true }
  g.typeParameters inner
  let _ ← g.parameters inner .function
  let _ ← g.resultType inner
  if ← Reader.atMark "\x7b" then
    let _ ← g.functionBody inner
  else Reader.semicolon
  return .named word

/-- A statement that is an expression or carries a label. -/
def plainStatement (g : Grammar) (context : Context) : Reader Statement := do
  let term ← g.expression { context with allowIn := true }
  match term with
  | .name _ _ =>
    if ← Reader.eat ":" then
      let statement ← g.statement context true
      return .other statement.functionNames
    else
      Reader.semicolon
      return .expression term
  | _ =>
    Reader.semicolon
    return .expression term

/-- The word that makes a loop wait for each value, if it is there. -/
def eatAwait (context : Context) : Reader Unit := do
  if context.await then
    let _ ← Reader.eatWord "await"

/-- The label after "break" or "continue", if there is one on the line. -/
def jumpLabel (context : Context) : Reader Unit := do
  let cursor ← Reader.cursor
  match cursor.kind with
  | .word text _ =>
    if !cursor.newline && context.isName text then Reader.advance
  | _ => return ()

/-- A statement that starts with a reserved word, if one starts here. -/
def tryKeywordStatement (g : Grammar) (context : Context) (single : Bool) :
    Reader (Option Statement) := do
  match ← Reader.kind with
  | .word "var" false =>
    Reader.advance
    let items ← g.declarations { context with allowIn := true } false false
    Reader.semicolon
    return some (.declaration true items)
  | .word "const" false =>
    Reader.require !single
    Reader.advance
    if ← Reader.atWord "enum" then
      Reader.advance
      return some (← g.enumeration context)
    else
      let items ← g.declarations { context with allowIn := true } true false
      Reader.semicolon
      return some (.declaration false items)
  | .word "function" false =>
    Reader.advance
    return some (← g.functionDeclaration context false)
  | .word "class" false =>
    Reader.require !single
    Reader.advance
    return some (← g.classDeclaration context)
  | .word "if" false =>
    Reader.advance
    let test ← g.condition context
    let consequent ← g.statement context true
    if ← Reader.eatWord "else" then
      let alternate ← g.statement context true
      return some (.branch test consequent (some alternate))
    else return some (.branch test consequent none)
  | .word "for" false =>
    Reader.advance
    eatAwait context
    Reader.expect "("
    let names ← g.loopHead context
    let body ← g.statement context true
    return some (.other (names ++ body.functionNames))
  | .word "while" false | .word "with" false =>
    Reader.advance
    let _ ← g.condition context
    let body ← g.statement context true
    return some (.other body.functionNames)
  | .word "do" false =>
    Reader.advance
    let body ← g.statement context true
    Reader.expectWord "while"
    let _ ← g.condition context
    let _ ← Reader.eat ";"
    return some (.other body.functionNames)
  | .word "return" false =>
    Reader.require context.inFunction
    Reader.advance
    let cursor ← Reader.cursor
    if cursor.newline || cursor.kind == .mark ";" || cursor.kind == .mark "\x7d" ||
        cursor.kind == .ending then
      Reader.semicolon
      return some (.return none)
    else
      let value ← g.expression { context with allowIn := true }
      Reader.semicolon
      return some (.return (some value))
  | .word "throw" false =>
    Reader.advance
    Reader.require !(← Reader.onNewLine)
    let _ ← g.expression { context with allowIn := true }
    Reader.semicolon
    return some (.other [])
  | .word "try" false =>
    Reader.advance
    let body ← g.block context
    let names ← g.handlers context
    return some (.other (Statement.functionNamesOfList body ++ names))
  | .word "switch" false =>
    Reader.advance
    let _ ← g.condition context
    Reader.expect "\x7b"
    let names ← Reader.listUntil "\x7d" (g.selectionCase context)
    return some (.other names.flatten)
  | .word "debugger" false =>
    Reader.advance
    Reader.semicolon
    return some .empty
  | .word "break" false | .word "continue" false =>
    Reader.advance
    jumpLabel context
    Reader.semicolon
    return some .empty
  | _ => return none

/-- A statement. -/
def readStatement (g : Grammar) (context : Context) (single : Bool) : Reader Statement := do
  let cursor ← Reader.cursor
  let next := cursor.next
  if ← Reader.atMark "\x7b" then return .block (← g.block context)
  else if ← Reader.eat ";" then return .empty
  else
    match ← g.tryKeywordStatement context single with
    | some statement => return statement
    | none =>
      if (← Reader.atWord "let") && (← declarationAhead) then
        Reader.require !single
        Reader.advance
        let items ← g.declarations { context with allowIn := true } false false
        Reader.semicolon
        return .declaration false items
      else if let some items ← g.tryResources { context with allowIn := true } false then
        Reader.require !single
        Reader.semicolon
        return .declaration false items
      else if (← Reader.atWord "async") && next.kind == .word "function" false && !next.newline then
        Reader.require !single
        Reader.advance
        Reader.advance
        g.functionDeclaration context true
      else
        match ← g.tryTypeDeclaration context with
        | some statement => return statement
        | none => g.plainStatement context

end Grammar

/-- The grammar in which constructs are nested at most so deep. -/
def grammar : Nat → Grammar
  | 0 => .empty
  | depth + 1 =>
    let g := grammar depth
    { assignment := g.readAssignment
      binary := g.readBinary
      unary := g.readUnary
      pattern := g.readPattern
      type := g.readType
      statement := g.readStatement
      element := g.readElement }

/-- The statements of a whole text. -/
def readProgram (text : List Char) : Option (List Statement) :=
  let g := grammar (4 * text.length + 8)
  let reader : Reader (List Statement) := do
    let statements ← Reader.repeating ([] : List Statement) fun statements => do
      if (← Reader.kind) == .ending then return (statements, false)
      else
        let statement ← g.statement {} false
        return (statement :: statements, true)
    Reader.require (← Reader.cursor).unclaimed.isEmpty
    return statements.reverse
  reader.run text

end Script
end ReactiveTemplate
