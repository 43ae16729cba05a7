import ReactiveTemplate.Script.Functions
import ReactiveTemplate.Script.Target

/-!
# Reading terms

Operators by binding strength, accesses and calls, literals.  Parentheses are kept in the terms, so
that a rule about an operand without parentheses is a rule about the form of the term.
-/

namespace ReactiveTemplate
namespace Script
namespace Grammar

/-- One argument of a call. -/
def argument (g : Grammar) (context : Context) : Reader Item := do
  if ← Reader.eat "..." then return .spread (← g.assignment { context with allowIn := true } true)
  else return .single (← g.assignment { context with allowIn := true } true)

/-- The arguments of a call after the opening parenthesis. -/
def arguments (g : Grammar) (context : Context) : Reader (List Item) :=
  Reader.commaList ")" (g.argument context)

/-- The elements of a list literal after the opening bracket. -/
def arrayTerm (g : Grammar) (context : Context) : Reader Term := do
  let elements ← Reader.repeating ([] : List Item) fun elements => do
    if ← Reader.eat "]" then return (elements, false)
    else if ← Reader.eat "," then return (.hole :: elements, true)
    else
      let element ← g.argument context
      if ← Reader.eat "," then return (element :: elements, true)
      else
        Reader.expect "]"
        return (element :: elements, false)
  return .array elements.reverse

/-- A method: parameters and body of the value of a property. -/
def methodValue (g : Grammar) (async generator : Bool) : Reader Term := do
  let (parameters, body) ← g.functionRest async generator .function
  return .function none parameters body

/-- A key follows, so that the current word is a modifier of a property. -/
def keyAhead : Reader Bool := do
  match (← Reader.cursor).next.kind with
  | .word _ _ | .string | .number | .mark "[" => return true
  | _ => return false

/-- A property of an object literal that starts with its key: a method, a key with a value, or a name
that stands for both. -/
def plainProperty (g : Grammar) (context : Context) : Reader Property := do
  let cursor ← Reader.cursor
  let (word, key) ← g.propertyKey context
  if (← Reader.atMark "(") || (← Reader.atMark "<") then
    return .keyed key (← g.methodValue false false)
  else if ← Reader.eat ":" then
    return .keyed key (← g.assignment { context with allowIn := true } true)
  else
    match word with
    | none => Reader.fail
    | some text =>
      Reader.require (context.isName text)
      match ← g.initializer { context with allowIn := true } with
      | none => return .shorthand ⟨cursor.start, cursor.start + cursor.length⟩ text
      | some value =>
        Reader.modifyUnclaimed (cursor.start :: ·)
        return .defaulted cursor.start text value

/-- One property of an object literal. -/
def property (g : Grammar) (context : Context) : Reader Property := do
  if ← Reader.eat "..." then return .spread (← g.assignment { context with allowIn := true } true)
  else if ← Reader.eat "*" then
    let (_, key) ← g.propertyKey context
    return .keyed key (← g.methodValue false true)
  else if ((← Reader.atWord "get") || (← Reader.atWord "set")) && (← keyAhead) then
    Reader.advance
    let (_, key) ← g.propertyKey context
    return .keyed key (← g.methodValue false false)
  else if (← Reader.atWord "async") && !(← Reader.cursor).next.newline &&
      ((← keyAhead) || (← Reader.cursor).next.kind == .mark "*") then
    Reader.advance
    let generator ← Reader.eat "*"
    let (_, key) ← g.propertyKey context
    return .keyed key (← g.methodValue true generator)
  else g.plainProperty context

/-- An expression in parentheses. -/
def parenthesizedTerm (g : Grammar) (context : Context) : Reader Term := do
  let opening := (← Reader.cursor).start
  Reader.expect "("
  let inner ← g.expression { context with allowIn := true }
  let closing := (← Reader.cursor).start
  Reader.expect ")"
  return .parenthesized opening closing inner

/-- A regular expression, at its opening slash. -/
def regexTerm : Reader Term := do
  let cursor ← Reader.cursor
  match regexLength? (cursor.text.drop 1) with
  | some length =>
    Reader.jump (length + 1)
    return .literal
  | none => Reader.fail

/-- The word "import" in an expression: a call, or information about the module. -/
def importTerm (g : Grammar) (context : Context) : Reader Term := do
  Reader.advance
  if ← Reader.eat "." then
    let word ← anyWord
    if word == "meta" then return .literal
    else
      Reader.require (word == "source" || word == "defer")
      Reader.expect "("
      let items ← g.arguments context
      Reader.require (items.length == 1)
      return .other
  else
    Reader.expect "("
    let items ← g.arguments context
    Reader.require (1 ≤ items.length && items.length ≤ 2)
    Reader.require (items.all fun
      | .single _ => true
      | _ => false)
    return .other

/-- The expressions of a template literal, at its opening quote. -/
def templateTerms (g : Grammar) (context : Context) (checkEscapes : Bool) :
    Reader (List Term) :=
  templateParts checkEscapes (g.expression { context with allowIn := true })

/-- Type arguments in front of something that shows them to be such. -/
def expressionTypeArguments (g : Grammar) (context : Context) : Reader Unit := do
  Reader.reread "<<" "<"
  g.typeArguments context
  let cursor ← Reader.cursor
  let follows := match cursor.kind with
    | .mark "(" | .backquote => true
    | .mark "<" | .mark ">" | .mark "+" | .mark "-" => false
    | .mark mark => cursor.newline || !(["[", "\x7b", "!", "~", "/=", "@", "++", "--"].contains mark)
    | .word text _ =>
      cursor.newline || ["in", "instanceof", "as", "satisfies"].contains text ||
        (reservedWords.contains text &&
          !(["class", "delete", "false", "function", "import", "new", "null", "super", "this",
            "true", "typeof", "void"].contains text))
    | .number | .string | .privateName => cursor.newline
    | .ending => true
    | .invalid => false
  Reader.require follows

/-- Access to a named member, at its name. -/
def namedMember (object : Term) : Reader Term := do
  let cursor ← Reader.cursor
  let word ← anyWord
  return .member object ⟨cursor.start, cursor.start + cursor.length⟩ word

/-- Access to a named or a private member, at its name. -/
def dotMember (object : Term) : Reader Term := do
  match ← Reader.kind with
  | .privateName =>
    Reader.advance
    return .typed object
  | _ => namedMember object

/-- Access to a member whose key is computed, after the opening bracket. -/
def computedMember (g : Grammar) (context : Context) (object : Term) : Reader Term := do
  let key ← g.expression { context with allowIn := true }
  Reader.expect "]"
  return .index object key

/-- A template literal that is handed to a function; no optional access may precede it. -/
def taggedTemplate (g : Grammar) (context : Context) (tag : Term) (chained : Bool) :
    Reader Term := do
  Reader.require !chained
  let parts ← g.templateTerms context false
  return .tagged tag parts

/-- Type arguments behind a term, if there are any, and the call or the template literal that they
are for. -/
def typeArgumentStep (g : Grammar) (context : Context) (term : Term) (chained : Bool) :
    Reader (Option Term) := do
  match ← Reader.attempt (g.expressionTypeArguments context) with
  | none => return none
  | some _ =>
    if ← Reader.eat "(" then
      let items ← g.arguments context
      return some (.call term items)
    else if (← Reader.kind) == .backquote then
      let tagged ← g.taggedTemplate context term chained
      return some tagged
    else return some (.typed term)

/-- One access to a member, if there is one: the term so far and whether the chain has an optional
access. -/
def memberStep (g : Grammar) (context : Context) (allowOptional : Bool) (state : Term × Bool) :
    Reader ((Term × Bool) × Bool) := do
  let cursor ← Reader.cursor
  match cursor.kind with
  | .mark "." =>
    Reader.advance
    let term ← dotMember state.1
    return ((term, state.2), true)
  | .mark "?." =>
    match cursor.next.kind with
    | .word _ _ | .privateName =>
      Reader.require allowOptional
      Reader.advance
      let term ← dotMember state.1
      return ((term, true), true)
    | .mark "[" =>
      Reader.require allowOptional
      Reader.advance
      Reader.advance
      let term ← g.computedMember context state.1
      return ((term, true), true)
    | .backquote => Reader.fail
    | _ => return (state, false)
  | .mark "[" =>
    Reader.advance
    let term ← g.computedMember context state.1
    return ((term, state.2), true)
  | .backquote =>
    let term ← g.taggedTemplate context state.1 state.2
    return ((term, state.2), true)
  | .mark "!" =>
    if cursor.newline then return (state, false)
    else
      Reader.advance
      return ((.typed state.1, state.2), true)
  | .mark "<" | .mark "<<" =>
    match ← g.typeArgumentStep context state.1 state.2 with
    | none => return (state, false)
    | some term => return ((term, state.2), true)
  | _ => return (state, false)

/-- A new object: the word that starts it has been read. -/
def constructTerm (g : Grammar) (context : Context) (primary : Reader Term) : Reader Term := do
  if ← Reader.eat "." then
    Reader.expectWord "target"
    return .literal
  else
    Reader.require !(← Reader.atWord "import")
    let first ← primary
    let (callee, _) ← Reader.repeating (first, false) fun state => do
      match ← Reader.kind with
      | .mark "<" | .mark "<<" =>
        match ← Reader.attempt (g.expressionTypeArguments context) with
        | some _ => return (state, true)
        | none => return (state, false)
      | _ => g.memberStep context false state
    Reader.require !(← Reader.atMark "?.")
    if ← Reader.eat "(" then return .construct callee (← g.arguments context)
    else return .construct callee []

/-- A term without operators or accesses.  The bound limits how many creations of objects are
nested directly. -/
def primaryTerm (g : Grammar) (context : Context) : Nat → Reader Term
  | 0 => Reader.fail
  | bound + 1 => do
    let cursor ← Reader.cursor
    match cursor.kind with
    | .number | .string =>
      Reader.advance
      return .literal
    | .backquote => return .template (← g.templateTerms context true)
    | .mark "(" => g.parenthesizedTerm context
    | .mark "[" =>
      Reader.advance
      g.arrayTerm context
    | .mark "\x7b" =>
      Reader.advance
      return .object (← Reader.commaList "\x7d" (g.property context))
    | .mark "/" | .mark "/=" => regexTerm
    | .mark "@" =>
      g.decorators context
      Reader.expectWord "class"
      g.classTerm context
    | .word text escaped =>
      if context.isName text then
        if text == "async" && !escaped && cursor.next.kind == .word "function" false &&
            !cursor.next.newline then
          Reader.advance
          Reader.advance
          g.functionTerm true
        else
          Reader.advance
          return .name ⟨cursor.start, cursor.start + cursor.length⟩ text
      else
        Reader.require !escaped
        match text with
        | "this" | "null" | "true" | "false" =>
          Reader.advance
          return .literal
        | "function" =>
          Reader.advance
          g.functionTerm false
        | "class" =>
          Reader.advance
          g.classTerm context
        | "new" =>
          Reader.advance
          g.constructTerm context (g.primaryTerm context bound)
        | "super" =>
          Reader.advance
          Reader.require ((← Reader.atMark ".") || (← Reader.atMark "[") || (← Reader.atMark "("))
          return .literal
        | "import" => g.importTerm context
        | _ => Reader.fail
    | _ => Reader.fail

/-- The type arguments of an optional call, if there are any. -/
def callTypeArguments (g : Grammar) (context : Context) : Reader Unit := do
  if (← Reader.atMark "<") || (← Reader.atMark "<<") then
    Reader.reread "<<" "<"
    g.typeArguments context

/-- One access to a member or one call, if there is one. -/
def accessStep (g : Grammar) (context : Context) (state : Term × Bool) :
    Reader ((Term × Bool) × Bool) := do
  let (state, more) ← g.memberStep context true state
  if more then return (state, true)
  else if ← Reader.eat "(" then
    let items ← g.arguments context
    return ((.call state.1 items, state.2), true)
  else if ← Reader.eat "?." then
    g.callTypeArguments context
    Reader.expect "("
    let items ← g.arguments context
    return ((.call state.1 items, true), true)
  else return (state, false)

/-- A term that has been read with its accesses, as a chain if one of them is optional. -/
def asChain : Term × Bool → Term
  | (.member object extent name, true) => .chain (.member object extent name)
  | (.index object key, true) => .chain (.index object key)
  | (.call callee arguments, true) => .chain (.call callee arguments)
  | (.typed inner, true) => .chain (.typed inner)
  | (term, _) => term

/-- A term with all its accesses and calls. -/
def accessTerm (g : Grammar) (context : Context) : Reader Term := do
  let first ← g.primaryTerm context ((← Reader.cursor).text.length + 1)
  let state ← Reader.repeating (first, false) (g.accessStep context)
  return asChain state

/-- A term that may be counted up or down, before or after. -/
def updateTerm (g : Grammar) (context : Context) : Reader Term := do
  let cursor ← Reader.cursor
  match cursor.kind with
  | .mark "++" | .mark "--" =>
    Reader.advance
    let target ← g.unary context
    Reader.require target.isSimpleTarget
    return .update target
  | .mark "<" =>
    g.element context
    Reader.advance
    return .other
  | _ =>
    let term ← g.accessTerm context
    if ((← Reader.atMark "++") || (← Reader.atMark "--")) && !(← Reader.onNewLine) then
      Reader.advance
      Reader.require term.isSimpleTarget
      return .update term
    else return term

/-- An operand with its prefix operators. -/
def readUnary (g : Grammar) (context : Context) : Reader Term := do
  match ← Reader.kind with
  | .mark "+" | .mark "-" | .mark "~" | .mark "!" | .word "delete" false | .word "typeof" false
  | .word "void" false =>
    Reader.advance
    return .unary (← g.unary context)
  | .word "await" false =>
    if context.await then
      Reader.advance
      return .await (← g.unary context)
    else g.updateTerm context
  | _ => g.updateTerm context

/-- How tightly an operator binds, and what kind it is. -/
def strength : TokenKind → Option (Nat × Operator)
  | .mark "??" => some (5, .nullish)
  | .mark "||" => some (6, .logical)
  | .mark "&&" => some (7, .logical)
  | .mark "|" => some (8, .plain)
  | .mark "^" => some (9, .plain)
  | .mark "&" => some (10, .plain)
  | .mark "==" | .mark "!=" | .mark "===" | .mark "!==" => some (11, .plain)
  | .mark "<" | .mark "<=" | .mark ">" | .mark ">=" => some (12, .plain)
  | .word "instanceof" false | .word "in" false | .word "as" false | .word "satisfies" false =>
    some (12, .plain)
  | .mark "<<" | .mark ">>" | .mark ">>>" => some (13, .plain)
  | .mark "+" | .mark "-" => some (14, .plain)
  | .mark "*" | .mark "/" | .mark "%" => some (15, .plain)
  | .mark "**" => some (16, .power)
  | _ => none

/-- The marks that start with a closing angle bracket, longer ones first. -/
def angleMarks : List String := [">>>=", ">>>", ">>=", ">>", ">="]

/-- Read a closing angle bracket together with what belongs to the same operator. -/
def joinAngle : Reader Unit := do
  let text := (← Reader.cursor).text
  match angleMarks.find? (fun m => m.toList.isPrefixOf text) with
  | some m => Reader.reread ">" m
  | none => pure ()

/-- A conjunction or disjunction without parentheses. -/
def isBareLogical : Term → Bool
  | .binary .logical _ _ => true
  | _ => false

/-- A replacement of a missing value without parentheses. -/
def isBareNullish : Term → Bool
  | .binary .nullish _ _ => true
  | _ => false

/-- Two operands may be joined: missing values are not replaced next to a bare conjunction or
disjunction, and a bare prefix operator does not stand before a power. -/
def mayJoin (operator : Operator) (left right : Term) : Bool :=
  match operator with
  | .nullish => !isBareLogical left && !isBareLogical right
  | .logical => !isBareNullish left && !isBareNullish right
  | .power =>
    match left with
    | .unary _ | .await _ => false
    | _ => true
  | .plain => true

/-- The first of the operands that are joined.  The test whether an object has a private member is
one operand. -/
def firstOperand (g : Grammar) (context : Context) (level : Nat) : Reader Term := do
  if (← Reader.kind) == .privateName && context.allowIn then
    Reader.advance
    Reader.require ((← Reader.eatWord "in") && level < 12)
    let _ ← g.binary context 12
    return .other
  else g.unary context

/-- An operator that binds so tightly does not belong to the operands of a level.  Powers are
grouped from the right. -/
def endsLevel (level own : Nat) (operator : Operator) : Bool :=
  if operator == .power then own < level else own ≤ level

/-- The type in a remark about the type of an operand. -/
def assertedType (g : Grammar) (context : Context) : Reader Unit := do
  if ← Reader.eatWord "const" then return () else g.type context

/-- Operands joined by operators that bind more tightly than the given level. -/
def readBinary (g : Grammar) (context : Context) (level : Nat) : Reader Term := do
  let first ← g.firstOperand context level
  Reader.repeating first fun left => do
    joinAngle
    let cursor ← Reader.cursor
    match strength cursor.kind with
    | none => return (left, false)
    | some (own, operator) =>
      if endsLevel level own operator then return (left, false)
      else if cursor.kind == .word "in" false && !context.allowIn then return (left, false)
      else if cursor.kind == .word "as" false || cursor.kind == .word "satisfies" false then
        if cursor.newline then return (left, false)
        else
          Reader.advance
          g.assertedType context
          return (.typed left, true)
      else
        Reader.advance
        let right ← g.binary context own
        Reader.require (mayJoin operator left right)
        return (.binary operator left right, true)

/-- The marks that assign. -/
def assignmentMarks : List String :=
  ["=", "+=", "-=", "*=", "/=", "%=", "**=", "<<=", ">>=", ">>>=", "&=", "|=", "^=", "&&=", "||=",
    "??="]

/-- The value that a generator hands out, which may be left out. -/
def yieldedValue (g : Grammar) (context : Context) : Reader Unit := do
  if ← Reader.onNewLine then return ()
  else if ← Reader.eat "*" then
    let _ ← g.assignment context true
  else
    match ← Reader.kind with
    | .mark ")" | .mark "]" | .mark "\x7d" | .mark "," | .mark ";" | .mark ":" | .ending => return ()
    | .word "in" false | .word "of" false => return ()
    | _ =>
      let _ ← g.assignment context true

/-- The handing out of a value by a generator, at the word that starts it. -/
def yieldTerm (g : Grammar) (context : Context) : Reader Term := do
  Reader.advance
  g.yieldedValue context
  return .other

/-- Take a term as the target of an assignment; only one that is plain may take a pattern, to which
the defaults in it then belong. -/
def assignable (plain : Bool) (target : Term) : Reader Unit := do
  Reader.require (if plain then target.isTarget else target.isSimpleTarget)
  if plain then
    Reader.modifyUnclaimed (·.filter fun place => !target.defaultPlaces.contains place)

/-- What follows the first operand of an expression: an arrow, an assignment or a choice. -/
def assignmentRest (g : Grammar) (context : Context) (allowResult : Bool) (left : Term) :
    Reader Term := do
  joinAngle
  let cursor ← Reader.cursor
  match cursor.kind, left with
  | .mark "=>", .name extent parameter =>
    arrowMark
    let body ← g.arrowBody context allowResult
    return .arrow ⟨[{ extent, pattern := .name parameter }], none⟩ body
  | .mark mark, _ =>
    if assignmentMarks.contains mark then
      assignable (mark == "=") left
      Reader.advance
      let value ← g.assignment context allowResult
      return .assignment left value
    else if mark == "?" then
      Reader.advance
      let consequent ← g.assignment { context with allowIn := true } false
      Reader.expect ":"
      let alternate ← g.assignment context allowResult
      return .conditional left consequent alternate
    else return left
  | _, _ => return left

/-- An expression without a comma. -/
def readAssignment (g : Grammar) (context : Context) (allowResult : Bool) : Reader Term := do
  if context.yield && (← Reader.atWord "yield") then g.yieldTerm context
  else
    match ← g.tryParenthesizedArrow context allowResult with
    | some term => return term
    | none =>
      match ← g.tryAsyncArrow context allowResult with
      | some term => return term
      | none =>
        let left ← g.binary context 0
        g.assignmentRest context allowResult left

end Grammar
end Script
end ReactiveTemplate
