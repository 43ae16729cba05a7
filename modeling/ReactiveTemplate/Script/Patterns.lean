import ReactiveTemplate.Script.Reader

/-!
# Patterns and parameters

Patterns of names, the parameters of functions, and the lists of type parameters and type arguments
that may stand in front of them.
-/

namespace ReactiveTemplate
namespace Script
namespace Grammar

/-- A type after a colon, if there is one. -/
def annotation (g : Grammar) (context : Context) : Reader Bool := do
  if ← Reader.eat ":" then
    g.type context
    return true
  else return false

/-- A value after an equals sign, if there is one. -/
def initializer (g : Grammar) (context : Context) : Reader (Option Term) := do
  if ← Reader.eat "=" then
    let value ← g.assignment context true
    return some value
  else return none

/-- A pattern with an optional default. -/
def patternElement (g : Grammar) (context : Context) : Reader Pattern := do
  let pattern ← g.pattern context
  match ← g.initializer { context with allowIn := true } with
  | some _ => return .withDefault pattern
  | none => return pattern

/-- The key of a property: the word it is, if it is a plain word, and the computed term, if it is
computed. -/
def propertyKey (g : Grammar) (context : Context) : Reader (Option String × Option Term) := do
  match ← Reader.kind with
  | .word text _ =>
    Reader.advance
    return (some text, none)
  | .string | .number =>
    Reader.advance
    return (none, none)
  | .mark "[" =>
    Reader.advance
    let key ← g.assignment { context with allowIn := true } true
    Reader.expect "]"
    return (none, some key)
  | _ => Reader.fail

/-- One property of an object pattern. -/
def patternProperty (g : Grammar) (context : Context) : Reader Pattern := do
  let (word, key) ← g.propertyKey context
  if ← Reader.eat ":" then
    let pattern ← g.patternElement context
    return if key.isSome then .computed pattern else pattern
  else
    match word with
    | none => Reader.fail
    | some text =>
      Reader.require (context.isName text)
      match ← g.initializer { context with allowIn := true } with
      | some _ => return .withDefault (.name text)
      | none => return .name text

/-- The properties of an object pattern after its opening brace. -/
def objectPattern (g : Grammar) (context : Context) : Reader Pattern := do
  let (properties, rest) ← Reader.repeating (([] : List Pattern), (none : Option Pattern))
    fun (properties, rest) => do
      if ← Reader.eat "\x7d" then return ((properties, rest), false)
      else if ← Reader.eat "..." then
        let word ← name context
        Reader.expect "\x7d"
        return ((properties, some (.name word)), false)
      else
        let property ← g.patternProperty context
        if ← Reader.eat "," then return ((property :: properties, rest), true)
        else
          Reader.expect "\x7d"
          return ((property :: properties, rest), false)
  return .object properties.reverse rest

/-- The elements of a list pattern after its opening bracket. -/
def arrayPattern (g : Grammar) (context : Context) : Reader Pattern := do
  let (elements, rest) ←
    Reader.repeating (([] : List (Option Pattern)), (none : Option Pattern))
      fun (elements, rest) => do
        if ← Reader.eat "]" then return ((elements, rest), false)
        else if ← Reader.eat "," then return ((none :: elements, rest), true)
        else if ← Reader.eat "..." then
          let pattern ← g.pattern context
          Reader.expect "]"
          return ((elements, some pattern), false)
        else
          let element ← g.patternElement context
          if ← Reader.eat "," then return ((some element :: elements, rest), true)
          else
            Reader.expect "]"
            return ((some element :: elements, rest), false)
  return .array elements.reverse rest

/-- A pattern: a name, an object pattern or a list pattern. -/
def readPattern (g : Grammar) (context : Context) : Reader Pattern := do
  if ← Reader.eat "\x7b" then g.objectPattern context
  else if ← Reader.eat "[" then g.arrayPattern context
  else return .name (← name context)

/-- What a list of parameters is for. -/
inductive ParameterRole where
  /-- An arrow function, which has no parameter "this". -/
  | arrow
  /-- A function with a name of its own or a method. -/
  | function
  /-- The constructor of a class, whose parameters may declare members. -/
  | constructor
  deriving DecidableEq

/-- The words that make a parameter of a constructor a member. -/
def memberModifiers : List String := ["public", "private", "protected", "readonly", "override"]

/-- Skip the words that make a parameter a member; only a constructor may have them. -/
def parameterModifiers (role : ParameterRole) : Reader Unit :=
  Reader.repeating () fun _ => do
    match ← Reader.kind with
    | .word text false =>
      if memberModifiers.contains text then
        let after := (← Reader.cursor).next
        let isModifier := match after.kind with
          | .word _ _ => true
          | .mark mark => mark == "[" || mark == "\x7b"
          | _ => false
        if isModifier then
          Reader.require (role == .constructor)
          Reader.advance
          return ((), true)
        else return ((), false)
      else return ((), false)
    | _ => return ((), false)

/-- One parameter: a pattern with an optional mark, type and default. -/
def parameter (g : Grammar) (context : Context) (role : ParameterRole) : Reader Parameter := do
  let start := (← Reader.cursor).start
  parameterModifiers role
  let pattern ←
    if (role == .function) && (← Reader.atWord "this") then do
      Reader.advance
      pure (Pattern.object [] none)
    else g.pattern context
  let isOptional ← Reader.eat "?"
  let _ ← g.annotation context
  let value ← g.initializer { context with allowIn := true }
  Reader.require !(isOptional && value.isSome)
  let extent : Extent := ⟨start, (← Reader.cursor).previousStop⟩
  return { extent, pattern, hasDefault := value.isSome }

/-- The parameters of a function in parentheses. -/
def parameters (g : Grammar) (context : Context) (role : ParameterRole) : Reader Parameters := do
  Reader.expect "("
  let (items, rest) ← Reader.repeating (([] : List Parameter), (none : Option Pattern))
    fun (items, rest) => do
      if ← Reader.eat ")" then return ((items, rest), false)
      else if ← Reader.eat "..." then
        let pattern ← g.pattern context
        let _ ← Reader.eat "?"
        let _ ← g.annotation context
        Reader.expect ")"
        return ((items, some pattern), false)
      else
        let item ← g.parameter context role
        if ← Reader.eat "," then return ((item :: items, rest), true)
        else
          Reader.expect ")"
          return ((item :: items, rest), false)
  return { items := items.reverse, rest }

/-- Type arguments in angle brackets. -/
def typeArguments (g : Grammar) (context : Context) : Reader Unit := do
  Reader.expect "<"
  let arguments ← Reader.commaList ">" (g.type context)
  Reader.require !arguments.isEmpty

/-- The words that may stand before a type parameter. -/
def variance : List String := ["const", "in", "out"]

/-- One type parameter with its bound and default. -/
def typeParameter (g : Grammar) (context : Context) : Reader Unit := do
  Reader.repeating () fun _ => do
    match ← Reader.kind with
    | .word text false =>
      let follows := match (← Reader.cursor).next.kind with
        | .word next _ => next != "extends"
        | _ => false
      if variance.contains text && follows then
        Reader.advance
        return ((), true)
      else return ((), false)
    | _ => return ((), false)
  let _ ← name context
  if ← Reader.eatWord "extends" then g.type context
  if ← Reader.eat "=" then g.type context

/-- Type parameters in angle brackets, if there are any. -/
def typeParameters (g : Grammar) (context : Context) : Reader Unit := do
  if ← Reader.eat "<" then
    let items ← Reader.commaList ">" (g.typeParameter context)
    Reader.require !items.isEmpty

end Grammar
end Script
end ReactiveTemplate
