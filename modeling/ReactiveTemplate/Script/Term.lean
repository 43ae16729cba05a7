/-!
# Terms of the expression language

What the reader of expressions produces.  Terms keep the names they refer to, the names they bind,
and the places of both; of constructs that are never looked into only a trace is kept, so that it
can be told whether names may occur there.  Places are character indices into the text that was read.
-/

namespace ReactiveTemplate
namespace Script

/-- A stretch of the text that was read. -/
structure Extent where
  /-- Index of the first character. -/
  start : Nat
  /-- Index after the last character. -/
  stop : Nat
  deriving DecidableEq, Repr, Inhabited

/-- What a parameter or a declaration binds. -/
inductive Pattern where
  /-- A single name. -/
  | name (name : String)
  /-- The properties of an object, and possibly all the rest of them. -/
  | object (properties : List Pattern) (rest : Option Pattern)
  /-- The elements of a list, some of them passed over, and possibly all the rest of them. -/
  | array (elements : List (Option Pattern)) (rest : Option Pattern)
  /-- A pattern with a value for the case that there is none. -/
  | withDefault (pattern : Pattern)
  /-- The value of a property whose key is computed. -/
  | computed (pattern : Pattern)
  deriving Repr, Inhabited

/-- The operators that join two operands. -/
inductive Operator where
  /-- Replacement of a missing value. -/
  | nullish
  /-- Conjunction or disjunction. -/
  | logical
  /-- Raising to a power. -/
  | power
  /-- Any other operator. -/
  | plain
  deriving DecidableEq, Repr, Inhabited

/-- A parameter of a function, with the place it was written at. -/
structure Parameter where
  /-- Place of the whole parameter: pattern, type and default. -/
  extent : Extent
  /-- What it binds. -/
  pattern : Pattern
  /-- It has a value for the case that there is none. -/
  hasDefault : Bool := false
  deriving Repr, Inhabited

/-- The parameters of a function. -/
structure Parameters where
  /-- Parameters in order. -/
  items : List Parameter
  /-- What the last parameter binds, if it takes all further arguments. -/
  rest : Option Pattern
  deriving Repr, Inhabited

mutual

/-- An expression. -/
inductive Term where
  /-- A reference to a name. -/
  | name (extent : Extent) (name : String)
  /-- Two operands joined by an operator. -/
  | binary (operator : Operator) (left right : Term)
  /-- A choice. -/
  | conditional (test consequent alternate : Term)
  /-- A prefix operator other than waiting. -/
  | unary (operand : Term)
  /-- An increment or decrement. -/
  | update (target : Term)
  /-- An assignment. -/
  | assignment (target value : Term)
  /-- An expression in parentheses, with the indices of the two. -/
  | parenthesized (opening closing : Nat) (inner : Term)
  /-- Several expressions in turn. -/
  | sequence (terms : List Term)
  /-- A template literal, with the expressions in it. -/
  | template (parts : List Term)
  /-- A template literal that is handed to a function. -/
  | tagged (tag : Term) (parts : List Term)
  /-- Waiting for a value. -/
  | await (operand : Term)
  /-- A call. -/
  | call (callee : Term) (arguments : List Item)
  /-- The creation of an object. -/
  | construct (callee : Term) (arguments : List Item)
  /-- A chain of accesses of which at least one is optional. -/
  | chain (inner : Term)
  /-- Access to a named member, with the place of its name. -/
  | member (object : Term) (extent : Extent) (name : String)
  /-- Access to a computed member. -/
  | index (object key : Term)
  /-- An object literal. -/
  | object (properties : List Property)
  /-- A list literal. -/
  | array (elements : List Item)
  /-- An arrow function. -/
  | arrow (parameters : Parameters) (body : List Statement)
  /-- A function of its own, possibly with a name that is known in it. -/
  | function (name : Option String) (parameters : Parameters) (body : List Statement)
  /-- An expression with a remark about its type. -/
  | typed (inner : Term)
  /-- A literal, or something else in which no names occur. -/
  | literal
  /-- Anything else: classes, markup and the like. -/
  | other

/-- An argument of a call or an element of a list. -/
inductive Item where
  /-- One value. -/
  | single (term : Term)
  /-- All values of a list. -/
  | spread (term : Term)
  /-- No value. -/
  | hole

/-- A property of an object literal. -/
inductive Property where
  /-- A name that stands for both key and value. -/
  | shorthand (extent : Extent) (name : String)
  /-- A name with a value for the case that there is none; only the target of an assignment may
  have it.  The place is the index of its first character. -/
  | defaulted (start : Nat) (name : String) (value : Term)
  /-- A key with a value; the key is kept if it is computed. -/
  | keyed (key : Option Term) (value : Term)
  /-- All properties of another object. -/
  | spread (term : Term)

/-- A statement. -/
inductive Statement where
  /-- Declared patterns with their initial values.  The names may be known in the whole function
  and not only in the block. -/
  | declaration (inFunction : Bool) (declarations : List (Pattern × Option Term))
  /-- The declaration of a function, a class or an enumeration. -/
  | named (name : String)
  /-- An expression. -/
  | expression (term : Term)
  /-- A block. -/
  | block (body : List Statement)
  /-- A choice between statements. -/
  | branch (test : Term) (consequent : Statement) (alternate : Option Statement)
  /-- The end of a function, possibly with a value. -/
  | return (value : Option Term)
  /-- A statement in which no names occur. -/
  | empty
  /-- Any other statement, with the names that it makes known in the whole function. -/
  | other (names : List String)

end

instance : Inhabited Term := ⟨.other⟩
instance : Inhabited Statement := ⟨.empty⟩

/-- The pattern is a single name. -/
def Pattern.isName : Pattern → Bool
  | .name _ => true
  | _ => false

mutual

/-- Add the names that a pattern binds outside of defaults to a list of names, each once. -/
def Pattern.addNames : Pattern → List String → List String
  | .name bound, names => if names.contains bound then names else names ++ [bound]
  | .object properties rest, names =>
    addNamesOfOption rest (addNamesOfList properties names)
  | .array elements rest, names =>
    addNamesOfOption rest (addNamesOfElements elements names)
  | .withDefault _, names => names
  | .computed pattern, names => pattern.addNames names

/-- Add the names of a list of patterns. -/
def Pattern.addNamesOfList : List Pattern → List String → List String
  | [], names => names
  | pattern :: rest, names => addNamesOfList rest (pattern.addNames names)

/-- Add the names of the elements of a list pattern. -/
def Pattern.addNamesOfElements : List (Option Pattern) → List String → List String
  | [], names => names
  | element :: rest, names => addNamesOfElements rest (addNamesOfOption element names)

/-- Add the names of a pattern that may be absent. -/
def Pattern.addNamesOfOption : Option Pattern → List String → List String
  | none, names => names
  | some pattern, names => pattern.addNames names

end

mutual

/-- All names that a pattern binds, in order. -/
def Pattern.names : Pattern → List String
  | .name bound => [bound]
  | .object properties rest => namesOfList properties ++ namesOfOption rest
  | .array elements rest => namesOfElements elements ++ namesOfOption rest
  | .withDefault pattern | .computed pattern => pattern.names

/-- All names of a list of patterns. -/
def Pattern.namesOfList : List Pattern → List String
  | [] => []
  | pattern :: rest => pattern.names ++ namesOfList rest

/-- All names of the elements of a list pattern. -/
def Pattern.namesOfElements : List (Option Pattern) → List String
  | [] => []
  | element :: rest => namesOfOption element ++ namesOfElements rest

/-- All names of a pattern that may be absent. -/
def Pattern.namesOfOption : Option Pattern → List String
  | none => []
  | some pattern => pattern.names

end

/-- All names that parameters bind, in order. -/
def Parameters.names (parameters : Parameters) : List String :=
  parameters.items.flatMap (·.pattern.names) ++ Pattern.namesOfOption parameters.rest

/-- All names that declarations bind, in order. -/
def declaredNames (declarations : List (Pattern × Option Term)) : List String :=
  declarations.flatMap (·.1.names)

mutual

/-- The names that a statement makes known in the whole function around it. -/
def Statement.functionNames : Statement → List String
  | .declaration true declarations => declaredNames declarations
  | .block body => functionNamesOfList body
  | .branch _ consequent alternate =>
    consequent.functionNames ++ functionNamesOfOption alternate
  | .other names => names
  | _ => []

/-- The names that statements make known in the whole function around them. -/
def Statement.functionNamesOfList : List Statement → List String
  | [] => []
  | statement :: rest => statement.functionNames ++ functionNamesOfList rest

/-- The names that a statement which may be absent makes known in the whole function. -/
def Statement.functionNamesOfOption : Option Statement → List String
  | none => []
  | some statement => statement.functionNames

end

end Script
end ReactiveTemplate
