/-!
# Reactive scopes

A scope lists the variables that the enclosing loops bind, and names the innermost of these loops
by its id.  Scopes only ever grow: merging keeps every variable of both sides in order of first
occurrence and keeps the loop of the left side if it has one.
-/

namespace ReactiveTemplate

/-- The variables in reach of a site, and the loop that brought the site under a loop. -/
structure Scope where
  /-- Names bound by enclosing loops, without repetition. -/
  bound : List String
  /-- Id of the loop whose items the site is repeated for. -/
  loop : Option String
  deriving DecidableEq, Repr

namespace Scope

/-- Append the names that are not there yet, in order. -/
def addNames (names added : List String) : List String :=
  added.foldl (fun acc name => if acc.contains name then acc else acc ++ [name]) names

/-- Widen a scope by another one. -/
def widen (own outer : Scope) : Scope :=
  { bound := addNames own.bound outer.bound
    loop := own.loop.or outer.loop }

/-- Widen a possibly absent scope by another one; an absent scope changes nothing. -/
def merge : Option Scope → Option Scope → Option Scope
  | none, outer => outer
  | own, none => own
  | some own, some outer => some (own.widen outer)

/-- The variables of a possibly absent scope. -/
def names : Option Scope → List String
  | none => []
  | some scope => scope.bound

/-- Every name is a variable of the scope. -/
def containsAll (scope : Scope) (names : List String) : Bool :=
  names.all scope.bound.contains

/-- The scope inside a loop: the outer variables, then the loop's own. -/
def insideLoop (outer : Option Scope) (id : String) (added : List String) : Scope :=
  { bound := addNames (names outer) added, loop := some id }

end Scope
end ReactiveTemplate
