import ReactiveTemplate.Script.Statements

/-!
# Loop parameters

The parameters of the function that a loop applies to each item: their texts, and the names they
bind.
-/

namespace ReactiveTemplate
namespace Script

/-- The texts of the parameters and the names they bind. -/
structure LoopParameters where
  /-- Source text of each parameter. -/
  texts : List String
  /-- Bound names in order of first occurrence. -/
  names : List String
  deriving DecidableEq, Repr

/-- Read a list of parameters.  There must be at least one that is no rest parameter. -/
def loopParameters? (params : List Char) : Option LoopParameters :=
  let text := '(' :: params ++ ") => 0".toList
  match readProgram text with
  | some (.expression (.arrow parameters _) :: _) =>
    if parameters.items.isEmpty then none
    else
      some
        { texts := parameters.items.map fun item =>
            String.ofList ((text.take item.extent.stop).drop item.extent.start)
          names := parameters.items.foldl (fun names item => item.pattern.addNames names) [] }
  | _ => none

end Script
end ReactiveTemplate
