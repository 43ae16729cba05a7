/-!
# Sets of characters

A set of characters is a list of runs.  A run goes from its first to its last code point in steps
of one, or of two where capital and small letters alternate.
-/

namespace ReactiveTemplate
namespace Text

/-- The code points from `first` to `last` in steps of `step`. -/
structure CharRun where
  /-- Smallest code point of the run. -/
  first : Nat
  /-- Largest code point of the run. -/
  last : Nat
  /-- Distance between neighbours. -/
  step : Nat
  deriving DecidableEq, Repr

/-- The run contains the character. -/
def CharRun.contains (run : CharRun) (c : Char) : Bool :=
  run.first ≤ c.toNat && c.toNat ≤ run.last && (c.toNat - run.first) % run.step == 0

/-- A set of characters, given by its runs. -/
abbrev CharSet := List CharRun

/-- Some run of the set contains the character. -/
def CharSet.contains (set : CharSet) (c : Char) : Bool := set.any (CharRun.contains · c)

end Text
end ReactiveTemplate
