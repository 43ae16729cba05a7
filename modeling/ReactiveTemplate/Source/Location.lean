/-!
# Source locations

A location is a line and a column, both counted from one.  Columns count characters.  Both are
32-bit words, so that counting past the largest word starts again at zero.
-/

namespace ReactiveTemplate

/-- A position in a source file. -/
structure Location where
  /-- Line number, counted from one. -/
  line : UInt32 := 1
  /-- Column number in characters, counted from one. -/
  column : UInt32 := 1
  deriving DecidableEq, Repr, Inhabited

namespace Location

/-- The first position of a file. -/
def start : Location := {}

/-- The position after reading one character. -/
def next (location : Location) (c : Char) : Location :=
  if c = '\n' then ⟨location.line + 1, 1⟩ else ⟨location.line, location.column + 1⟩

/-- The position after reading a text. -/
def advance (location : Location) (text : List Char) : Location := text.foldl next location

@[simp]
theorem advance_nil (location : Location) : location.advance [] = location := rfl

@[simp]
theorem advance_cons (location : Location) (c : Char) (rest : List Char) :
    location.advance (c :: rest) = (location.next c).advance rest := rfl

/-- Reading two texts in turn is reading their concatenation. -/
theorem advance_append (location : Location) (first second : List Char) :
    location.advance (first ++ second) = (location.advance first).advance second := by
  simp [advance]

/-- Locations are ordered by line, then by column. -/
def before (left right : Location) : Bool :=
  left.line < right.line || (left.line == right.line && left.column < right.column)

end Location
end ReactiveTemplate
