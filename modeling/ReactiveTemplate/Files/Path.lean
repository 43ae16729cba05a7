/-!
# Paths

A path is a text; what it means is the list of its parts.  Empty parts count for nothing, and neither
does a dot that is not the first part, so that two texts can be the same path.
-/

namespace ReactiveTemplate
namespace Files

/-- A part of a path. -/
inductive Part where
  /-- The root of all files. -/
  | root
  /-- The current directory. -/
  | here
  /-- The directory above. -/
  | above
  /-- A file or directory of the given name. -/
  | name (text : String)
  deriving DecidableEq, Repr

/-- Parts are ordered: root, here, above, then names by their characters. -/
def Part.le : Part → Part → Bool
  | .root, _ => true
  | _, .root => false
  | .here, _ => true
  | _, .here => false
  | .above, _ => true
  | _, .above => false
  | .name left, .name right => left ≤ right

theorem Part.le_total (left right : Part) : left.le right = true ∨ right.le left = true := by
  cases left <;> cases right <;> simp [Part.le, String.le_total]

/-- Paths are ordered part by part. -/
def partsLe : List Part → List Part → Bool
  | [], _ => true
  | _ :: _, [] => false
  | left :: lefts, right :: rights =>
    if left = right then partsLe lefts rights else left.le right

/-- Cut a text at every slash. -/
def splitSlashes : List Char → List (List Char)
  | [] => [[]]
  | c :: rest =>
    if c = '/' then [] :: splitSlashes rest
    else
      match splitSlashes rest with
      | first :: others => (c :: first) :: others
      | [] => [[c]]

/-- A part that is not the first one; nothing for an empty part and for a dot. -/
def laterPart? (text : List Char) : Option Part :=
  if text.isEmpty || text = ['.'] then none
  else if text = ['.', '.'] then some .above
  else some (.name (String.ofList text))

/-- The parts of a path. -/
def parts (path : String) : List Part :=
  match splitSlashes path.toList with
  | [] => []
  | first :: rest =>
    let others := rest.filterMap laterPart?
    if first.isEmpty && !rest.isEmpty then .root :: others
    else if first = ['.'] then .here :: others
    else (laterPart? first).toList ++ others

/-- The path of an entry of a directory. -/
def join (directory name : String) : String :=
  if directory.isEmpty then name
  else if directory.toList.getLast? = some '/' then directory ++ name
  else directory ++ "/" ++ name

/-- The name of the file that a path leads to. -/
def fileName? (path : String) : Option String :=
  match (parts path).getLast? with
  | some (.name text) => some text
  | _ => none

/-- A file name up to its last dot, and the extension after it.  A dot that comes first belongs to
the name. -/
def splitExtension (name : String) : String × Option String :=
  let reversed := name.toList.reverse
  let extension := reversed.takeWhile (· != '.')
  match reversed.drop extension.length with
  | _ :: [] | [] => (name, none)
  | _ :: stem => (String.ofList stem.reverse, some (String.ofList extension.reverse))

/-- The path leads to a file with the extension of component definitions. -/
def isDefinition (path : String) : Bool :=
  ((fileName? path).bind fun name => (splitExtension name).2) == some "zen"

/-- The name of the component that is defined in a file: that of the file, without the extension. -/
def componentName (path : String) : String :=
  ((fileName? path).map fun name => (splitExtension name).1).getD ""

end Files
end ReactiveTemplate
