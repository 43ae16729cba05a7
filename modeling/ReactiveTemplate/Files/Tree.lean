import ReactiveTemplate.Files.Path

/-!
# Files

The files that a compiler can read, as data: contents by place.  A place is the list of the names on
the way to it.
-/

namespace ReactiveTemplate
namespace Files

/-- The names on the way to a file or directory. -/
abbrev Place := List String

/-- The files and directories at hand. -/
structure Tree where
  /-- The working directory, where paths start that do not start at the root. -/
  home : Place := ["work"]
  /-- Files with their contents. -/
  files : List (Place × ByteArray) := []
  /-- Directories. -/
  directories : List Place := []
  deriving Inhabited

/-- What a path leads to. -/
inductive Entry where
  /-- A file with its contents. -/
  | file (place : Place) (content : ByteArray)
  /-- A directory. -/
  | directory (place : Place)
  /-- Nothing. -/
  | missing
  /-- Something inside a file. -/
  | insideFile

/-- Why a file cannot be read as text. -/
inductive ReadFault where
  /-- There is no such file. -/
  | missing
  /-- The path leads to a directory. -/
  | isDirectory
  /-- The path leads into a file. -/
  | notDirectory
  /-- The contents are no text. -/
  | notText
  deriving DecidableEq, Repr

/-- The wording of a read fault. -/
def ReadFault.message : ReadFault → String
  | .missing => "No such file or directory (os error 2)"
  | .isDirectory => "Is a directory (os error 21)"
  | .notDirectory => "Not a directory (os error 20)"
  | .notText => "stream did not contain valid UTF-8"

namespace Tree

/-- The working directory and all above it are there, whatever is written. -/
def isDirectory (tree : Tree) (place : Place) : Bool :=
  place.isPrefixOf tree.home || tree.directories.contains place

/-- What is at a place. -/
def entry (tree : Tree) (place : Place) : Entry :=
  match tree.files.lookup place with
  | some content => .file place content
  | none => if tree.isDirectory place then .directory place else .missing

/-- Follow the parts of a path, as they are written, from an entry on.  The root is above itself. -/
def follow (tree : Tree) : Entry → List (List Char) → Entry
  | start, [] => start
  | .directory place, part :: rest =>
    match laterPart? part with
    | some (.name name) => follow tree (tree.entry (place ++ [name])) rest
    | some .above => follow tree (.directory place.dropLast) rest
    | _ => follow tree (.directory place) rest
  | .file .., _ :: _ => .insideFile
  | .missing, _ :: _ => .missing
  | .insideFile, _ :: _ => .insideFile

/-- Where a path starts: at the root or in the working directory. -/
def origin (tree : Tree) (path : String) : Place :=
  if path.toList.head? = some '/' then [] else tree.home

/-- What a path leads to. -/
def find (tree : Tree) (path : String) : Entry :=
  if path.isEmpty then .missing
  else tree.follow (.directory (tree.origin path)) (splitSlashes path.toList)

/-- The text of the file that a path leads to. -/
def read (tree : Tree) (path : String) : Except ReadFault String :=
  match tree.find path with
  | .file _ content =>
    match String.fromUTF8? content with
    | some text => .ok text
    | none => .error .notText
  | .directory _ => .error .isDirectory
  | .missing => .error .missing
  | .insideFile => .error .notDirectory

/-- The place that the parts of a path name, from the given place on. -/
def placeFrom : Place → List Part → Place
  | place, [] => place
  | place, .name text :: rest => placeFrom (place ++ [text]) rest
  | place, .above :: rest => placeFrom place.dropLast rest
  | place, .here :: rest => placeFrom place rest
  | _, .root :: rest => placeFrom [] rest

/-- The place that a path names. -/
def placeOf (tree : Tree) (path : String) : Place := placeFrom tree.home (parts path)

/-- The directories on the way to a place. -/
def waysTo (place : Place) : List Place :=
  (List.range place.length).map fun length => place.take length

/-- Write a file, and make the directories on the way to it. -/
def write (tree : Tree) (path : String) (content : ByteArray) : Tree :=
  let place := tree.placeOf path
  { tree with
    files := tree.files.filter (·.1 != place) ++ [(place, content)]
    directories := tree.directories ++ waysTo place }

/-- Delete a file; tells whether it was there. -/
def delete (tree : Tree) (path : String) : Bool × Tree :=
  match tree.find path with
  | .file place _ => (true, { tree with files := tree.files.filter (·.1 != place) })
  | _ => (false, tree)

/-- The tree of the given files, seen from a working directory. -/
def ofList (files : List (String × ByteArray)) (home : String := "/work") : Tree :=
  files.foldl (fun tree (path, content) => tree.write path content)
    { home := placeFrom [] (parts home) }

/-- The paths of all files below a directory, or the path itself if it leads to a file. -/
def pathsBelow (tree : Tree) (path : String) : List String :=
  match tree.find path with
  | .file .. => [path]
  | .directory place =>
    (tree.files.filter fun (file, _) => place.isPrefixOf file && place.length < file.length).map
      fun (file, _) => (file.drop place.length).foldl join path
  | .missing | .insideFile => []

/-- The paths of all component definitions below a directory, in order. -/
def definitionPaths (tree : Tree) (path : String) : List String :=
  ((tree.pathsBelow path).filter isDefinition).mergeSort fun a b => partsLe (parts a) (parts b)

end Tree
end Files
end ReactiveTemplate
