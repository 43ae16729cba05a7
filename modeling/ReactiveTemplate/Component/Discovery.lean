import ReactiveTemplate.Component.Definition
import ReactiveTemplate.Files.Tree

/-!
# Discovery

The library of a directory has the definitions of all files in it that can be read.  Files are taken
in order, so that of two definitions with one name the later counts.
-/

namespace ReactiveTemplate
namespace Component

/-- Read the definition in a file. -/
def readDefinition (tree : Files.Tree) (path : String) : Except Diagnostic Definition :=
  match tree.read path with
  | .error fault => .error (Fault.report (.unreadableFile fault.message) path {})
  | .ok source => Definition.ofSource (Files.componentName path) path source

/-- Put the definition in a file into the library, if it can be read. -/
def discoverFile (tree : Files.Tree) (library : Library) (path : String) : Library :=
  match readDefinition tree path with
  | .ok definition => library.insert definition
  | .error _ => library

/-- The library of a directory. -/
def discover (tree : Files.Tree) (directory : String) : Library :=
  (tree.definitionPaths directory).foldl (discoverFile tree) {}

end Component
end ReactiveTemplate
