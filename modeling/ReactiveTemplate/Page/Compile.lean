import ReactiveTemplate.Component.Resolution
import ReactiveTemplate.Page.Check
import ReactiveTemplate.Page.Output

/-!
# Compilation

A page is compiled in five steps: its template is read, expressions with markup become fragments,
usages of components become instances, the tree is checked and written out.
-/

namespace ReactiveTemplate
namespace Page

/-- A compiled page. -/
structure Compiled where
  /-- The markup. -/
  html : String
  /-- The bindings. -/
  bindings : List Binding
  /-- The styles of the page and of the components it uses. -/
  styles : List String
  /-- The scripts of the page and of the components it uses, one after the other. -/
  script : Option String
  /-- All registered expressions. -/
  expressions : List Expression
  /-- Components in order of first use. -/
  used : List String
  deriving Repr

/-- Scripts, one after the other. -/
def joinScripts (scripts : List String) : Option String :=
  if scripts.isEmpty then none else some ("\n\n".intercalate scripts)

/-- Compile a page with the given definitions. -/
def compile (source file : String) (library : Library) : Except Diagnostic Compiled := do
  let (template, registry) ← Template.parse source file {}
  let (nodes, registry) ← Fragment.lower template.nodes file registry
  let (resolution, registry) ← Component.resolve library file nodes registry
  check resolution.nodes registry resolution.expectations file
  let output := emit resolution.nodes
  let own := template.script.toList.map (·.raw)
  pure
    { html := output.html
      bindings := output.bindings
      styles := template.styles ++ resolution.styles
      script := joinScripts (own ++ resolution.scripts.map (·.2.raw))
      expressions := registry.expressions
      used := resolution.used }

/-- Compile pages, given as file and source, each on its own. -/
def compileAll (pages : List (String × String)) (library : Library) :
    List (Except Diagnostic Compiled) :=
  pages.map fun (file, source) => compile source file library

end Page
end ReactiveTemplate
