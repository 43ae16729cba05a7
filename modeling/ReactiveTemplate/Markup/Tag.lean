import ReactiveTemplate.Text.Case
import ReactiveTemplate.Text.Uppercase

/-!
# Tag names

Which tags stand for components, and which elements never have children.
-/

namespace ReactiveTemplate
namespace Markup

/-- The elements that never have children. -/
def voidElements : List String :=
  ["area", "base", "br", "col", "embed", "hr", "img", "input", "link", "meta", "param", "source",
    "track", "wbr"]

/-- The element never has children, whatever the case of its name. -/
def isVoidElement (tag : String) : Bool := voidElements.contains (Text.asciiLowercase tag)

/-- A tag stands for a component if it begins with a capital letter or has a dot in it. -/
def isComponentTag (tag : String) : Bool :=
  (match tag.toList with
    | first :: _ => Text.isUppercase first
    | [] => false) || tag.toList.contains '.'

end Markup
end ReactiveTemplate
