import ReactiveTemplate.Markup.Token

/-!
# Character references in short texts

Texts and attribute values that stand inside code are read by the rules of markup, so that they
mean the same as outside.
-/

namespace ReactiveTemplate
namespace Markup

/-- What is collected from tokens, backwards. -/
structure Collected where
  /-- The characters of text. -/
  text : List Char := []
  /-- The values of attributes. -/
  values : List String := []
  deriving Inhabited

/-- Collect what a token holds. -/
def Collected.take (collected : Collected) : Token → Collected
  | .character c => { collected with text := c :: collected.text }
  | .startTag tag | .endTag tag =>
    { collected with values := (tag.attributes.map (·.2)).reverse ++ collected.values }
  | .doctype _ | .comment _ | .null | .ending => collected

/-- Text and attribute values of a piece of markup. -/
def collect (text : List Char) : Collected :=
  ({ take := fun collected token => (collected.take token, .proceed)
     foreign := fun _ => false } : Consumer Collected).run {} text

/-- A text with its character references replaced. -/
def decodeText (text : List Char) : List Char :=
  if text.contains '&' then (collect text).text.reverse else text

/-- A value in quotes inside a tag. -/
def valueTag (value : List Char) : List Char :=
  "<x v=\"".toList ++ value.flatMap (fun c => if c = '"' then "&quot;".toList else [c]) ++
    "\">".toList

/-- An attribute value with its character references replaced. -/
def decodeValue (value : List Char) : List Char :=
  if value.contains '&' then
    ((collect (valueTag value)).values.getLast?.map String.toList).getD value
  else value

end Markup
end ReactiveTemplate
