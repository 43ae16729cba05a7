import ReactiveTemplate.Source.Location
import ReactiveTemplate.Text.Letter
import ReactiveTemplate.Text.Number
import ReactiveTemplate.Text.Offset

/-!
# Placeholders

A template is brought into plain markup before it is read as a document.  Code in braces leaves a
numbered placeholder behind: an empty template element between tags, a word inside a tag.  Tags
carry their location, and usages of components their name, in attributes of their own.
-/

namespace ReactiveTemplate
namespace Template

/-- The tag that stands for every component usage. -/
def usageTag : String := "zen-component"

/-- The attribute that carries the name of a component. -/
def nameAttribute : String := "data-zen-orig-name"

/-- The attribute that carries the location of a tag. -/
def locationAttribute : String := "data-zen-loc"

/-- The attribute that carries the number of an expression. -/
def numberAttribute : String := "data-zen-expr"

/-- The placeholder of an expression inside a tag. -/
def wordPlaceholder (number : Nat) : String := "__ZENITH_EXPR_" ++ toString number ++ "__"

/-- The placeholder of an expression between tags. -/
def elementPlaceholder (number : Nat) : String :=
  "<template " ++ numberAttribute ++ "=\"" ++ toString number ++ "\"></template>"

/-- The attribute that carries the given location. -/
def locationMark (location : Location) : String :=
  " " ++ locationAttribute ++ "=\"" ++ toString location.line ++ ":" ++ toString location.column ++
    "\""

/-- The location that an attribute value carries. -/
def location? (value : String) : Option Location :=
  let text := value.toList
  let line := text.takeWhile (· != ':')
  match text.drop line.length with
  | ':' :: column => do
    let line ← Text.word32? line
    let column ← Text.word32? column
    pure ⟨line, column⟩
  | _ => none

/-- A piece of a text: plain characters, or a placeholder with the digits in it. -/
inductive Piece where
  /-- Plain characters. -/
  | plain (text : List Char)
  /-- A placeholder. -/
  | placeholder (digits : List Char)
  deriving DecidableEq, Repr

/-- The digits of the placeholder that the text starts with, and the length of the placeholder. -/
def placeholder? (opening closing : List Char) (text : List Char) : Option (List Char × Nat) :=
  if opening.isPrefixOf text then
    let after := text.drop opening.length
    let digits := after.takeWhile Text.isDecimalDigit
    if !digits.isEmpty && closing.isPrefixOf (after.drop digits.length) then
      some (digits, opening.length + digits.length + closing.length)
    else none
  else none

/-- Put a character before pieces. -/
def Piece.cons (c : Char) : List Piece → List Piece
  | .plain text :: rest => .plain (c :: text) :: rest
  | pieces => .plain [c] :: pieces

/-- Cut a text into plain characters and placeholders; `skip` characters belong to a placeholder
that has been read. -/
def piecesFrom (opening closing : List Char) : Nat → List Char → List Piece
  | _, [] => []
  | skip + 1, _ :: rest => piecesFrom opening closing skip rest
  | 0, c :: rest =>
    match placeholder? opening closing (c :: rest) with
    | some (digits, length) => .placeholder digits :: piecesFrom opening closing (length - 1) rest
    | none => Piece.cons c (piecesFrom opening closing 0 rest)

/-- Cut an attribute value into plain characters and placeholders. -/
def valuePieces (value : String) : List Piece :=
  piecesFrom "__ZENITH_EXPR_".toList "__".toList 0 value.toList

/-- Cut a text into plain characters and placeholders. -/
def textPieces (text : String) : List Piece :=
  piecesFrom "<template data-zen-expr=\"".toList "\"></template>".toList 0 text.toList

end Template
end ReactiveTemplate
