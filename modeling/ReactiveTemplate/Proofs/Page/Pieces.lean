import ReactiveTemplate.Page.Output

/-!
# Pieces of a written page

The markup of a tree is a sequence of tags, texts and document types.  `nodesPieces` lists them, and
`nodesHtml_eq` says that the markup is what the pieces are written as, one after the other.
-/

namespace ReactiveTemplate
namespace Page

/-- An attribute in a tag: a name, and a value unless the name stands alone. -/
structure Field where
  /-- The name. -/
  name : List Char
  /-- The value. -/
  value : Option (List Char)
  deriving DecidableEq, Repr

namespace Field

/-- The text of a field, with a space before it. -/
def html (field : Field) : List Char :=
  match field.value with
  | none => ' ' :: field.name
  | some value => assignment field.name value

/-- A field with a value. -/
def valued (name : String) (value : List Char) : Field := ⟨name.toList, some value⟩

/-- The field of an attribute. -/
def ofAttribute (attr : Attribute) : Field :=
  match formOf attr with
  | .bare name => ⟨name, none⟩
  | .valued name value => ⟨name, some value⟩
  | .marker target e => ⟨"data-zen-attr-".toList ++ target, some e.id.toList⟩

/-- The field that says how an element is displayed. -/
def display (style : String) : Field := valued "style" style.toList

/-- The fields of one of the two branches of a choice. -/
def ofBranch (id name style : String) : List Field :=
  [valued "data-zen-cond" id.toList, valued "data-zen-branch" name.toList, display style]

/-- The fields of the element that holds the body of a loop. -/
def ofLoop (id : String) (binder : LoopBinder) : List Field :=
  valued "data-zen-loop" id.toList :: valued "data-zen-item" binder.item.toList ::
    binder.index.toList.map fun index => valued "data-zen-index" index.toList

theorem html_ofAttribute (attr : Attribute) : (ofAttribute attr).html = attributeHtml attr := by
  unfold ofAttribute attributeHtml
  cases formOf attr with
  | bare name | valued name value | marker target e => rfl

theorem html_valued (name : String) (value : List Char) :
    (valued name value).html = assignment name.toList value := rfl

theorem html_ofAttributes (attributes : List Attribute) :
    (attributes.map ofAttribute).flatMap html = attributes.flatMap attributeHtml := by
  induction attributes with
  | nil => rfl
  | cons attr rest induction =>
      rw [List.map_cons, List.flatMap_cons, List.flatMap_cons, html_ofAttribute, induction]

theorem html_shown : (display "display: contents;").html = shown := by
  decide

theorem html_hidden : (display "display: none;").html = hidden := by
  decide

theorem html_ofLoop (id : String) (binder : LoopBinder) :
    (ofLoop id binder).flatMap html = loopAttributes id binder := by
  cases index_eq : binder.index with
  | none => simp [ofLoop, loopAttributes, html_valued, index_eq]
  | some index => simp [ofLoop, loopAttributes, html_valued, index_eq]

end Field

/-- A piece of markup. -/
inductive Piece where
  /-- An opening tag. -/
  | opening (tag : List Char) (fields : List Field)
  /-- A closing tag. -/
  | closing (tag : List Char)
  /-- Text between tags. -/
  | text (value : List Char)
  /-- Text that is written as it stands. -/
  | raw (value : List Char)
  /-- A document type declaration. -/
  | doctype (name : List Char)
  deriving DecidableEq, Repr

namespace Piece

/-- The text of a piece. -/
def html : Piece → List Char
  | opening tag fields => openTag tag (fields.flatMap Field.html)
  | closing tag => closeTag tag
  | text value => escapeText value
  | raw value => value
  | doctype name => "<!DOCTYPE ".toList ++ name ++ ['>']

/-- Pieces between an opening tag and its closing tag. -/
def enclose (tag : String) (fields : List Field) (content : List Piece) : List Piece :=
  opening tag.toList fields :: (content ++ [closing tag.toList])

theorem html_enclose (tag : String) (fields : List Field) (content : List Piece) :
    (enclose tag fields content).flatMap html =
      wrap tag (fields.flatMap Field.html) (content.flatMap html) := by
  rw [enclose, List.flatMap_cons, List.flatMap_append, List.flatMap_cons, List.flatMap_nil,
    List.append_nil, wrap, List.append_assoc]
  rfl

end Piece

mutual

/-- The pieces of a node. -/
def nodePieces : Node → List Piece
  | .doctype name _ _ _ => [.doctype (if name.isEmpty then "html" else name).toList]
  | .text value _ => [.text value.toList]
  | .element tag attributes children _ =>
    let fields := attributes.map Field.ofAttribute
    if Markup.isVoidElement tag then [.opening tag.toList fields]
    else if holdsRawText tag then Piece.enclose tag fields (rawPieces children)
    else Piece.enclose tag fields (nodesPieces children)
  | .expression e =>
    Piece.enclose "span"
      [.valued "data-zen-text" e.id.toList, .display "display: contents;"] []
  | .conditional id _ consequent alternate _ =>
    Piece.enclose "div" (Field.ofBranch id "true" "display: contents;") (nodesPieces consequent) ++
      Piece.enclose "div" (Field.ofBranch id "false" "display: none;") (nodesPieces alternate)
  | .optional id _ branch _ =>
    Piece.enclose "div" [.valued "data-zen-opt" id.toList, .display "display: contents;"]
      (nodesPieces branch)
  | .loop id _ binder body _ => Piece.enclose "template" (Field.ofLoop id binder) (nodesPieces body)
  | .component .. => []

/-- The pieces of a list of nodes. -/
def nodesPieces : List Node → List Piece
  | [] => []
  | node :: rest => nodePieces node ++ nodesPieces rest

/-- The pieces of a list of nodes where text is no markup. -/
def rawPieces : List Node → List Piece
  | [] => []
  | .text value _ :: rest => .raw value.toList :: rawPieces rest
  | node :: rest => nodePieces node ++ rawPieces rest

end

theorem html_single (piece : Piece) : [piece].flatMap Piece.html = piece.html :=
  List.append_nil piece.html

mutual

-- The markup of each kind of node is stated in full: it is what the definition computes.
theorem nodeHtml_eq : ∀ node : Node, nodeHtml node = (nodePieces node).flatMap Piece.html
  | .doctype name _ _ _ => by
      rw [nodePieces, html_single]
      rfl
  | .text value _ => by
      rw [nodePieces, html_single]
      rfl
  | .element tag attributes children site => by
      have own : nodeHtml (.element tag attributes children site) =
          if Markup.isVoidElement tag then openTag tag.toList (attributes.flatMap attributeHtml)
          else if holdsRawText tag then
            wrap tag (attributes.flatMap attributeHtml) (rawHtml children)
          else wrap tag (attributes.flatMap attributeHtml) (nodesHtml children) := rfl
      rw [own, nodePieces, ← Field.html_ofAttributes]
      split
      · rw [html_single]
        rfl
      · split
        · rw [Piece.html_enclose, rawHtml_eq children]
        · rw [Piece.html_enclose, nodesHtml_eq children]
  | .expression e => by
      have own : nodeHtml (.expression e) =
          wrap "span" (assignment "data-zen-text".toList e.id.toList ++ shown) [] := rfl
      rw [own, nodePieces, Piece.html_enclose]
      simp [Field.html_valued, Field.html_shown]
  | .conditional id condition consequent alternate site => by
      have own : nodeHtml (.conditional id condition consequent alternate site) =
          wrap "div" (branchAttributes id "true" shown) (nodesHtml consequent) ++
            wrap "div" (branchAttributes id "false" hidden) (nodesHtml alternate) := rfl
      rw [own, nodePieces, List.flatMap_append, Piece.html_enclose, Piece.html_enclose,
        nodesHtml_eq consequent, nodesHtml_eq alternate]
      simp [Field.ofBranch, branchAttributes, Field.html_valued, Field.html_shown,
        Field.html_hidden]
  | .optional id condition branch site => by
      have own : nodeHtml (.optional id condition branch site) =
          wrap "div" (assignment "data-zen-opt".toList id.toList ++ shown) (nodesHtml branch) := rfl
      rw [own, nodePieces, Piece.html_enclose, nodesHtml_eq branch]
      simp [Field.html_valued, Field.html_shown]
  | .loop id source binder body site => by
      have own : nodeHtml (.loop id source binder body site) =
          wrap "template" (loopAttributes id binder) (nodesHtml body) := rfl
      rw [own, nodePieces, Piece.html_enclose, nodesHtml_eq body, Field.html_ofLoop]
  | .component .. => by
      rw [nodePieces]
      rfl

/-- The markup of a tree is the text of its pieces. -/
theorem nodesHtml_eq : ∀ nodes : List Node, nodesHtml nodes = (nodesPieces nodes).flatMap Piece.html
  | [] => by
      rw [nodesPieces]
      rfl
  | node :: rest => by
      have own : nodesHtml (node :: rest) = nodeHtml node ++ nodesHtml rest := rfl
      rw [own, nodesPieces, List.flatMap_append, nodeHtml_eq node, nodesHtml_eq rest]

theorem rawHtml_eq : ∀ nodes : List Node, rawHtml nodes = (rawPieces nodes).flatMap Piece.html
  | [] => by
      rw [rawPieces]
      rfl
  | node :: rest => by
      cases node with
      | text value site =>
          have own : rawHtml (.text value site :: rest) = value.toList ++ rawHtml rest := rfl
          rw [own, rawPieces, List.flatMap_cons, rawHtml_eq rest]
          rfl
      | _ =>
          rw [rawPieces, List.flatMap_append, ← nodeHtml_eq, ← rawHtml_eq rest]
          · rfl
          · nofun

end

end Page
end ReactiveTemplate
