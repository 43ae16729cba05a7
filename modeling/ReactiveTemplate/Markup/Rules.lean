import ReactiveTemplate.Markup.Construction

/-!
# The rules of documents

What each token does to a document under construction, mode by mode.  A rule may hand its token to
the rules of another mode, and then says so in its reply.
-/

namespace ReactiveTemplate
namespace Markup

/-- What a rule makes of a token. -/
structure Reply where
  /-- The document afterwards. -/
  next : Construction
  /-- How the text after the token is to be read. -/
  feedback : Feedback := .proceed
  /-- The token is to be taken again, by the rules of the new mode. -/
  again : Bool := false
  deriving Inhabited

namespace Construction

/-- The token is used up. -/
def done (c : Construction) : Reply := { next := c }

/-- The token is to be taken again in the given mode. -/
def retry (c : Construction) (mode : Mode) : Reply := { next := { c with mode }, again := true }

/-- Take tokens in the given mode from now on. -/
def goTo (c : Construction) (mode : Mode) : Construction := { c with mode }

/-- A set of frames can no longer take the place of the body. -/
def forbidFrames (c : Construction) : Construction := { c with framesAllowed := false }

/-- Open an element that holds text only. -/
def openRaw (c : Construction) (tag : Tag) (kind : RawKind) : Reply :=
  let c := c.openTag tag
  { next := { c with returnMode := c.mode, mode := .text }, feedback := .raw kind }

/-- White space between elements. -/
def isFiller (c : Char) : Bool := isSpace c || c == '\r'

/-- The tag of an input that is not shown. -/
def isHidden (tag : Tag) : Bool :=
  match tag.attributes.find? (·.1 == "type") with
  | some (_, value) => value.map Char.toLower == "hidden"
  | none => false

/-- Close the innermost template. -/
def closeTemplate (c : Construction) : Construction :=
  if c.hasOpen "template" then
    let c := ((c.closeImplied thoroughlyImpliedEnds).popNamed "template").clearFormatting
    { c with templateModes := c.templateModes.tail }.fitMode
  else c

/-- Close the innermost template at the end of the text. -/
def endTemplate (c : Construction) : Reply :=
  if c.hasOpen "template" then
    let c := (c.popNamed "template").clearFormatting
    let c := { c with templateModes := c.templateModes.tail }.fitMode
    c.retry c.mode
  else c.done

/-- Give the root the attributes of another tag for it. -/
def mergeRoot (c : Construction) (tag : Tag) : Construction :=
  if c.hasOpen "template" then c
  else { c with store := c.store.addAttributes (c.opened.getLastD 0) tag.attributes }

/-! ## The head -/

/-- Tags that stand in the head have rules that other modes use too. -/
def headTag (c : Construction) (tag : Tag) : Reply :=
  if ["base", "basefont", "bgsound", "link", "meta"].contains tag.name then (c.addEmpty tag).done
  else if tag.name = "title" then c.openRaw tag .references
  else if ["noframes", "style", "noscript"].contains tag.name then c.openRaw tag .plain
  else if tag.name = "script" then c.openRaw tag .script
  else
    let c := (c.openTag tag).mark.forbidFrames
    { c with mode := .inTemplate, templateModes := .inTemplate :: c.templateModes }.done

/-- In the head. -/
def inHead (c : Construction) (token : Token) : Reply :=
  let leave := c.pop.retry .afterHead
  match token with
  | .character char => if isFiller char then (c.addChar char).done else leave
  | .comment text => (c.addComment text).done
  | .startTag tag =>
    if tag.name = "html" then (c.mergeRoot tag).done
    else if headElements.contains tag.name || tag.name = "noscript" then c.headTag tag
    else if tag.name = "head" then c.done
    else leave
  | .endTag tag =>
    if tag.name = "head" then (c.pop.goTo .afterHead).done
    else if ["body", "html", "br"].contains tag.name then leave
    else if tag.name = "template" then c.closeTemplate.done
    else c.done
  | _ => leave

/-! ## The body -/

/-- Close the item that a new item of the same kind follows. -/
def closeItem (c : Construction) (names : List String) : Construction :=
  let bound := specialElements.filter fun name => !(["address", "div", "p"].contains name)
  if reachable (c.isOneOf names) (c.isOneOf bound) c.opened then
    match c.opened.find? (c.isOneOf names) with
    | some node =>
      let name := (c.nameOf node).2
      (c.closeImpliedExcept name).popNamed name
    | none => c
  else c

/-- Open an element of a foreign vocabulary. -/
def openForeign (c : Construction) (vocabulary : Vocabulary) (name : String) (tag : Tag) :
    Construction :=
  let attributes := spellAttributes vocabulary tag.attributes
  if tag.selfClosing then (c.insertClosed vocabulary name attributes).2
  else (c.insertOpen vocabulary name attributes).2

/-- Make an element of the body that has no content. -/
def bodyEmpty (c : Construction) (tag : Tag) : Construction :=
  let c := c.reopenFormatting.addEmpty tag
  if tag.name = "input" ∧ isHidden tag then c else c.forbidFrames

/-- Open a list of options. -/
def openSelect (c : Construction) (tag : Tag) : Construction :=
  let c := (c.reopenFormatting.openTag tag).forbidFrames
  if [.inTable, .inCaption, .inTableBody, .inRow, .inCell].contains c.mode then
    c.goTo .inSelectInTable
  else c.goTo .inSelect

/-- Another tag for the body: it gets the attributes that it does not have yet. -/
def mergeBody (c : Construction) (tag : Tag) : Construction :=
  match c.body? with
  | some body =>
    if c.hasOpen "template" then c
    else { c with store := c.store.addAttributes body tag.attributes }.forbidFrames
  | none => c

/-- A set of frames takes the place of the body. -/
def openFrames (c : Construction) (tag : Tag) : Construction :=
  if !c.framesAllowed then c
  else
    match c.body? with
    | some body =>
      let c := { c with store := c.store.detach body, opened := [c.opened.getLastD 0] }
      (c.openTag tag).goTo .inFrameset
    | none => c

/-- Open a form, unless one is open. -/
def openForm (c : Construction) (tag : Tag) : Construction :=
  let inTemplate := c.hasOpen "template"
  if c.form.isSome && !inTemplate then c
  else
    let c := c.closeOpenParagraph.openTag tag
    if inTemplate then c else { c with form := some c.current }

/-- Opening tags of the body that close nothing but a paragraph, an item or a heading. -/
def bodyBlock? (c : Construction) (tag : Tag) : Option Reply :=
  let name := tag.name
  if blockElements.contains name then some (c.closeOpenParagraph.openTag tag).done
  else if headings.contains name then
    let c := c.closeOpenParagraph
    let c := if c.currentIn headings then c.pop else c
    some (c.openTag tag).done
  else if name = "pre" ∨ name = "listing" then
    some { (c.closeOpenParagraph.openTag tag).forbidFrames with dropLineFeed := true }.done
  else if name = "form" then some (c.openForm tag).done
  else if name = "li" then
    some ((c.forbidFrames.closeItem ["li"]).closeOpenParagraph.openTag tag).done
  else if name = "dd" ∨ name = "dt" then
    some ((c.forbidFrames.closeItem ["dd", "dt"]).closeOpenParagraph.openTag tag).done
  else if name = "plaintext" then
    some { next := c.closeOpenParagraph.openTag tag, feedback := .plaintext }
  else if name = "table" then
    let c := if c.old then c else c.closeOpenParagraph
    some (((c.openTag tag).forbidFrames).goTo .inTable).done
  else if name = "hr" then some ((c.closeOpenParagraph.addEmpty tag).forbidFrames).done
  else if name = "xmp" then
    some (c.closeOpenParagraph.reopenFormatting.forbidFrames.openRaw tag .plain)
  else none

/-- Opening tags of formatting elements and links. -/
def bodyFormatting? (c : Construction) (tag : Tag) : Option Reply :=
  if tag.name = "a" then some (c.closeOpenLink.reopenFormatting.openFormatting tag).done
  else if formattingElements.contains tag.name then
    some (c.reopenFormatting.openFormatting tag).done
  else if tag.name = "nobr" then
    let c := c.reopenFormatting
    let c := if c.inScope "nobr" then (c.closeFormatting "nobr").reopenFormatting else c
    some (c.openFormatting tag).done
  else none

/-- Opening tags of elements inside a line. -/
def bodyInline (c : Construction) (tag : Tag) : Reply :=
  let name := tag.name
  if name = "button" then
    let c := if c.inScope "button" then (c.closeImplied impliedEnds).popNamed "button" else c
    ((c.reopenFormatting.openTag tag).forbidFrames).done
  else if ["applet", "marquee", "object"].contains name then
    ((c.reopenFormatting.openTag tag).mark.forbidFrames).done
  else if ["area", "br", "embed", "img", "keygen", "wbr", "input"].contains name then
    (c.bodyEmpty tag).done
  else if ["param", "source", "track"].contains name then (c.addEmpty tag).done
  else if name = "image" then (c.bodyEmpty { tag with name := "img" }).done
  else if name = "textarea" then
    let reply := c.forbidFrames.openRaw tag .references
    { reply with next := { reply.next with dropLineFeed := true } }
  else if name = "iframe" then c.forbidFrames.openRaw tag .plain
  else if name = "noembed" ∨ name = "noscript" then c.openRaw tag .plain
  else if name = "select" then (c.openSelect tag).done
  else if name = "optgroup" ∨ name = "option" then
    let c := if c.currentIs "option" then c.pop else c
    (c.reopenFormatting.openTag tag).done
  else if name = "rb" ∨ name = "rtc" then
    let c := if c.inScope "ruby" then c.closeImplied impliedEnds else c
    (c.openTag tag).done
  else if name = "rp" ∨ name = "rt" then
    let c := if c.inScope "ruby" then c.closeImpliedExcept "rtc" else c
    (c.openTag tag).done
  else if name = "math" then (c.openForeign .mathml name tag).done
  else if name = "svg" then (c.openForeign .svg name tag).done
  else if ["caption", "col", "colgroup", "frame", "head", "tbody", "td", "tfoot", "th", "thead",
      "tr"].contains name then c.done
  else (c.reopenFormatting.openTag tag).done

/-- An opening tag in the body. -/
def bodyStart (c : Construction) (tag : Tag) : Reply :=
  if tag.name = "html" then (c.mergeRoot tag).done
  else if headElements.contains tag.name then c.headTag tag
  else if tag.name = "body" then (c.mergeBody tag).done
  else if tag.name = "frameset" then (c.openFrames tag).done
  else ((c.bodyBlock? tag).or (c.bodyFormatting? tag)).getD (c.bodyInline tag)

/-- Close the open form. -/
def closeForm (c : Construction) : Construction :=
  if c.hasOpen "template" then
    if c.inScope "form" then (c.closeImplied impliedEnds).popNamed "form" else c
  else
    match c.form with
    | none => c
    | some node =>
      let c := { c with form := none }
      if c.inScopeWhere (· == node) then (c.closeImplied impliedEnds).close node else c

/-- A closing tag in the body. -/
def bodyEnd (c : Construction) (tag : Tag) : Reply :=
  let name := tag.name
  if name = "template" then c.closeTemplate.done
  else if name = "body" then (if c.inScope "body" then c.goTo .afterBody else c).done
  else if name = "html" then if c.inScope "body" then c.retry .afterBody else c.done
  else if closableElements.contains name then
    (if c.inScope name then (c.closeImplied impliedEnds).popNamed name else c).done
  else if name = "form" then c.closeForm.done
  else if name = "p" then
    (if c.inButtonScope "p" then c else c.openNamed "p").closeParagraph.done
  else if name = "li" then
    (if c.inListScope name then (c.closeImpliedExcept name).popNamed name else c).done
  else if name = "dd" ∨ name = "dt" then
    (if c.inScope name then (c.closeImpliedExcept name).popNamed name else c).done
  else if headings.contains name then
    (if c.inScopeWhere (c.isOneOf headings) then
      let c := c.closeImplied impliedEnds
      c.popThrough (c.isOneOf headings)
    else c).done
  else if formattingElements.contains name || name == "a" || name == "nobr" then
    (c.closeFormatting name).done
  else if ["applet", "marquee", "object"].contains name then
    (if c.inScope name then ((c.closeImplied impliedEnds).popNamed name).clearFormatting
    else c).done
  else if name = "br" then (c.bodyEmpty { tag with attributes := [] }).done
  else (c.closeOrdinary name).done

/-- In the body. -/
def inBody (c : Construction) (token : Token) : Reply :=
  match token with
  | .character char =>
    let c := c.reopenFormatting
    ((if isFiller char then c else c.forbidFrames).addChar char).done
  | .comment text => (c.addComment text).done
  | .startTag tag => c.bodyStart tag
  | .endTag tag => c.bodyEnd tag
  | .ending => if c.templateModes.isEmpty then c.done else c.endTemplate
  | _ => c.done

/-! ## Before and after the body -/

/-- Nothing has been read. -/
def atStart (c : Construction) (token : Token) : Reply :=
  match token with
  | .character char =>
    if isFiller char then c.done else { c with old := true }.retry .beforeHtml
  | .comment text => (c.addCommentTo 0 text).done
  | _ => { c with old := true }.retry .beforeHtml

/-- Closing tags that are as good as any other token before the body. -/
def forcesBody : List String := ["head", "body", "html", "br"]

/-- Before the root element. -/
def beforeHtml (c : Construction) (token : Token) : Reply :=
  let leave := (c.openRoot []).retry .beforeHead
  match token with
  | .character char => if isFiller char then c.done else leave
  | .comment text => (c.addCommentTo 0 text).done
  | .startTag tag =>
    if tag.name = "html" then ((c.openRoot tag.attributes).goTo .beforeHead).done else leave
  | .endTag tag => if forcesBody.contains tag.name then leave else c.done
  | _ => leave

/-- Before the head. -/
def beforeHead (c : Construction) (token : Token) : Reply :=
  let opened (tag : Tag) : Construction :=
    let c := c.openTag tag
    { c with head := some c.current }
  let leave := (opened ⟨"head", [], false⟩).retry .inHead
  match token with
  | .character char => if isFiller char then c.done else leave
  | .comment text => (c.addComment text).done
  | .startTag tag =>
    if tag.name = "html" then (c.mergeRoot tag).done
    else if tag.name = "head" then ((opened tag).goTo .inHead).done
    else leave
  | .endTag tag => if forcesBody.contains tag.name then leave else c.done
  | _ => leave

/-- After the head. -/
def afterHead (c : Construction) (token : Token) : Reply :=
  let leave := (c.openNamed "body").retry .inBody
  match token with
  | .character char => if isFiller char then (c.addChar char).done else leave
  | .comment text => (c.addComment text).done
  | .startTag tag =>
    if tag.name = "html" then (c.mergeRoot tag).done
    else if tag.name = "body" then ((c.openTag tag).forbidFrames.goTo .inBody).done
    else if tag.name = "frameset" then ((c.openTag tag).goTo .inFrameset).done
    else if headElements.contains tag.name then
      let head := c.head.getD 0
      let reply := (c.push head).headTag tag
      { reply with next := reply.next.close head }
    else if tag.name = "head" then c.done
    else leave
  | .endTag tag =>
    if tag.name = "template" then c.closeTemplate.done
    else if ["body", "html", "br"].contains tag.name then leave
    else c.done
  | _ => leave

/-- In an element that holds text only. -/
def inText (c : Construction) (token : Token) : Reply :=
  match token with
  | .character char => (c.addChar char).done
  | .endTag _ => (c.pop.goTo c.returnMode).done
  | .ending => c.pop.retry c.returnMode
  | _ => c.done

/-- After the body. -/
def afterBody (c : Construction) (token : Token) : Reply :=
  match token with
  | .character char => if isFiller char then c.inBody token else c.retry .inBody
  | .comment text => (c.addCommentTo (c.opened.getLastD 0) text).done
  | .startTag tag => if tag.name = "html" then c.inBody token else c.retry .inBody
  | .endTag tag =>
    if tag.name = "html" then (c.goTo .afterAfterBody).done else c.retry .inBody
  | .ending => c.done
  | _ => c.retry .inBody

/-- After the root element. -/
def afterAfterBody (c : Construction) (token : Token) : Reply :=
  match token with
  | .character char => if isFiller char then c.inBody token else c.retry .inBody
  | .comment text => (c.addCommentTo 0 text).done
  | .startTag tag => if tag.name = "html" then c.inBody token else c.retry .inBody
  | .ending => c.done
  | _ => c.retry .inBody

/-! ## Frames -/

/-- In a set of frames. -/
def inFrameset (c : Construction) (token : Token) : Reply :=
  match token with
  | .character char => (if isFiller char then c.addChar char else c).done
  | .comment text => (c.addComment text).done
  | .startTag tag =>
    if tag.name = "html" then c.inBody token
    else if tag.name = "frameset" then (c.openTag tag).done
    else if tag.name = "frame" then (c.addEmpty tag).done
    else if tag.name = "noframes" then c.headTag tag
    else c.done
  | .endTag tag =>
    if tag.name = "frameset" ∧ c.opened.length ≠ 1 then
      let c := c.pop
      (if c.currentIs "frameset" then c else c.goTo .afterFrameset).done
    else c.done
  | _ => c.done

/-- After a set of frames. -/
def afterFrameset (c : Construction) (token : Token) : Reply :=
  match token with
  | .character char => (if isFiller char then c.addChar char else c).done
  | .comment text => (c.addComment text).done
  | .startTag tag =>
    if tag.name = "html" then c.inBody token
    else if tag.name = "noframes" then c.headTag tag
    else c.done
  | .endTag tag => (if tag.name = "html" then c.goTo .afterAfterFrameset else c).done
  | _ => c.done

/-- After the root element of a set of frames. -/
def afterAfterFrameset (c : Construction) (token : Token) : Reply :=
  match token with
  | .character char => if isFiller char then c.inBody token else c.done
  | .comment text => (c.addCommentTo 0 text).done
  | .startTag tag =>
    if tag.name = "html" then c.inBody token
    else if tag.name = "noframes" then c.headTag tag
    else c.done
  | _ => c.done

/-! ## Tables -/

/-- What does not belong into a table is taken by the rules of the body and put before it. -/
def fosterInBody (c : Construction) (token : Token) : Reply :=
  let reply := { c with fostering := true }.inBody token
  { reply with next := { reply.next with fostering := false } }

/-- Text in a table. -/
def tableChars (c : Construction) (token : Token) : Reply :=
  if c.currentIn tableStructure then { c with returnMode := c.mode }.retry .inTableText
  else c.fosterInBody token

/-- An opening tag in a table. -/
def tableStart (c : Construction) (tag : Tag) : Reply :=
  let name := tag.name
  if name = "caption" then
    (((c.popTo tableScope).mark.openTag tag).goTo .inCaption).done
  else if name = "colgroup" then (((c.popTo tableScope).openTag tag).goTo .inColumnGroup).done
  else if name = "col" then ((c.popTo tableScope).openNamed "colgroup").retry .inColumnGroup
  else if ["tbody", "tfoot", "thead"].contains name then
    (((c.popTo tableScope).openTag tag).goTo .inTableBody).done
  else if ["td", "th", "tr"].contains name then
    ((c.popTo tableScope).openNamed "tbody").retry .inTableBody
  else if name = "table" then
    if c.inTableScope ["table"] then
      let c := (c.popNamed "table").fitMode
      c.retry c.mode
    else c.done
  else if ["style", "script", "template"].contains name then c.headTag tag
  else if name = "input" ∧ isHidden tag then (c.addEmpty tag).done
  else if name = "form" then
    if c.hasOpen "template" || c.form.isSome then c.done
    else
      let (node, c) := c.insertClosed .html tag.name tag.attributes
      { c with form := some node }.done
  else c.fosterInBody (.startTag tag)

/-- In a table. -/
def inTable (c : Construction) (token : Token) : Reply :=
  match token with
  | .character _ | .null => c.tableChars token
  | .comment text => (c.addComment text).done
  | .startTag tag => c.tableStart tag
  | .endTag tag =>
    if tag.name = "table" then
      (if c.inTableScope ["table"] then (c.popNamed "table").fitMode else c).done
    else if ["body", "caption", "col", "colgroup", "html", "tbody", "td", "tfoot", "th", "thead",
        "tr"].contains tag.name then c.done
    else if tag.name = "template" then c.closeTemplate.done
    else c.fosterInBody token
  | .ending => c.inBody token
  | _ => c.fosterInBody token

/-- Put the text of a table where it belongs: before the table unless it is white space. -/
def flushTableText (c : Construction) : Construction :=
  let text := c.tableText.reverse
  let c := { c with tableText := [] }
  if text.all isFiller then text.foldl addChar c
  else text.foldl (fun c char => (c.fosterInBody (.character char)).next) c

/-- In text that stands in a table. -/
def inTableText (c : Construction) (token : Token) : Reply :=
  match token with
  | .null => c.done
  | .character char => { c with tableText := char :: c.tableText }.done
  | _ => c.flushTableText.retry c.returnMode

/-- In the caption of a table. -/
def inCaption (c : Construction) (token : Token) : Reply :=
  let leave (closing : Bool) : Reply :=
    if c.inTableScope ["caption"] then
      let c := ((c.closeImplied impliedEnds).popNamed "caption").clearFormatting
      if closing then (c.goTo .inTable).done else c.retry .inTable
    else c.done
  match token with
  | .startTag tag =>
    if ["caption", "col", "colgroup", "tbody", "td", "tfoot", "th", "thead", "tr"].contains tag.name
    then leave false
    else c.inBody token
  | .endTag tag =>
    if tag.name = "table" then leave false
    else if tag.name = "caption" then leave true
    else if ["body", "col", "colgroup", "html", "tbody", "td", "tfoot", "th", "thead",
        "tr"].contains tag.name then c.done
    else c.inBody token
  | _ => c.inBody token

/-- In a group of columns. -/
def inColumnGroup (c : Construction) (token : Token) : Reply :=
  let leave := if c.currentIs "colgroup" then c.pop.retry .inTable else c.done
  match token with
  | .character char => if isFiller char then (c.addChar char).done else leave
  | .comment text => (c.addComment text).done
  | .startTag tag =>
    if tag.name = "html" then c.inBody token
    else if tag.name = "col" then (c.addEmpty tag).done
    else if tag.name = "template" then c.headTag tag
    else leave
  | .endTag tag =>
    if tag.name = "colgroup" then
      (if c.currentIs "colgroup" then c.pop.goTo .inTable else c).done
    else if tag.name = "col" then c.done
    else if tag.name = "template" then c.closeTemplate.done
    else leave
  | .ending => c.inBody token
  | _ => leave

/-- In a group of rows. -/
def inTableBody (c : Construction) (token : Token) : Reply :=
  let leave : Reply :=
    if c.inTableScope ["table", "tbody", "tfoot"] then
      ((c.popTo tableBodyContext).pop).retry .inTable
    else c.done
  match token with
  | .startTag tag =>
    if tag.name = "tr" then (((c.popTo tableBodyContext).openTag tag).goTo .inRow).done
    else if tag.name = "th" ∨ tag.name = "td" then
      ((c.popTo tableBodyContext).openNamed "tr").retry .inRow
    else if ["caption", "col", "colgroup", "tbody", "tfoot", "thead"].contains tag.name then leave
    else c.inTable token
  | .endTag tag =>
    if ["tbody", "tfoot", "thead"].contains tag.name then
      (if c.inTableScope [tag.name] then (c.popTo tableBodyContext).pop.goTo .inTable else c).done
    else if tag.name = "table" then leave
    else if ["body", "caption", "col", "colgroup", "html", "td", "th", "tr"].contains tag.name then
      c.done
    else c.inTable token
  | _ => c.inTable token

/-- In a row. -/
def inRow (c : Construction) (token : Token) : Reply :=
  let closed := (c.popTo tableRowContext).pop
  let leave : Reply := if c.inTableScope ["tr"] then closed.retry .inTableBody else c.done
  match token with
  | .startTag tag =>
    if tag.name = "th" ∨ tag.name = "td" then
      ((((c.popTo tableRowContext).openTag tag).goTo .inCell).mark).done
    else if ["caption", "col", "colgroup", "tbody", "tfoot", "thead", "tr"].contains tag.name then
      leave
    else c.inTable token
  | .endTag tag =>
    if tag.name = "tr" then
      (if c.inTableScope ["tr"] then closed.goTo .inTableBody else c).done
    else if tag.name = "table" then leave
    else if ["tbody", "tfoot", "thead"].contains tag.name then
      if c.inTableScope [tag.name] then leave else c.done
    else if ["body", "caption", "col", "colgroup", "html", "td", "th"].contains tag.name then c.done
    else c.inTable token
  | _ => c.inTable token

/-- Close the innermost cell. -/
def closeCell (c : Construction) : Construction :=
  let c := c.closeImplied impliedEnds
  (c.popThrough (c.isOneOf ["td", "th"])).clearFormatting

/-- In a cell. -/
def inCell (c : Construction) (token : Token) : Reply :=
  match token with
  | .startTag tag =>
    if ["caption", "col", "colgroup", "tbody", "td", "tfoot", "th", "thead", "tr"].contains tag.name
    then if c.inTableScope ["td", "th"] then c.closeCell.retry .inRow else c.done
    else c.inBody token
  | .endTag tag =>
    if tag.name = "td" ∨ tag.name = "th" then
      (if c.inTableScope [tag.name] then
        (((c.closeImplied impliedEnds).popNamed tag.name).clearFormatting).goTo .inRow
      else c).done
    else if ["body", "caption", "col", "colgroup", "html"].contains tag.name then c.done
    else if ["table", "tbody", "tfoot", "thead", "tr"].contains tag.name then
      if c.inTableScope [tag.name] then c.closeCell.retry .inRow else c.done
    else c.inBody token
  | _ => c.inBody token

/-! ## Lists of options and templates -/

/-- In a list of options. -/
def inSelect (c : Construction) (token : Token) : Reply :=
  let leaveOption (c : Construction) : Construction := if c.currentIs "option" then c.pop else c
  let leaveGroup (c : Construction) : Construction := if c.currentIs "optgroup" then c.pop else c
  let closed := (c.popNamed "select").fitMode
  match token with
  | .character char => (c.addChar char).done
  | .comment text => (c.addComment text).done
  | .startTag tag =>
    if tag.name = "html" then c.inBody token
    else if tag.name = "option" then ((leaveOption c).openTag tag).done
    else if tag.name = "optgroup" then ((leaveGroup (leaveOption c)).openTag tag).done
    else if tag.name = "select" then (if c.inSelectScope then closed else c).done
    else if ["input", "keygen", "textarea"].contains tag.name then
      if c.inSelectScope then closed.retry closed.mode else c.done
    else if tag.name = "script" ∨ tag.name = "template" then c.headTag tag
    else c.done
  | .endTag tag =>
    if tag.name = "optgroup" then
      let nested := (c.opened.drop 1).head?.any (c.isNamed "optgroup")
      (leaveGroup (if nested then leaveOption c else c)).done
    else if tag.name = "option" then (leaveOption c).done
    else if tag.name = "select" then (if c.inSelectScope then closed else c).done
    else if tag.name = "template" then c.closeTemplate.done
    else c.done
  | .ending => c.inBody token
  | _ => c.done

/-- In a list of options inside a table. -/
def inSelectInTable (c : Construction) (token : Token) : Reply :=
  let parts := ["caption", "table", "tbody", "tfoot", "thead", "tr", "td", "th"]
  let closed := (c.popNamed "select").fitMode
  match token with
  | .startTag tag =>
    if parts.contains tag.name then closed.retry closed.mode else c.inSelect token
  | .endTag tag =>
    if parts.contains tag.name then
      if c.inTableScope [tag.name] then closed.retry closed.mode else c.done
    else c.inSelect token
  | _ => c.inSelect token

/-- In a template. -/
def inTemplate (c : Construction) (token : Token) : Reply :=
  let turnInto (mode : Mode) : Reply :=
    { c with templateModes := mode :: c.templateModes.tail }.retry mode
  match token with
  | .character _ | .comment _ => c.inBody token
  | .startTag tag =>
    if headElements.contains tag.name then c.headTag tag
    else if ["caption", "colgroup", "tbody", "tfoot", "thead"].contains tag.name then
      turnInto .inTable
    else if tag.name = "col" then turnInto .inColumnGroup
    else if tag.name = "tr" then turnInto .inTableBody
    else if tag.name = "td" ∨ tag.name = "th" then turnInto .inRow
    else turnInto .inBody
  | .endTag tag => if tag.name = "template" then c.closeTemplate.done else c.done
  | .ending => c.endTemplate
  | _ => c.done

/-- Take a token by the rules of the current mode. -/
def byMode (c : Construction) (token : Token) : Reply :=
  match c.mode with
  | .initial => c.atStart token
  | .beforeHtml => c.beforeHtml token
  | .beforeHead => c.beforeHead token
  | .inHead => c.inHead token
  | .afterHead => c.afterHead token
  | .inBody => c.inBody token
  | .text => c.inText token
  | .inTable => c.inTable token
  | .inTableText => c.inTableText token
  | .inCaption => c.inCaption token
  | .inColumnGroup => c.inColumnGroup token
  | .inTableBody => c.inTableBody token
  | .inRow => c.inRow token
  | .inCell => c.inCell token
  | .inSelect => c.inSelect token
  | .inSelectInTable => c.inSelectInTable token
  | .inTemplate => c.inTemplate token
  | .afterBody => c.afterBody token
  | .inFrameset => c.inFrameset token
  | .afterFrameset => c.afterFrameset token
  | .afterAfterBody => c.afterAfterBody token
  | .afterAfterFrameset => c.afterAfterFrameset token

/-! ## Foreign elements -/

/-- Leave the foreign elements and take the token by the rules of the mode. -/
def breakOut (c : Construction) (token : Token) : Reply :=
  let isHome (node : Nat) : Bool :=
    (c.nameOf node).1 == .html || c.holdsFormulaText node || c.hostsOrdinary node
  { c with opened := c.opened.dropWhile fun node => !isHome node }.byMode token

/-- An opening tag among foreign elements. -/
def foreignStart (c : Construction) (tag : Tag) : Reply :=
  let breaksOut := breakoutTags.contains tag.name ||
    (tag.name == "font" && tag.attributes.any fun (key, _) =>
      ["color", "face", "size"].contains key)
  if breaksOut then c.breakOut (.startTag tag)
  else
    let vocabulary := (c.nameOf c.current).1
    let name := if vocabulary = .svg then respell graphicsNames tag.name else tag.name
    (c.openForeign vocabulary name tag).done

/-- A closing tag among foreign elements closes the innermost one of its name, in whatever case;
`first` holds for the innermost element, and ordinary elements further out have their own rules. -/
def foreignEnd (c : Construction) (tag : Tag) (first : Bool) : List Nat → Reply
  | [] | [_] => c.done
  | node :: rest =>
    let (vocabulary, name) := c.nameOf node
    if !first && vocabulary == .html then c.byMode (.endTag tag)
    else if name.map Char.toLower == tag.name.map Char.toLower then { c with opened := rest }.done
    else c.foreignEnd tag false rest

/-- Take a token among foreign elements. -/
def inForeign (c : Construction) (token : Token) : Reply :=
  match token with
  | .null => (c.addChar replacementChar).done
  | .character char => ((if isFiller char then c else c.forbidFrames).addChar char).done
  | .comment text => (c.addComment text).done
  | .startTag tag => c.foreignStart tag
  | .endTag tag =>
    if tag.name = "br" ∨ tag.name = "p" then c.breakOut token
    else c.foreignEnd tag true c.opened
  | _ => c.done

/-- The node is a note on a formula that is written in ordinary elements. -/
def isMarkupNote (c : Construction) (node : Nat) : Bool :=
  (c.store.attributes node).any fun (key, value) =>
    key == "encoding" &&
      ["text/html", "application/xhtml+xml"].contains (value.map Char.toLower)

/-- The current element is foreign. -/
def isForeign (c : Construction) : Bool :=
  !c.opened.isEmpty && (c.nameOf c.current).1 != .html

/-- The token is taken by the rules of foreign elements. -/
def meetsForeign (c : Construction) (token : Token) : Bool :=
  let node := c.current
  let isText := match token with
    | .character _ | .null => true
    | _ => false
  let startName? := match token with
    | .startTag tag => some tag.name
    | _ => none
  if !c.isForeign || token = .ending then false
  else if c.holdsFormulaText node &&
      (isText || startName?.any fun name => name != "mglyph" && name != "malignmark") then false
  else if c.hostsOrdinary node && (isText || startName?.isSome) then false
  else if c.nameOf node = (.mathml, "annotation-xml") then
    if startName? = some "svg" then false
    else if isText || startName?.isSome then !c.isMarkupNote node
    else true
  else true

/-! ## Tokens -/

/-- Take a token, by the rules of one mode after the other. -/
def takeRounds (c : Construction) (token : Token) : Nat → Construction × Feedback
  | 0 => (c, .proceed)
  | rounds + 1 =>
    let reply := if c.meetsForeign token then c.inForeign token else c.byMode token
    if reply.again then reply.next.takeRounds token rounds else (reply.next, reply.feedback)

/-- A bound on how many modes a token can meet. -/
def rounds (c : Construction) : Nat := 8 * (c.opened.length + 8)

/-- Take a token. -/
def take (c : Construction) (token : Token) : Construction × Feedback :=
  let drops := c.dropLineFeed
  let c := { c with dropLineFeed := false }
  match token with
  | .doctype doctype =>
    if c.mode = .initial then
      let (node, store) := c.store.add
        (.doctype (doctype.name.getD "") (doctype.publicId.getD "") (doctype.systemId.getD ""))
      ({ c with store := store.append 0 node, old := doctype.isOld, mode := .beforeHtml }, .proceed)
    else (c, .proceed)
  | .character '\n' => if drops then (c, .proceed) else c.takeRounds token c.rounds
  | _ => c.takeRounds token c.rounds

/-- Whoever builds a document takes tokens. -/
def consumer : Consumer Construction := ⟨take, isForeign⟩

end Construction

/-- The document that a text describes. -/
def document (text : List Char) : List Dom :=
  (Construction.consumer.run {} text).store.finish

end Markup
end ReactiveTemplate
