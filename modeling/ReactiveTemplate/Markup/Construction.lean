import ReactiveTemplate.Markup.Vocabulary

/-!
# A document under construction

Tokens build a document one at a time.  Between two tokens there are the open elements, the
formatting elements that are opened again after an element that closed them, and the mode that says
which rules the next token meets.  This module has the state and what the rules do to it.
-/

namespace ReactiveTemplate
namespace Markup

/-- Which rules the next token meets. -/
inductive Mode where
  /-- Nothing has been read. -/
  | initial
  /-- Before the root element. -/
  | beforeHtml
  /-- Before the head. -/
  | beforeHead
  /-- In the head. -/
  | inHead
  /-- After the head. -/
  | afterHead
  /-- In the body. -/
  | inBody
  /-- In an element that holds text only. -/
  | text
  /-- In a table. -/
  | inTable
  /-- In text that stands in a table. -/
  | inTableText
  /-- In the caption of a table. -/
  | inCaption
  /-- In a group of columns. -/
  | inColumnGroup
  /-- In a group of rows. -/
  | inTableBody
  /-- In a row. -/
  | inRow
  /-- In a cell. -/
  | inCell
  /-- In a list of options. -/
  | inSelect
  /-- In a list of options inside a table. -/
  | inSelectInTable
  /-- In a template. -/
  | inTemplate
  /-- After the body. -/
  | afterBody
  /-- In a set of frames. -/
  | inFrameset
  /-- After a set of frames. -/
  | afterFrameset
  /-- After the root element. -/
  | afterAfterBody
  /-- After the root element of a set of frames. -/
  | afterAfterFrameset
  deriving DecidableEq, Repr, Inhabited

/-- An entry of the list of formatting elements. -/
inductive Formatting where
  /-- The entries before it are out of reach. -/
  | marker
  /-- An element and the tag it was made for. -/
  | element (node : Nat) (tag : Tag)
  deriving DecidableEq, Repr

/-- The entry is for the given node. -/
def Formatting.isFor (node : Nat) : Formatting → Bool
  | .marker => false
  | .element other _ => other == node

/-- A document under construction. -/
structure Construction where
  /-- The nodes so far. -/
  store : Store := {}
  /-- Which rules the next token meets. -/
  mode : Mode := .initial
  /-- The mode to go back to after a text. -/
  returnMode : Mode := .initial
  /-- The modes of the open templates, innermost first. -/
  templateModes : List Mode := []
  /-- Text that stands in a table, backwards. -/
  tableText : List Char := []
  /-- The page follows the rules of old pages. -/
  old : Bool := false
  /-- The open elements, innermost first. -/
  opened : List Nat := []
  /-- The formatting elements, latest first. -/
  formatting : List Formatting := []
  /-- The head. -/
  head : Option Nat := none
  /-- The open form. -/
  form : Option Nat := none
  /-- A set of frames may still take the place of the body. -/
  framesAllowed : Bool := true
  /-- A line feed that comes next is dropped. -/
  dropLineFeed : Bool := false
  /-- What does not belong into a table is put before it. -/
  fostering : Bool := false
  deriving Inhabited

namespace Construction

/-! ## Open elements -/

/-- Vocabulary and name of a node. -/
def nameOf (c : Construction) (node : Nat) : Vocabulary × String :=
  (c.store.element? node).getD (.html, "")

/-- The node is an ordinary element with one of the names. -/
def isOneOf (c : Construction) (names : List String) (node : Nat) : Bool :=
  let (vocabulary, name) := c.nameOf node
  vocabulary == .html && names.contains name

/-- The node is an ordinary element of the given name. -/
def isNamed (c : Construction) (name : String) (node : Nat) : Bool := c.isOneOf [name] node

/-- The innermost open element. -/
def current (c : Construction) : Nat := c.opened.headD 0

/-- The innermost open element has one of the names. -/
def currentIn (c : Construction) (names : List String) : Bool :=
  c.opened.head?.any (c.isOneOf names)

/-- The innermost open element has the given name. -/
def currentIs (c : Construction) (name : String) : Bool := c.currentIn [name]

/-- Close the innermost open element. -/
def pop (c : Construction) : Construction := { c with opened := c.opened.tail }

/-- Open an element. -/
def push (c : Construction) (node : Nat) : Construction := { c with opened := node :: c.opened }

/-- Take a node out of the open elements, wherever it stands. -/
def close (c : Construction) (node : Nat) : Construction :=
  { c with opened := c.opened.erase node }

/-- An element of the given name is open. -/
def hasOpen (c : Construction) (name : String) : Bool := c.opened.any (c.isNamed name)

/-- Close elements up to the first one that satisfies a test, which is closed too. -/
def popThrough (c : Construction) (found : Nat → Bool) : Construction :=
  { c with opened := (c.opened.dropWhile fun node => !found node).tail }

/-- Close elements up to one of the given name, which is closed too. -/
def popNamed (c : Construction) (name : String) : Construction := c.popThrough (c.isNamed name)

/-- Close elements until the innermost one has one of the names. -/
def popTo (c : Construction) (names : List String) : Construction :=
  { c with opened := c.opened.dropWhile fun node => !c.isOneOf names node }

/-- Close elements as long as they have one of the names. -/
def closeImplied (c : Construction) (names : List String) : Construction :=
  { c with opened := c.opened.dropWhile (c.isOneOf names) }

/-- Close elements whose end is implied, but none of the given name. -/
def closeImpliedExcept (c : Construction) (name : String) : Construction :=
  c.closeImplied (impliedEnds.filter (· != name))

/-! ## Search among the open elements -/

/-- An element of formula text. -/
def holdsFormulaText (c : Construction) (node : Nat) : Bool :=
  let (vocabulary, name) := c.nameOf node
  vocabulary == .mathml && formulaText.contains name

/-- An element of graphics that holds ordinary elements. -/
def hostsOrdinary (c : Construction) (node : Nat) : Bool :=
  let (vocabulary, name) := c.nameOf node
  vocabulary == .svg && graphicsHosts.contains name

/-- The node bounds an ordinary search. -/
def isBound (c : Construction) (node : Nat) : Bool :=
  c.isOneOf scopeBounds node || c.holdsFormulaText node || c.hostsOrdinary node

/-- One of the open elements satisfies the test, and no bound lies further in. -/
def reachable (found bound : Nat → Bool) : List Nat → Bool
  | [] => false
  | node :: rest => found node || (!bound node && reachable found bound rest)

/-- A node that satisfies the test is in scope. -/
def inScopeWhere (c : Construction) (found : Nat → Bool) : Bool :=
  reachable found c.isBound c.opened

/-- An element of the given name is in scope. -/
def inScope (c : Construction) (name : String) : Bool := c.inScopeWhere (c.isNamed name)

/-- An element of the given name is in scope, where lists are bounds too. -/
def inListScope (c : Construction) (name : String) : Bool :=
  reachable (c.isNamed name) (fun n => c.isBound n || c.isOneOf ["ol", "ul"] n) c.opened

/-- An element of the given name is in scope, where buttons are bounds too. -/
def inButtonScope (c : Construction) (name : String) : Bool :=
  reachable (c.isNamed name) (fun n => c.isBound n || c.isNamed "button" n) c.opened

/-- One of the names is in scope inside the innermost table. -/
def inTableScope (c : Construction) (names : List String) : Bool :=
  reachable (c.isOneOf names) (c.isOneOf tableScope) c.opened

/-- A list of options is open, and only options are open inside. -/
def inSelectScope (c : Construction) : Bool :=
  reachable (c.isNamed "select") (fun n => !c.isOneOf ["optgroup", "option"] n) c.opened

/-! ## Insertion -/

/-- Where a node is to be put. -/
inductive Place where
  /-- After the children of a node. -/
  | inside (node : Nat)
  /-- Before a table if that has a parent, otherwise inside another node. -/
  | beside (table fallback : Nat)

/-- The node that holds what is put into the given one. -/
def holder (c : Construction) (node : Nat) : Nat :=
  match (c.store.get node).content with
  | .element _ _ _ (some contents) => contents
  | _ => node

/-- The place for what does not belong into a table. -/
def fosterPlace (c : Construction) : List Nat → Place
  | [] => .inside (c.opened.getLastD 0)
  | node :: rest =>
    if c.isNamed "template" node then .inside (c.holder node)
    else if c.isNamed "table" node then .beside node (rest.headD 0)
    else c.fosterPlace rest

/-- The place for what is to be put into the given node. -/
def placeIn (c : Construction) (target : Nat) : Place :=
  if c.fostering && c.isOneOf tableStructure target then c.fosterPlace c.opened
  else .inside (c.holder target)

/-- Put a node at a place. -/
def put (c : Construction) (place : Place) (node : Nat) : Construction :=
  match place with
  | .inside parent => { c with store := c.store.append parent node }
  | .beside table fallback =>
    if (c.store.get table).parent.isSome then
      { c with store := c.store.insertBefore table node }
    else { c with store := c.store.append fallback node }

/-- Add a character of text at the current place. -/
def addChar (c : Construction) (char : Char) : Construction :=
  match c.placeIn c.current with
  | .inside parent => { c with store := c.store.appendChar parent char }
  | .beside table fallback =>
    if (c.store.get table).parent.isSome then
      { c with store := c.store.insertCharBefore table char }
    else { c with store := c.store.appendChar fallback char }

/-- Make an element that has no place yet. -/
def create (c : Construction) (vocabulary : Vocabulary) (name : String)
    (attributes : List (String × String)) : Nat × Construction :=
  let (contents, store) :=
    if vocabulary = .html ∧ name = "template" then
      let (root, store) := c.store.add .root
      (some root, store)
    else (none, c.store)
  let (node, store) := store.add (.element vocabulary name attributes contents)
  (node, { c with store })

/-- Make an element at the current place, and leave it closed. -/
def insertClosed (c : Construction) (vocabulary : Vocabulary) (name : String)
    (attributes : List (String × String)) : Nat × Construction :=
  let (node, c) := c.create vocabulary name attributes
  (node, c.put (c.placeIn c.current) node)

/-- Make an element at the current place, and open it. -/
def insertOpen (c : Construction) (vocabulary : Vocabulary) (name : String)
    (attributes : List (String × String)) : Nat × Construction :=
  let (node, c) := c.insertClosed vocabulary name attributes
  (node, c.push node)

/-- Open the element of a tag. -/
def openTag (c : Construction) (tag : Tag) : Construction :=
  (c.insertOpen .html tag.name tag.attributes).2

/-- Open an element that has no tag. -/
def openNamed (c : Construction) (name : String) : Construction :=
  (c.insertOpen .html name []).2

/-- Make the element of a tag that has no content. -/
def addEmpty (c : Construction) (tag : Tag) : Construction :=
  (c.insertClosed .html tag.name tag.attributes).2

/-- Put a comment at the current place. -/
def addComment (c : Construction) (text : String) : Construction :=
  let (node, store) := c.store.add (.comment text)
  let c := { c with store }
  c.put (c.placeIn c.current) node

/-- Put a comment after the children of the given node. -/
def addCommentTo (c : Construction) (parent : Nat) (text : String) : Construction :=
  let (node, store) := c.store.add (.comment text)
  { c with store := store.append parent node }

/-- Open the root element. -/
def openRoot (c : Construction) (attributes : List (String × String)) : Construction :=
  let (node, c) := c.create .html "html" attributes
  { c with store := c.store.append 0 node }.push node

/-! ## Paragraphs -/

/-- Close the innermost paragraph. -/
def closeParagraph (c : Construction) : Construction :=
  (c.closeImpliedExcept "p").popNamed "p"

/-- Close an open paragraph. -/
def closeOpenParagraph (c : Construction) : Construction :=
  if c.inButtonScope "p" then c.closeParagraph else c

/-! ## Formatting elements -/

/-- Forget the formatting elements up to the latest marker. -/
def clearFormatting (c : Construction) : Construction :=
  { c with formatting := (c.formatting.dropWhile (· != .marker)).tail }

/-- Put a marker among the formatting elements. -/
def mark (c : Construction) : Construction := { c with formatting := .marker :: c.formatting }

/-- The formatting elements after the latest marker. -/
def recentFormatting (c : Construction) : List Formatting :=
  c.formatting.takeWhile (· != .marker)

/-- Forget a formatting element. -/
def forgetFormatting (c : Construction) (node : Nat) : Construction :=
  { c with formatting := c.formatting.filter fun entry => !entry.isFor node }

/-- The entry is a marker or its element is open. -/
def isSettled (c : Construction) : Formatting → Bool
  | .marker => true
  | .element node _ => c.opened.contains node

/-- Open formatting elements again, oldest first, and list their entries, latest first. -/
def reopen (c : Construction) (done : List Formatting) : List Formatting → Construction
  | [] => { c with formatting := done }
  | .marker :: rest => c.reopen (.marker :: done) rest
  | .element _ tag :: rest =>
    let (node, c) := c.insertOpen .html tag.name tag.attributes
    c.reopen (.element node tag :: done) rest

/-- Open the formatting elements again that an element closed. -/
def reopenFormatting (c : Construction) : Construction :=
  let pending := c.formatting.takeWhile fun entry => !c.isSettled entry
  c.reopen (c.formatting.drop pending.length) pending.reverse

/-- The attributes are the same, in whatever order. -/
def sameAttributes (xs ys : List (String × String)) : Bool :=
  xs.length == ys.length && xs.all ys.contains && ys.all xs.contains

/-- Remove the last entry of the list that satisfies a test. -/
def dropLast (found : Formatting → Bool) (entries : List Formatting) : List Formatting :=
  (entries.reverse.eraseP found).reverse

/-- Open a formatting element.  Of elements that are alike, at most three are kept. -/
def openFormatting (c : Construction) (tag : Tag) : Construction :=
  let alike : Formatting → Bool
    | .marker => false
    | .element _ other => other.name == tag.name && sameAttributes other.attributes tag.attributes
  let recent := c.recentFormatting
  let kept := if 3 ≤ recent.countP alike then dropLast alike recent else recent
  let c := { c with formatting := kept ++ c.formatting.drop recent.length }
  let (node, c) := c.insertOpen .html tag.name tag.attributes
  { c with formatting := .element node tag :: c.formatting }

/-- Close the innermost element of a name, unless an element with rules of its own lies inside. -/
def closeOrdinary (c : Construction) (name : String) : Construction :=
  if reachable (c.isNamed name) (c.isOneOf specialElements) c.opened then
    (c.closeImpliedExcept name).popNamed name
  else c

/-! ## Formatting elements that are closed out of order -/

/-- Put an entry in place of the one for the given node. -/
def replaceFormatting (node : Nat) (entry : Formatting) (entries : List Formatting) :
    List Formatting :=
  entries.map fun other => if other.isFor node then entry else other

/-- Put an entry right after the one for the given node, in the order of opening. -/
def insertFormatting (node : Nat) (entry : Formatting) : List Formatting → List Formatting
  | [] => []
  | other :: rest =>
    if other.isFor node then entry :: other :: rest
    else other :: insertFormatting node entry rest

/-- What has been done to the elements between a block and the formatting element around it. -/
structure Adoption where
  /-- The document. -/
  construction : Construction
  /-- Those of the elements that stay open, outermost first. -/
  kept : List Nat
  /-- The node that the next copy takes in. -/
  last : Nat
  /-- The first copy, which took in the block. -/
  first : Option Nat

/-- Copy an element between a block and the formatting element around it; `rank` counts from the
block.  An element that is not a formatting element, or too far out, is closed instead. -/
def adopt (state : Adoption) (node rank : Nat) : Adoption :=
  let c := state.construction
  match c.formatting.find? (·.isFor node) with
  | some (.element _ tag) =>
    if 3 < rank then { state with construction := c.forgetFormatting node }
    else
      let (copy, c) := c.create .html tag.name tag.attributes
      let c := { c with formatting := replaceFormatting node (.element copy tag) c.formatting }
      let c := { c with store := c.store.append copy state.last }
      { construction := c, kept := copy :: state.kept, last := copy
        first := state.first.or (some copy) }
  | _ => state

/-- Copy elements between a block and the formatting element around it, innermost first. -/
def adoptAll (state : Adoption) (rank : Nat) : List Nat → Adoption
  | [] => state
  | node :: rest => adoptAll (adopt state node rank) (rank + 1) rest

/-- The formatting element is copied into the block that lies inside it: `inner` are the open
elements inside the block, `between` those between the two, `outer` those around. -/
def splitFormatting (c : Construction) (node : Nat) (tag : Tag) (inner : List Nat) (block : Nat)
    (between outer : List Nat) : Construction :=
  let state := adoptAll ⟨c, [], block, none⟩ 1 between
  let kept := state.kept.reverse
  let c := { state.construction with opened := inner ++ block :: kept ++ node :: outer }
  let c := { c with store := c.store.detach state.last }
  let c := c.put (c.placeIn (outer.headD 0)) state.last
  let (copy, c) := c.create .html tag.name tag.attributes
  let store := (c.store.moveChildren block copy).append block copy
  let entry := Formatting.element copy tag
  let formatting :=
    match state.first with
    | none => replaceFormatting node entry c.formatting
    | some first =>
      (insertFormatting first entry c.formatting).filter fun other => !other.isFor node
  { c with store, formatting, opened := inner ++ copy :: block :: kept ++ outer }

/-- One round of closing a formatting element; `none` if nothing is left to do. -/
def closeFormattingOnce (c : Construction) (name : String) : Construction × Bool :=
  let found : Formatting → Bool
    | .marker => false
    | .element _ tag => tag.name == name
  match c.recentFormatting.find? found with
  | some (.element node tag) =>
    if !c.opened.contains node then (c.forgetFormatting node, false)
    else if !c.inScopeWhere (· == node) then (c, false)
    else
      let inside := c.opened.takeWhile (· != node)
      let outer := (c.opened.dropWhile (· != node)).tail
      let betweenReversed := inside.reverse.takeWhile fun n => !c.isOneOf specialElements n
      match inside.reverse.drop betweenReversed.length with
      | [] => ({ c with opened := outer }.forgetFormatting node, false)
      | block :: innerReversed =>
        (c.splitFormatting node tag innerReversed.reverse block betweenReversed.reverse outer, true)
  | _ => (c.closeOrdinary name, false)

/-- Close a formatting element, at most in so many rounds. -/
def closeFormattingRounds (c : Construction) (name : String) : Nat → Construction
  | 0 => c
  | rounds + 1 =>
    match c.closeFormattingOnce name with
    | (c, true) => c.closeFormattingRounds name rounds
    | (c, false) => c

/-- Close a formatting element, also where other elements were opened inside and are still open. -/
def closeFormatting (c : Construction) (name : String) : Construction :=
  if c.currentIs name && !c.formatting.any (·.isFor c.current) then c.pop
  else c.closeFormattingRounds name 8

/-- A link that is opened inside a link closes it. -/
def closeOpenLink (c : Construction) : Construction :=
  let found : Formatting → Bool
    | .marker => false
    | .element node _ => c.isNamed "a" node
  match c.recentFormatting.find? found with
  | some (.element node _) => ((c.closeFormatting "a").forgetFormatting node).close node
  | _ => c

/-! ## Modes -/

/-- The mode that fits the open elements. -/
def fittingMode (c : Construction) : List Nat → Mode
  | [] => .inBody
  | node :: rest =>
    match c.nameOf node with
    | (.html, name) =>
      if name = "select" then
        match rest.find? (c.isOneOf ["template", "table"]) with
        | some ancestor => if c.isNamed "table" ancestor then .inSelectInTable else .inSelect
        | none => .inSelect
      else if (name = "td" ∨ name = "th") ∧ !rest.isEmpty then .inCell
      else if name = "tr" then .inRow
      else if ["tbody", "thead", "tfoot"].contains name then .inTableBody
      else if name = "caption" then .inCaption
      else if name = "colgroup" then .inColumnGroup
      else if name = "table" then .inTable
      else if name = "template" then c.templateModes.headD .inBody
      else if name = "head" ∧ !rest.isEmpty then .inHead
      else if name = "body" then .inBody
      else if name = "frameset" then .inFrameset
      else if name = "html" then if c.head.isNone then .beforeHead else .afterHead
      else c.fittingMode rest
    | _ => c.fittingMode rest

/-- Go to the mode that fits the open elements. -/
def fitMode (c : Construction) : Construction := { c with mode := c.fittingMode c.opened }

/-- The body, if it is open right inside the root. -/
def body? (c : Construction) : Option Nat :=
  match c.opened.reverse with
  | _ :: second :: _ => if c.isNamed "body" second then some second else none
  | _ => none

end Construction
end Markup
end ReactiveTemplate
