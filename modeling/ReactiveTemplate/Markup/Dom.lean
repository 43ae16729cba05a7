/-!
# Documents

A document under construction is a store of nodes that are addressed by number; nodes know their
parent and their children, so that they can be moved.  A finished document is a tree, `Dom`.
-/

namespace ReactiveTemplate
namespace Markup

/-- The vocabularies that elements belong to. -/
inductive Vocabulary where
  /-- Ordinary elements. -/
  | html
  /-- Vector graphics. -/
  | svg
  /-- Formulas. -/
  | mathml
  deriving DecidableEq, Repr

/-- A finished document tree.  The children of a template element are its contents. -/
inductive Dom where
  /-- The document type. -/
  | doctype (name publicId systemId : String)
  /-- Text. -/
  | text (text : String)
  /-- A comment. -/
  | comment (text : String)
  /-- An element with its attributes. -/
  | element (vocabulary : Vocabulary) (name : String) (attributes : List (String × String))
      (children : List Dom)
  deriving Repr, Inhabited

/-- What a node of the store is. -/
inductive Content where
  /-- The document, or the contents of a template element. -/
  | root
  /-- The document type. -/
  | doctype (name publicId systemId : String)
  /-- Text, kept backwards. -/
  | text (reversed : List Char)
  /-- A comment. -/
  | comment (text : String)
  /-- An element; a template element has a root for its contents. -/
  | element (vocabulary : Vocabulary) (name : String) (attributes : List (String × String))
      (contents : Option Nat)
  deriving Repr, Inhabited

/-- A node of the store. -/
structure Entry where
  /-- What it is. -/
  content : Content
  /-- The node it is a child of. -/
  parent : Option Nat := none
  /-- Its children in order. -/
  children : List Nat := []
  deriving Repr, Inhabited

/-- A document under construction; node zero is the document itself. -/
structure Store where
  /-- All nodes, by number. -/
  entries : Array Entry := #[{ content := .root }]
  deriving Inhabited

namespace Store

/-- The node with the given number. -/
def get (store : Store) (node : Nat) : Entry := store.entries.getD node default

/-- Change a node. -/
def modify (store : Store) (node : Nat) (change : Entry → Entry) : Store :=
  ⟨store.entries.modify node change⟩

/-- Add a node that has no parent yet. -/
def add (store : Store) (content : Content) : Nat × Store :=
  (store.entries.size, ⟨store.entries.push { content }⟩)

/-- Take a node away from its parent. -/
def detach (store : Store) (node : Nat) : Store :=
  match (store.get node).parent with
  | none => store
  | some parent =>
    (store.modify parent fun e => { e with children := e.children.filter (· != node) }).modify node
      fun e => { e with parent := none }

/-- Make a node the last child of another one. -/
def append (store : Store) (parent node : Nat) : Store :=
  ((store.detach node).modify parent fun e => { e with children := e.children ++ [node] }).modify
    node fun e => { e with parent := some parent }

/-- Put a node before a sibling in the given list. -/
def insertedBefore (sibling node : Nat) : List Nat → List Nat
  | [] => [node]
  | first :: rest =>
    if first = sibling then node :: first :: rest else first :: insertedBefore sibling node rest

/-- Make a node the sibling right before another one. -/
def insertBefore (store : Store) (sibling node : Nat) : Store :=
  let store := store.detach node
  match (store.get sibling).parent with
  | none => store
  | some parent =>
    (store.modify parent fun e =>
      { e with children := insertedBefore sibling node e.children }).modify node fun e =>
        { e with parent := some parent }

/-- The node is text. -/
def isText (store : Store) (node : Nat) : Bool :=
  match (store.get node).content with
  | .text _ => true
  | _ => false

/-- Add a character to a text. -/
def pushChar (store : Store) (node : Nat) (c : Char) : Store :=
  store.modify node fun e =>
    match e.content with
    | .text reversed => { e with content := .text (c :: reversed) }
    | _ => e

/-- Append a character to a node, to its last text if that is its last child. -/
def appendChar (store : Store) (parent : Nat) (c : Char) : Store :=
  match (store.get parent).children.getLast? with
  | some last =>
    if store.isText last then store.pushChar last c
    else
      let (node, store) := store.add (.text [c])
      store.append parent node
  | none =>
    let (node, store) := store.add (.text [c])
    store.append parent node

/-- The child right before the given one. -/
def previousOf (sibling : Nat) : List Nat → Option Nat
  | first :: second :: rest =>
    if second = sibling then some first else previousOf sibling (second :: rest)
  | _ => none

/-- Insert a character before a node, into the text before it if there is one. -/
def insertCharBefore (store : Store) (sibling : Nat) (c : Char) : Store :=
  match (store.get sibling).parent with
  | none => store
  | some parent =>
    match previousOf sibling (store.get parent).children with
    | some previous =>
      if store.isText previous then store.pushChar previous c
      else
        let (node, store) := store.add (.text [c])
        store.insertBefore sibling node
    | none =>
      let (node, store) := store.add (.text [c])
      store.insertBefore sibling node

/-- Move all children of a node to the end of another one. -/
def moveChildren (store : Store) (source target : Nat) : Store :=
  (store.get source).children.foldl (fun store child => store.append target child) store

/-- Vocabulary and name of an element. -/
def element? (store : Store) (node : Nat) : Option (Vocabulary × String) :=
  match (store.get node).content with
  | .element vocabulary name _ _ => some (vocabulary, name)
  | _ => none

/-- The attributes of an element. -/
def attributes (store : Store) (node : Nat) : List (String × String) :=
  match (store.get node).content with
  | .element _ _ attributes _ => attributes
  | _ => []

/-- Give an element the attributes that it does not have yet. -/
def addAttributes (store : Store) (node : Nat) (added : List (String × String)) : Store :=
  store.modify node fun e =>
    match e.content with
    | .element vocabulary name attributes contents =>
      let missing := added.filter fun (key, _) => !attributes.any (·.1 == key)
      { e with content := .element vocabulary name (attributes ++ missing) contents }
    | _ => e

/-- The finished tree below a node, where nodes are nested at most so deep. -/
def toDom (store : Store) : Nat → Nat → List Dom
  | 0, _ => []
  | depth + 1, node =>
    let entry := store.get node
    let below (nodes : List Nat) : List Dom := nodes.flatMap (store.toDom depth)
    match entry.content with
    | .root => below entry.children
    | .doctype name publicId systemId => [.doctype name publicId systemId]
    | .text reversed => [.text (String.ofList reversed.reverse)]
    | .comment text => [.comment text]
    | .element vocabulary name attributes none =>
      [.element vocabulary name attributes (below entry.children)]
    | .element vocabulary name attributes (some contents) =>
      [.element vocabulary name attributes (below (store.get contents).children)]

/-- The finished document. -/
def finish (store : Store) : List Dom := store.toDom (store.entries.size + 1) 0

end Store
end Markup
end ReactiveTemplate
