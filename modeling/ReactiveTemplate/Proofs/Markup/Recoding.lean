import Mathlib.Data.List.Basic
import ReactiveTemplate.Markup.Rules

/-!
# Recodings

The rules compare the values of attributes with each other, look at few of them and at the white
space among characters, and never at anything else in values and texts.  So if values and characters
are replaced by others that all of this is as true of, the same document is built with the others in
it.
-/

namespace ReactiveTemplate
namespace Markup

/-- Other values for the attributes of each key, and other characters for texts, that no rule tells
from those they replace. -/
structure Recoding where
  /-- The value that replaces a value of a key. -/
  value : String → String → String
  /-- The character that replaces a character of a text. -/
  char : Char → Char
  /-- Different values have different ones. -/
  injective : ∀ key, Function.Injective (value key)
  /-- The spelling of a key does not matter. -/
  respelled : ∀ names ∈ [graphicsAttributes, ["definitionURL"]], ∀ key,
    value (respell names key) = value key
  /-- Nor does it for the key that declares a vocabulary. -/
  declared : value ":xmlns" = value "xmlns"
  /-- Inputs that are not shown stay so. -/
  hidden : ∀ old, (value "type" old).map Char.toLower = "hidden" ↔ old.map Char.toLower = "hidden"
  /-- Notes that are written in ordinary elements stay so. -/
  note : ∀ old, ["text/html", "application/xhtml+xml"].contains
    ((value "encoding" old).map Char.toLower) =
      ["text/html", "application/xhtml+xml"].contains (old.map Char.toLower)
  /-- White space is replaced by white space only. -/
  filler : ∀ c, Construction.isFiller (char c) = Construction.isFiller c
  /-- Line feeds stay, and there are no others. -/
  lineFeed : ∀ c, char c = '\n' ↔ c = '\n'
  /-- The character for what cannot be shown stays. -/
  replacement : char replacementChar = replacementChar

variable {ρ : Recoding}

/-! ## Attributes -/

/-- The attribute with its value replaced. -/
def recoded (ρ : Recoding) (entry : String × String) : String × String :=
  (entry.1, ρ.value entry.1 entry.2)

@[simp] theorem recoded_fst (entry : String × String) : (recoded ρ entry).1 = entry.1 := rfl

theorem recoded_injective (ρ : Recoding) : Function.Injective (recoded ρ) := by
  rintro ⟨key, old⟩ ⟨key', old'⟩ same
  simp only [recoded, Prod.mk.injEq] at same
  obtain ⟨rfl, values⟩ := same
  rw [ρ.injective key values]

/-- A key that is spelled in another way is not one that the spelling leaves alone. -/
theorem respell_eq_iff {names : List String} {own : String} (apart : own ∉ names)
    (foreign : ∀ name ∈ names, name.map Char.toLower ≠ own) (key : String) :
    respell names key = own ↔ key = own := by
  unfold respell
  cases found : names.find? fun name => name.map Char.toLower == key with
  | none => exact Iff.rfl
  | some name =>
      have listed := List.mem_of_find?_eq_some found
      have same : name.map Char.toLower = key := by simpa using List.find?_some found
      constructor
      · exact fun own_eq => (apart (own_eq ▸ listed)).elim
      · exact fun own_eq => (foreign name listed (same.trans own_eq)).elim

/-- A spelling of keys that has nothing to do with their values. -/
theorem map_recoded (spell : String → String) (steady : ∀ key, ρ.value (spell key) = ρ.value key)
    (attributes : List (String × String)) :
    (attributes.map (recoded ρ)).map (fun entry => (spell entry.1, entry.2)) =
      (attributes.map fun entry => (spell entry.1, entry.2)).map (recoded ρ) := by
  simp [recoded, Function.comp_def, steady]

@[simp]
theorem spellAttributes_recoded (vocabulary : Vocabulary)
    (attributes : List (String × String)) :
    spellAttributes vocabulary (attributes.map (recoded ρ)) =
      (spellAttributes vocabulary attributes).map (recoded ρ) := by
  have foreign (attributes : List (String × String)) :
      foreignSpelling (attributes.map (recoded ρ)) =
        (foreignSpelling attributes).map (recoded ρ) := by
    refine map_recoded (fun key => if key = "xmlns" then ":xmlns" else key) (fun key => ?_)
      attributes
    split
    · rename_i same
      rw [ρ.declared, same]
    · rfl
  have graphics : graphicsSpelling (attributes.map (recoded ρ)) =
      (graphicsSpelling attributes).map (recoded ρ) :=
    map_recoded _ (ρ.respelled _ (by simp)) attributes
  have formula : formulaSpelling (attributes.map (recoded ρ)) =
      (formulaSpelling attributes).map (recoded ρ) :=
    map_recoded _ (ρ.respelled _ (by simp)) attributes
  cases vocabulary with
  | html => rfl
  | svg => rw [spellAttributes, graphics, foreign]; rfl
  | mathml => rw [spellAttributes, formula, foreign]; rfl

/-! ## The store -/

/-- The node with its values and characters replaced. -/
def Content.recode (ρ : Recoding) : Content → Content
  | .text reversed => .text (reversed.map ρ.char)
  | .element vocabulary name attributes contents =>
    .element vocabulary name (attributes.map (recoded ρ)) contents
  | content => content

/-- The node with its values and characters replaced. -/
def Entry.recode (ρ : Recoding) (entry : Entry) : Entry :=
  { entry with content := entry.content.recode ρ }

@[simp] theorem Entry.recode_parent (e : Entry) : (e.recode ρ).parent = e.parent := rfl
@[simp] theorem Entry.recode_children (e : Entry) : (e.recode ρ).children = e.children := rfl
@[simp] theorem Entry.recode_content (e : Entry) :
    (e.recode ρ).content = e.content.recode ρ := rfl

namespace Store

variable (store : Store) (node parent sibling : Nat) (char : Char)

/-- The store with all values and characters replaced. -/
def recode (ρ : Recoding) (store : Store) : Store :=
  ⟨store.entries.map (Entry.recode ρ)⟩

@[simp]
theorem get_recode : (store.recode ρ).get node = (store.get node).recode ρ := by
  by_cases inside : node < store.entries.size
  · simp [get, recode, Array.getD, inside]
  · simp [get, recode, Array.getD, inside]
    rfl

theorem modify_recode {change change' : Entry → Entry}
    (steady : ∀ entry : Entry, change' (entry.recode ρ) = (change entry).recode ρ) :
    (store.recode ρ).modify node change' = (store.modify node change).recode ρ := by
  simp only [modify, recode, Store.mk.injEq]
  ext i : 1
  · simp
  · simp only [Array.getElem_modify, Array.getElem_map]
    split
    · exact steady _
    · rfl

@[simp]
theorem size_recode : (store.recode ρ).entries.size = store.entries.size := by
  simp [recode]

@[simp]
theorem add_recode (content : Content) :
    (store.recode ρ).add (content.recode ρ) =
      ((store.add content).1, (store.add content).2.recode ρ) := by
  simp [add, recode, Entry.recode]

@[simp]
theorem detach_recode :
    (store.recode ρ).detach node = (store.detach node).recode ρ := by
  unfold detach
  rw [get_recode, Entry.recode_parent]
  split
  · rfl
  · rw [modify_recode, modify_recode] <;> exact fun _ => rfl

@[simp]
theorem append_recode :
    (store.recode ρ).append parent node = (store.append parent node).recode ρ := by
  unfold append
  rw [detach_recode, modify_recode, modify_recode] <;> exact fun _ => rfl

@[simp]
theorem insertBefore_recode :
    (store.recode ρ).insertBefore sibling node =
      (store.insertBefore sibling node).recode ρ := by
  unfold insertBefore
  simp only [detach_recode, get_recode, Entry.recode_parent]
  split
  · rfl
  · rw [modify_recode, modify_recode] <;> exact fun _ => rfl

@[simp]
theorem isText_recode : (store.recode ρ).isText node = store.isText node := by
  unfold isText
  rw [get_recode, Entry.recode_content]
  cases (store.get node).content <;> rfl

@[simp]
theorem pushChar_recode :
    (store.recode ρ).pushChar node (ρ.char char) = (store.pushChar node char).recode ρ := by
  unfold pushChar
  refine modify_recode _ _ fun entry => ?_
  obtain ⟨content, parent, children⟩ := entry
  cases content <;> rfl

@[simp]
theorem add_text_recode :
    (store.recode ρ).add (.text [ρ.char char]) =
      ((store.add (.text [char])).1, (store.add (.text [char])).2.recode ρ) :=
  add_recode store (.text [char])

@[simp]
theorem appendChar_recode :
    (store.recode ρ).appendChar parent (ρ.char char) =
      (store.appendChar parent char).recode ρ := by
  unfold appendChar
  simp only [get_recode, Entry.recode_children, isText_recode, pushChar_recode,
    add_text_recode, append_recode]
  split
  · split <;> rfl
  · rfl

@[simp]
theorem insertCharBefore_recode :
    (store.recode ρ).insertCharBefore sibling (ρ.char char) =
      (store.insertCharBefore sibling char).recode ρ := by
  unfold insertCharBefore
  simp only [get_recode, Entry.recode_parent, Entry.recode_children, isText_recode,
    pushChar_recode, add_text_recode, insertBefore_recode]
  split
  · rfl
  · split
    · split <;> rfl
    · rfl

@[simp]
theorem moveChildren_recode (source target : Nat) :
    (store.recode ρ).moveChildren source target =
      (store.moveChildren source target).recode ρ := by
  unfold moveChildren
  rw [get_recode, Entry.recode_children]
  exact List.foldl_hom (recode ρ) fun store child => append_recode store child target

@[simp]
theorem element?_recode : (store.recode ρ).element? node = store.element? node := by
  unfold element?
  rw [get_recode, Entry.recode_content]
  cases (store.get node).content <;> rfl

@[simp]
theorem attributes_recode :
    (store.recode ρ).attributes node = (store.attributes node).map (recoded ρ) := by
  unfold attributes
  rw [get_recode, Entry.recode_content]
  cases (store.get node).content <;> rfl

@[simp]
theorem addAttributes_recode (added : List (String × String)) :
    (store.recode ρ).addAttributes node (added.map (recoded ρ)) =
      (store.addAttributes node added).recode ρ := by
  unfold addAttributes
  refine modify_recode _ _ fun entry => ?_
  obtain ⟨content, parent, children⟩ := entry
  cases content <;> try rfl
  simp [Entry.recode, Content.recode, List.filter_map, Function.comp_def]

end Store

/-! ## Tokens -/

/-- The tag with its values replaced. -/
def Tag.recode (ρ : Recoding) (tag : Tag) : Tag :=
  { tag with attributes := tag.attributes.map (recoded ρ) }

@[simp] theorem Tag.recode_name (tag : Tag) : (tag.recode ρ).name = tag.name := rfl
@[simp] theorem Tag.recode_attributes (tag : Tag) :
    (tag.recode ρ).attributes = tag.attributes.map (recoded ρ) := rfl
@[simp] theorem Tag.recode_selfClosing (tag : Tag) :
    (tag.recode ρ).selfClosing = tag.selfClosing := rfl

/-- The token with its values, or its character, replaced. -/
def Token.recode (ρ : Recoding) : Token → Token
  | .character char => .character (ρ.char char)
  | .startTag tag => .startTag (tag.recode ρ)
  | .endTag tag => .endTag (tag.recode ρ)
  | token => token

/-- The entry with the values of its tag replaced. -/
def Formatting.recode (ρ : Recoding) : Formatting → Formatting
  | .marker => .marker
  | .element node tag => .element node (tag.recode ρ)

@[simp]
theorem Formatting.isFor_recode (node : Nat) (entry : Formatting) :
    (entry.recode ρ).isFor node = entry.isFor node := by
  cases entry <;> rfl

theorem Formatting.recode_eq_marker_iff (entry : Formatting) :
    entry.recode ρ = .marker ↔ entry = .marker := by
  cases entry <;> simp [Formatting.recode]

namespace Construction

/-! ## The document under construction -/

variable (c : Construction)

/-- The document with all values and characters replaced. -/
def recode (ρ : Recoding) (c : Construction) : Construction :=
  { c with
    store := c.store.recode ρ
    formatting := c.formatting.map (Formatting.recode ρ)
    tableText := c.tableText.map ρ.char }

@[simp] theorem recode_store : (c.recode ρ).store = c.store.recode ρ := rfl
@[simp] theorem recode_mode : (c.recode ρ).mode = c.mode := rfl
@[simp] theorem recode_returnMode : (c.recode ρ).returnMode = c.returnMode := rfl
@[simp] theorem recode_templateModes : (c.recode ρ).templateModes = c.templateModes := rfl
@[simp] theorem recode_tableText : (c.recode ρ).tableText = c.tableText.map ρ.char := rfl
@[simp] theorem recode_old : (c.recode ρ).old = c.old := rfl
@[simp] theorem recode_opened : (c.recode ρ).opened = c.opened := rfl
@[simp] theorem recode_formatting :
    (c.recode ρ).formatting = c.formatting.map (Formatting.recode ρ) := rfl
@[simp] theorem recode_head : (c.recode ρ).head = c.head := rfl
@[simp] theorem recode_form : (c.recode ρ).form = c.form := rfl
@[simp] theorem recode_framesAllowed : (c.recode ρ).framesAllowed = c.framesAllowed := rfl
@[simp] theorem recode_dropLineFeed : (c.recode ρ).dropLineFeed = c.dropLineFeed := rfl
@[simp] theorem recode_fostering : (c.recode ρ).fostering = c.fostering := rfl

section Questions

variable (node : Nat) (name : String) (names : List String)

@[simp] theorem nameOf_recode : (c.recode ρ).nameOf node = c.nameOf node := by
  simp [nameOf]

@[simp] theorem isOneOf_recode : (c.recode ρ).isOneOf names = c.isOneOf names := by
  funext node
  simp [isOneOf]

@[simp] theorem isNamed_recode : (c.recode ρ).isNamed name = c.isNamed name := by
  funext node
  simp [isNamed]

@[simp] theorem current_recode : (c.recode ρ).current = c.current := rfl

@[simp] theorem currentIn_recode : (c.recode ρ).currentIn names = c.currentIn names := by
  simp [currentIn]

@[simp] theorem currentIs_recode : (c.recode ρ).currentIs name = c.currentIs name := by
  simp [currentIs]

@[simp] theorem hasOpen_recode : (c.recode ρ).hasOpen name = c.hasOpen name := by
  simp [hasOpen]

@[simp] theorem holdsFormulaText_recode :
    (c.recode ρ).holdsFormulaText node = c.holdsFormulaText node := by
  simp [holdsFormulaText]

@[simp] theorem hostsOrdinary_recode :
    (c.recode ρ).hostsOrdinary node = c.hostsOrdinary node := by
  simp [hostsOrdinary]

@[simp] theorem isBound_recode : (c.recode ρ).isBound = c.isBound := by
  funext node
  simp [isBound]

@[simp] theorem inScopeWhere_recode (found : Nat → Bool) :
    (c.recode ρ).inScopeWhere found = c.inScopeWhere found := by
  simp [inScopeWhere]

@[simp] theorem inScope_recode : (c.recode ρ).inScope name = c.inScope name := by
  simp [inScope]

@[simp] theorem inListScope_recode : (c.recode ρ).inListScope name = c.inListScope name := by
  simp [inListScope]

@[simp] theorem inButtonScope_recode :
    (c.recode ρ).inButtonScope name = c.inButtonScope name := by
  simp [inButtonScope]

@[simp] theorem inTableScope_recode :
    (c.recode ρ).inTableScope names = c.inTableScope names := by
  simp [inTableScope]

@[simp] theorem inSelectScope_recode : (c.recode ρ).inSelectScope = c.inSelectScope := by
  simp [inSelectScope]

@[simp] theorem holder_recode : (c.recode ρ).holder node = c.holder node := by
  simp only [holder, recode_store, Store.get_recode, Entry.recode_content]
  cases (c.store.get node).content with
  | element _ _ _ contents => cases contents <;> rfl
  | _ => rfl

@[simp] theorem fosterPlace_recode (nodes : List Nat) :
    (c.recode ρ).fosterPlace nodes = c.fosterPlace nodes := by
  induction nodes with
  | nil => rfl
  | cons node rest induction => simp [fosterPlace, induction]

@[simp] theorem placeIn_recode : (c.recode ρ).placeIn node = c.placeIn node := by
  simp [placeIn]

@[simp] theorem isSettled_recode (entry : Formatting) :
    (c.recode ρ).isSettled (entry.recode ρ) = c.isSettled entry := by
  cases entry <;> rfl

@[simp] theorem body?_recode : (c.recode ρ).body? = c.body? := by
  simp [body?]

@[simp] theorem isForeign_recode : (c.recode ρ).isForeign = c.isForeign := by
  simp [isForeign]

@[simp] theorem rounds_recode : (c.recode ρ).rounds = c.rounds := rfl

theorem any_isFor_recode (entries : List Formatting) :
    (entries.map (Formatting.recode ρ)).any (·.isFor node) = entries.any (·.isFor node) := by
  simp [Function.comp_def]

@[simp] theorem fittingMode_recode (nodes : List Nat) :
    (c.recode ρ).fittingMode nodes = c.fittingMode nodes := by
  induction nodes with
  | nil => rfl
  | cons node rest induction => simp [fittingMode, induction]

end Questions

/-! ## Closing elements -/

section Closing

variable (node : Nat) (name : String) (names : List String) (found : Nat → Bool) (mode : Mode)

@[simp] theorem pop_recode : (c.recode ρ).pop = c.pop.recode ρ := rfl
@[simp] theorem push_recode : (c.recode ρ).push node = (c.push node).recode ρ := rfl
@[simp] theorem close_recode : (c.recode ρ).close node = (c.close node).recode ρ := rfl
@[simp] theorem popThrough_recode :
    (c.recode ρ).popThrough found = (c.popThrough found).recode ρ := rfl
@[simp] theorem goTo_recode : (c.recode ρ).goTo mode = (c.goTo mode).recode ρ := rfl
@[simp] theorem forbidFrames_recode :
    (c.recode ρ).forbidFrames = c.forbidFrames.recode ρ := rfl

@[simp] theorem popNamed_recode :
    (c.recode ρ).popNamed name = (c.popNamed name).recode ρ := by
  simp [popNamed]

@[simp] theorem popTo_recode : (c.recode ρ).popTo names = (c.popTo names).recode ρ := by
  simp only [popTo, isOneOf_recode]
  rfl

@[simp] theorem closeImplied_recode :
    (c.recode ρ).closeImplied names = (c.closeImplied names).recode ρ := by
  simp only [closeImplied, isOneOf_recode]
  rfl

@[simp] theorem closeImpliedExcept_recode :
    (c.recode ρ).closeImpliedExcept name = (c.closeImpliedExcept name).recode ρ := by
  simp [closeImpliedExcept]

@[simp] theorem closeParagraph_recode :
    (c.recode ρ).closeParagraph = c.closeParagraph.recode ρ := by
  simp [closeParagraph]

@[simp] theorem closeOpenParagraph_recode :
    (c.recode ρ).closeOpenParagraph = c.closeOpenParagraph.recode ρ := by
  simp only [closeOpenParagraph, inButtonScope_recode, closeParagraph_recode]
  split <;> rfl

@[simp] theorem closeOrdinary_recode :
    (c.recode ρ).closeOrdinary name = (c.closeOrdinary name).recode ρ := by
  simp only [closeOrdinary, isNamed_recode, isOneOf_recode, recode_opened,
    closeImpliedExcept_recode, popNamed_recode]
  split <;> rfl

@[simp] theorem fitMode_recode : (c.recode ρ).fitMode = c.fitMode.recode ρ := by
  simp only [fitMode, fittingMode_recode]
  rfl

end Closing

/-! ## Inserting -/

section Inserting

variable (node : Nat) (name : String) (tag : Tag) (vocabulary : Vocabulary)
  (attributes : List (String × String))

@[simp] theorem put_recode (place : Place) :
    (c.recode ρ).put place node = (c.put place node).recode ρ := by
  cases place with
  | inside parent =>
      simp only [put, recode_store, Store.append_recode]
      rfl
  | beside table fallback =>
      simp only [put, recode_store, Store.append_recode, Store.insertBefore_recode,
        Store.get_recode, Entry.recode_parent]
      split <;> rfl

@[simp] theorem addChar_recode (char : Char) :
    (c.recode ρ).addChar (ρ.char char) = (c.addChar char).recode ρ := by
  simp only [addChar, current_recode, placeIn_recode, recode_store,
    Store.appendChar_recode, Store.insertCharBefore_recode, Store.get_recode,
    Entry.recode_parent]
  split
  · rfl
  · split <;> rfl

@[simp] theorem create_recode :
    (c.recode ρ).create vocabulary name (attributes.map (recoded ρ)) =
      ((c.create vocabulary name attributes).1,
        (c.create vocabulary name attributes).2.recode ρ) := by
  have root (store : Store) : (store.recode ρ).add .root =
      ((store.add .root).1, (store.add .root).2.recode ρ) := store.add_recode .root
  have element (store : Store) (contents : Option Nat) :
      (store.recode ρ).add (.element vocabulary name (attributes.map (recoded ρ)) contents) =
        ((store.add (.element vocabulary name attributes contents)).1,
          (store.add (.element vocabulary name attributes contents)).2.recode ρ) :=
    store.add_recode (.element vocabulary name attributes contents)
  simp only [create, recode_store, root]
  split <;> simp only [element] <;> rfl

@[simp] theorem insertClosed_recode :
    (c.recode ρ).insertClosed vocabulary name (attributes.map (recoded ρ)) =
      ((c.insertClosed vocabulary name attributes).1,
        (c.insertClosed vocabulary name attributes).2.recode ρ) := by
  simp [insertClosed]

@[simp] theorem insertOpen_recode :
    (c.recode ρ).insertOpen vocabulary name (attributes.map (recoded ρ)) =
      ((c.insertOpen vocabulary name attributes).1,
        (c.insertOpen vocabulary name attributes).2.recode ρ) := by
  simp [insertOpen]

@[simp] theorem openTag_recode :
    (c.recode ρ).openTag (tag.recode ρ) = (c.openTag tag).recode ρ := by
  simp [openTag]

@[simp] theorem addEmpty_recode :
    (c.recode ρ).addEmpty (tag.recode ρ) = (c.addEmpty tag).recode ρ := by
  simp [addEmpty]

/-- An element without attributes has no values. -/
@[simp] theorem openNamed_recode :
    (c.recode ρ).openNamed name = (c.openNamed name).recode ρ :=
  congrArg Prod.snd (c.insertOpen_recode name .html [])

@[simp] theorem openRoot_recode :
    (c.recode ρ).openRoot (attributes.map (recoded ρ)) =
      (c.openRoot attributes).recode ρ := by
  simp only [openRoot, create_recode, recode_store, Store.append_recode]
  rfl

/-- A tag without attributes has no values. -/
@[simp] theorem openTag_bare_recode (selfClosing : Bool) :
    (c.recode ρ).openTag ⟨name, [], selfClosing⟩ =
      (c.openTag ⟨name, [], selfClosing⟩).recode ρ :=
  c.openTag_recode ⟨name, [], selfClosing⟩

@[simp] theorem openRoot_bare_recode :
    (c.recode ρ).openRoot [] = (c.openRoot []).recode ρ := c.openRoot_recode []

@[simp] theorem addComment_recode (text : String) :
    (c.recode ρ).addComment text = (c.addComment text).recode ρ := by
  have comment : (c.store.recode ρ).add (.comment text) =
      ((c.store.add (.comment text)).1, (c.store.add (.comment text)).2.recode ρ) :=
    c.store.add_recode (.comment text)
  have stored : { c.recode ρ with store := (c.store.add (.comment text)).2.recode ρ } =
      { c with store := (c.store.add (.comment text)).2 }.recode ρ := rfl
  simp only [addComment, recode_store, comment, stored, placeIn_recode, put_recode,
    current_recode]

@[simp] theorem addCommentTo_recode (parent : Nat) (text : String) :
    (c.recode ρ).addCommentTo parent text = (c.addCommentTo parent text).recode ρ := by
  have comment : (c.store.recode ρ).add (.comment text) =
      ((c.store.add (.comment text)).1, (c.store.add (.comment text)).2.recode ρ) :=
    c.store.add_recode (.comment text)
  simp only [addCommentTo, recode_store, comment, Store.append_recode]
  rfl

end Inserting

/-! ## Formatting elements -/

section FormattingElements

variable (node : Nat) (name : String) (tag : Tag) (entries : List Formatting)

theorem bne_marker_recode :
    (fun entry : Formatting => entry != .marker) ∘ Formatting.recode ρ =
      fun entry => entry != .marker := by
  funext entry
  cases entry <;> rfl

@[simp] theorem clearFormatting_recode :
    (c.recode ρ).clearFormatting = c.clearFormatting.recode ρ := by
  simp only [clearFormatting, recode_formatting, List.dropWhile_map, bne_marker_recode,
    ← List.map_tail]
  rfl

@[simp] theorem mark_recode : (c.recode ρ).mark = c.mark.recode ρ := rfl

@[simp] theorem recentFormatting_recode :
    (c.recode ρ).recentFormatting = c.recentFormatting.map (Formatting.recode ρ) := by
  simp only [recentFormatting, recode_formatting, List.takeWhile_map, bne_marker_recode]

@[simp] theorem forgetFormatting_recode :
    (c.recode ρ).forgetFormatting node = (c.forgetFormatting node).recode ρ := by
  simp only [forgetFormatting, recode_formatting, List.filter_map, Function.comp_def,
    Formatting.isFor_recode]
  rfl

@[simp] theorem reopen_recode (done pending : List Formatting) :
    (c.recode ρ).reopen (done.map (Formatting.recode ρ))
        (pending.map (Formatting.recode ρ)) =
      (c.reopen done pending).recode ρ := by
  induction pending generalizing c done with
  | nil => rfl
  | cons entry rest induction =>
      cases entry with
      | marker => exact induction c (.marker :: done)
      | element node tag =>
          simp only [List.map_cons, Formatting.recode, reopen, Tag.recode_name,
            Tag.recode_attributes, insertOpen_recode]
          exact induction _ (.element _ tag :: done)

@[simp] theorem reopenFormatting_recode :
    (c.recode ρ).reopenFormatting = c.reopenFormatting.recode ρ := by
  have pending : (fun entry => !(c.recode ρ).isSettled entry) ∘ Formatting.recode ρ =
      fun entry => !c.isSettled entry := by
    funext entry
    simp
  simp only [reopenFormatting, recode_formatting, List.takeWhile_map, pending, List.length_map,
    ← List.map_drop, ← List.map_reverse, reopen_recode]

@[simp] theorem sameAttributes_recoded (xs ys : List (String × String)) :
    sameAttributes (xs.map (recoded ρ)) (ys.map (recoded ρ)) = sameAttributes xs ys := by
  have contains (zs : List (String × String)) (entry : String × String) :
      (zs.map (recoded ρ)).contains (recoded ρ entry) = zs.contains entry := by
    rw [Bool.eq_iff_iff, List.contains_iff_mem, List.contains_iff_mem,
      List.mem_map_of_injective (recoded_injective ρ)]
  simp only [sameAttributes, List.length_map, List.all_map, Function.comp_def, contains]

theorem dropLast_recode {found found' : Formatting → Bool}
    (same : ∀ entry, found' (Formatting.recode ρ entry) = found entry) :
    dropLast found' (entries.map (Formatting.recode ρ)) =
      (dropLast found entries).map (Formatting.recode ρ) := by
  have both : found' ∘ Formatting.recode ρ = found := funext same
  simp only [dropLast, ← List.map_reverse, List.eraseP_map, both]

/-- The entry is for a tag with the same name and the same attributes. -/
def isLike (tag : Tag) : Formatting → Bool
  | .marker => false
  | .element _ other => other.name == tag.name && sameAttributes other.attributes tag.attributes

theorem isLike_recode (entry : Formatting) :
    isLike (tag.recode ρ) (entry.recode ρ) = isLike tag entry := by
  cases entry with
  | marker => rfl
  | element node other => simp [isLike, Formatting.recode, sameAttributes_recoded]

/-- The recent formatting elements that stay when another one like the tag is opened. -/
def keptFormatting (tag : Tag) (recent : List Formatting) : List Formatting :=
  if 3 ≤ recent.countP (isLike tag) then dropLast (isLike tag) recent else recent

theorem keptFormatting_recode :
    keptFormatting (tag.recode ρ) (entries.map (Formatting.recode ρ)) =
      (keptFormatting tag entries).map (Formatting.recode ρ) := by
  have count : (entries.map (Formatting.recode ρ)).countP (isLike (tag.recode ρ)) =
      entries.countP (isLike tag) := by
    rw [List.countP_map]
    exact congrArg (entries.countP ·) (funext (isLike_recode tag))
  rw [keptFormatting, count, keptFormatting]
  split
  · exact dropLast_recode entries (isLike_recode tag)
  · rfl

/-- A document without some of the formatting elements. -/
def keepFormatting (c : Construction) (tag : Tag) : Construction :=
  { c with formatting :=
      keptFormatting tag c.recentFormatting ++ c.formatting.drop c.recentFormatting.length }

theorem openFormatting_eq :
    c.openFormatting tag =
      let opened := (c.keepFormatting tag).insertOpen .html tag.name tag.attributes
      { opened.2 with formatting := .element opened.1 tag :: opened.2.formatting } := rfl

theorem openFormatting_recode :
    (c.recode ρ).openFormatting (tag.recode ρ) = (c.openFormatting tag).recode ρ := by
  have keep : (c.recode ρ).keepFormatting (tag.recode ρ) =
      (c.keepFormatting tag).recode ρ := by
    simp only [keepFormatting, recentFormatting_recode, keptFormatting_recode,
      recode_formatting, List.length_map, ← List.map_drop, ← List.map_append]
    rfl
  simp only [openFormatting_eq, keep, Tag.recode_name, Tag.recode_attributes,
    insertOpen_recode]
  rfl

theorem replaceFormatting_recode (entry : Formatting) :
    replaceFormatting node (entry.recode ρ) (entries.map (Formatting.recode ρ)) =
      (replaceFormatting node entry entries).map (Formatting.recode ρ) := by
  simp only [replaceFormatting, List.map_map]
  refine List.map_congr_left fun other _ => ?_
  simp only [Function.comp_apply, Formatting.isFor_recode]
  split <;> rfl

theorem insertFormatting_recode (entry : Formatting) :
    insertFormatting node (entry.recode ρ) (entries.map (Formatting.recode ρ)) =
      (insertFormatting node entry entries).map (Formatting.recode ρ) := by
  induction entries with
  | nil => rfl
  | cons other rest induction =>
      simp only [List.map_cons, insertFormatting, Formatting.isFor_recode, induction]
      split <;> rfl

/-- The state with all values and characters replaced. -/
def Adoption.recode (ρ : Recoding) (state : Adoption) : Adoption :=
  { state with construction := state.construction.recode ρ }

theorem find?_isFor_recode :
    (entries.map (Formatting.recode ρ)).find? (·.isFor node) =
      (entries.find? (·.isFor node)).map (Formatting.recode ρ) := by
  simp only [List.find?_map, Function.comp_def, Formatting.isFor_recode]

theorem adopt_recode (state : Adoption) (rank : Nat) :
    adopt (state.recode ρ) node rank = (adopt state node rank).recode ρ := by
  have found := find?_isFor_recode (ρ := ρ) node state.construction.formatting
  simp only [adopt, Adoption.recode, recode_formatting, found]
  cases state.construction.formatting.find? (·.isFor node) with
  | none => rfl
  | some entry =>
      cases entry with
      | marker => rfl
      | element _ tag =>
          simp only [Option.map_some, Formatting.recode, Tag.recode_name,
            Tag.recode_attributes, create_recode, forgetFormatting_recode]
          split
          · rfl
          · have replaced := replaceFormatting_recode (ρ := ρ) node
              (state.construction.create .html tag.name tag.attributes).2.formatting
              (.element (state.construction.create .html tag.name tag.attributes).1 tag)
            simp only [Formatting.recode] at replaced
            simp only [recode_formatting, replaced, recode_store, Store.append_recode]
            rfl

theorem adoptAll_recode (state : Adoption) (rank : Nat) (nodes : List Nat) :
    adoptAll (state.recode ρ) rank nodes = (adoptAll state rank nodes).recode ρ := by
  induction nodes generalizing state rank with
  | nil => rfl
  | cons node rest induction => rw [adoptAll, adopt_recode, induction, adoptAll]

/-- The last copy, or the block if there is none, goes to where the formatting element stands. -/
def Adoption.settle (state : Adoption) (opened : List Nat) (target : Nat) : Construction :=
  let c := { state.construction with
    opened := opened, store := state.construction.store.detach state.last }
  c.put (c.placeIn target) state.last

theorem Adoption.settle_recode (state : Adoption) (opened : List Nat) (target : Nat) :
    (state.recode ρ).settle opened target = (state.settle opened target).recode ρ := by
  have detached : { state.construction.recode ρ with
      opened := opened, store := (state.construction.store.recode ρ).detach state.last } =
      { state.construction with
        opened := opened, store := state.construction.store.detach state.last }.recode ρ := by
    rw [Store.detach_recode]
    rfl
  simp only [settle, Adoption.recode, recode_store, detached, placeIn_recode, put_recode]

/-- The entries after the copy of the formatting element has taken the place of the element. -/
def Adoption.enter (state : Adoption) (node : Nat) (entry : Formatting)
    (entries : List Formatting) : List Formatting :=
  match state.first with
  | none => replaceFormatting node entry entries
  | some first =>
    (insertFormatting first entry entries).filter fun other => !other.isFor node

theorem Adoption.enter_recode (state : Adoption) (entry : Formatting) :
    (state.recode ρ).enter node (entry.recode ρ) (entries.map (Formatting.recode ρ)) =
      (state.enter node entry entries).map (Formatting.recode ρ) := by
  simp only [Adoption.enter, Adoption.recode]
  cases state.first with
  | none => exact replaceFormatting_recode node entries entry
  | some first =>
      simp only [insertFormatting_recode, List.filter_map, Function.comp_def,
        Formatting.isFor_recode]

theorem splitFormatting_eq (inner : List Nat) (block : Nat) (between outer : List Nat) :
    c.splitFormatting node tag inner block between outer =
      let state := adoptAll ⟨c, [], block, none⟩ 1 between
      let settled := state.settle (inner ++ block :: state.kept.reverse ++ node :: outer)
        (outer.headD 0)
      let made := settled.create .html tag.name tag.attributes
      { made.2 with
        store := (made.2.store.moveChildren block made.1).append block made.1
        formatting := state.enter node (.element made.1 tag) made.2.formatting
        opened := inner ++ made.1 :: block :: state.kept.reverse ++ outer } := rfl

theorem splitFormatting_recode (inner : List Nat) (block : Nat) (between outer : List Nat) :
    (c.recode ρ).splitFormatting node (tag.recode ρ) inner block between outer =
      (c.splitFormatting node tag inner block between outer).recode ρ := by
  have start : (⟨c.recode ρ, [], block, none⟩ : Adoption) =
      Adoption.recode ρ ⟨c, [], block, none⟩ := rfl
  simp only [splitFormatting_eq, start, adoptAll_recode]
  generalize adoptAll ⟨c, [], block, none⟩ 1 between = state
  have kept : (state.recode ρ).kept = state.kept := rfl
  simp only [kept, Adoption.settle_recode, Tag.recode_name, Tag.recode_attributes,
    create_recode]
  generalize (state.settle _ _).create .html tag.name tag.attributes = made
  have entry := state.enter_recode (ρ := ρ) node made.2.formatting (.element made.1 tag)
  rw [Formatting.recode] at entry
  simp only [recode_store, recode_formatting, Store.moveChildren_recode,
    Store.append_recode, entry]
  rfl

/-- What is found among the recent formatting elements by something else than a value. -/
theorem find?_recentFormatting_recode (found : Formatting → Bool)
    (same : ∀ entry, found (Formatting.recode ρ entry) = found entry) :
    (c.recode ρ).recentFormatting.find? found =
      (c.recentFormatting.find? found).map (Formatting.recode ρ) := by
  have both : found ∘ Formatting.recode ρ = found := funext same
  rw [recentFormatting_recode, List.find?_map, both]

theorem closeFormattingOnce_recode :
    (c.recode ρ).closeFormattingOnce name =
      ((c.closeFormattingOnce name).1.recode ρ, (c.closeFormattingOnce name).2) := by
  simp only [closeFormattingOnce]
  rw [find?_recentFormatting_recode c _ (by rintro (_ | _) <;> rfl)]
  cases c.recentFormatting.find? _ with
  | none => simp
  | some entry =>
      cases entry with
      | marker => simp [Formatting.recode]
      | element node tag =>
          simp only [Option.map_some, Formatting.recode, recode_opened,
            inScopeWhere_recode, isOneOf_recode, forgetFormatting_recode,
            splitFormatting_recode]
          split
          · rfl
          split
          · rfl
          split
          · exact congrArg (·, false) (forgetFormatting_recode
              { c with opened := (c.opened.dropWhile (· != node)).tail } node)
          · rfl

theorem closeFormattingRounds_recode (rounds : Nat) :
    (c.recode ρ).closeFormattingRounds name rounds =
      (c.closeFormattingRounds name rounds).recode ρ := by
  induction rounds generalizing c with
  | zero => rfl
  | succ rounds induction =>
      rw [closeFormattingRounds, closeFormattingRounds, closeFormattingOnce_recode]
      cases c.closeFormattingOnce name with
      | mk next more =>
          cases more with
          | true => exact induction next
          | false => rfl

@[simp] theorem closeFormatting_recode :
    (c.recode ρ).closeFormatting name = (c.closeFormatting name).recode ρ := by
  simp only [closeFormatting, currentIs_recode, recode_formatting, any_isFor_recode,
    current_recode, pop_recode, closeFormattingRounds_recode]
  split <;> rfl

@[simp] theorem closeOpenLink_recode :
    (c.recode ρ).closeOpenLink = c.closeOpenLink.recode ρ := by
  simp only [closeOpenLink, isNamed_recode]
  rw [find?_recentFormatting_recode c _ (by rintro (_ | _) <;> rfl)]
  cases c.recentFormatting.find? _ with
  | none => rfl
  | some entry => cases entry <;> simp [Formatting.recode]

end FormattingElements
end Construction

end Markup
end ReactiveTemplate
