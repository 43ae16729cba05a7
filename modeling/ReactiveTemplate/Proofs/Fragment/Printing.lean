import ReactiveTemplate.Fragment.Markup
import ReactiveTemplate.Proofs.Code.Passage

/-!
# Printed markup

Nodes are printed with their tags, attributes and children in order.  What can be printed so that it
can be read back are nodes in which nothing ends a text, a value or a piece of code early.  The
lexer of code then finds the end of every printed element where it is, at every depth.
-/

namespace ReactiveTemplate
namespace Fragment

/-! ## Printing -/

/-- Code in braces. -/
def printCode (code : String) : List Char := '{' :: (code.toList ++ ['}'])

/-- The text of an attribute value. -/
def printValue : AttributeValue → List Char
  | .fixed text => '"' :: (text.toList ++ ['"'])
  | .dynamic e => printCode e.code

/-- The text of an attribute, with a space before it. -/
def printAttribute (attr : Attribute) : List Char :=
  ' ' :: (attr.name.toList ++ '=' :: printValue attr.value)

/-- The text of an opening tag behind its name. -/
def printHeader (attributes : List Attribute) : List Char :=
  attributes.flatMap printAttribute ++ ['>']

/-- The text of an element behind its name, around the text of its children.  An element that never
has children has no closing tag. -/
def printBody (tag : String) (attributes : List Attribute) (inner : List Char) : List Char :=
  printHeader attributes ++
    if Markup.isVoidElement tag then [] else inner ++ Code.closingTag tag.toList

/-- The text of an element around the text of its children. -/
def printElement (tag : String) (attributes : List Attribute) (inner : List Char) : List Char :=
  '<' :: (tag.toList ++ printBody tag attributes inner)

mutual

/-- The text of a node; fragments and document types are not part of markup in code. -/
def printNode : Node → List Char
  | .element tag attributes children _ | .component tag attributes children _ =>
    printElement tag attributes (printNodes children)
  | .text value _ => value.toList
  | .expression e => printCode e.code
  | .conditional .. | .optional .. | .loop .. | .doctype .. => []

/-- The text of nodes in order. -/
def printNodes : List Node → List Char
  | [] => []
  | node :: rest => printNode node ++ printNodes rest

end

/-! ## What can be printed -/

/-- Code that braces keep together: it shows something, and the brace behind it closes the one
before it. -/
def isPrintableCode (code : List Char) : Bool :=
  Text.trim code == code && !code.isEmpty && !isComment code &&
    Code.matching? ('{' :: (code ++ ['}'])) 0 == some (code.length + 1)

/-- A name that an attribute has in code and in the document. -/
def isPrintableName : List Char → Bool
  | first :: rest =>
    startsName first && rest.all continuesName &&
      attributeName (first :: rest) == String.ofList (first :: rest)
  | [] => false

/-- A value that its quotes or braces keep together. -/
def isPrintableValue : AttributeValue → Bool
  | .fixed text => text.toList.all fun c => c != '"' && c != '&'
  | .dynamic e => isPrintableCode e.code.toList

/-- An attribute that is read back from its text. -/
def isPrintableAttribute (attr : Attribute) : Bool :=
  isPrintableName attr.name.toList && isPrintableValue attr.value

/-- Text on one line without tags, braces and character references. -/
def isPlain (text : List Char) : Bool :=
  text.all fun c => c != '<' && c != '{' && c != '&' && c != '\n'

/-- The first node is text. -/
def startsWithText : List Node → Bool
  | .text .. :: _ => true
  | _ => false

/-- Nodes that are read back from their text. -/
inductive Printable : List Node → Prop where
  /-- No node. -/
  | nil : Printable []
  /-- Text, with no other text behind it. -/
  | text {value : String} {site : Site} {rest : List Node} :
      value ≠ "" → isPlain value.toList = true → startsWithText rest = false → Printable rest →
      Printable (.text value site :: rest)
  /-- An expression. -/
  | expression {e : Expression} {rest : List Node} :
      isPrintableCode e.code.toList = true → Printable rest → Printable (.expression e :: rest)
  /-- An element. -/
  | element {tag : String} {attributes : List Attribute} {children rest : List Node} {site : Site} :
      Code.isTagName tag.toList = true → Markup.isComponentTag tag = false →
      (Markup.isVoidElement tag = true → children = []) →
      attributes.all isPrintableAttribute = true → Printable children → Printable rest →
      Printable (.element tag attributes children site :: rest)
  /-- A usage of a component. -/
  | component {name : String} {attributes : List Attribute} {children rest : List Node}
      {site : Site} :
      Code.isTagName name.toList = true → Markup.isComponentTag name = true →
      Markup.isVoidElement name = false →
      attributes.all isPrintableAttribute = true → Printable children → Printable rest →
      Printable (.component name attributes children site :: rest)

variable {name text inner : List Char} {tag : String} {attributes : List Attribute}

theorem closingFrom_of_isPrintableCode {code : List Char}
    (printable : isPrintableCode code = true) :
    Code.closingFrom .afterOpening (code ++ ['}']) = some code.length := by
  simp only [isPrintableCode, Bool.and_eq_true, beq_iff_eq] at printable
  obtain ⟨-, matching⟩ := printable
  have bracket : Code.isOpening '{' = true := rfl
  simp only [Code.matching?, List.drop_zero, bracket, if_true] at matching
  obtain ⟨length, closing, same⟩ := Option.map_eq_some_iff.mp matching
  rw [closing]
  exact congrArg some (by omega)

theorem not_mem_of_isPrintableValue {text : String}
    (printable : isPrintableValue (.fixed text) = true) :
    '"' ∉ text.toList ∧ '&' ∉ text.toList := by
  have each := List.all_eq_true.mp printable
  refine ⟨?_, ?_⟩ <;>
  · intro member
    have other := each _ member
    simp at other

theorem not_mem_of_isPlain (plain : isPlain text = true) :
    '<' ∉ text ∧ '{' ∉ text ∧ '&' ∉ text ∧ '\n' ∉ text := by
  have each := List.all_eq_true.mp plain
  refine ⟨?_, ?_, ?_, ?_⟩ <;>
  · intro member
    have other := each _ member
    simp at other

/-! ## Where printed elements end -/

/-- The characters of attribute names do not end a tag. -/
theorem isTagFiller_of_isPrintableName (printable : isPrintableName name = true) :
    name.all Code.isTagFiller = true := by
  have apart : ∀ c, startsName c = true ∨ continuesName c = true → Code.isTagFiller c = true := by
    intro c part
    simp only [Code.isTagFiller, Bool.and_eq_true, bne_iff_ne]
    refine ⟨⟨⟨⟨?_, ?_⟩, ?_⟩, ?_⟩, ?_⟩ <;>
    · rintro rfl
      revert part
      decide
  cases name with
  | nil => rfl
  | cons first rest =>
      simp only [isPrintableName, Bool.and_eq_true] at printable
      obtain ⟨⟨starts, continues⟩, -⟩ := printable
      rw [List.all_cons, apart first (.inl starts), Bool.true_and, List.all_eq_true]
      exact fun c member => apart c (.inr (List.all_eq_true.mp continues c member))

theorem passes_printValue {depth : Nat} {void : Bool} {value : AttributeValue}
    (printable : isPrintableValue value = true) :
    Code.Passes (Code.insideTag depth void) (printValue value) (Code.insideTag depth void) := by
  cases value with
  | fixed text => exact .quoted (not_mem_of_isPrintableValue printable).1
  | dynamic e => exact .tagCode (closingFrom_of_isPrintableCode printable)

theorem passes_printAttribute {depth : Nat} {void : Bool} {attr : Attribute}
    (printable : isPrintableAttribute attr = true) :
    Code.Passes (Code.insideTag depth void) (printAttribute attr) (Code.insideTag depth void) := by
  simp only [isPrintableAttribute, Bool.and_eq_true] at printable
  have space : Code.Passes (Code.insideTag depth void) [' '] (Code.insideTag depth void) :=
    .filler rfl
  have name : Code.Passes (Code.insideTag depth void) attr.name.toList
      (Code.insideTag depth void) := .filler (isTagFiller_of_isPrintableName printable.1)
  have equals : Code.Passes (Code.insideTag depth void) ['='] (Code.insideTag depth void) :=
    .filler rfl
  exact space.append (name.append (equals.append (passes_printValue printable.2)))

theorem passes_attributes {depth : Nat} {void : Bool}
    (printable : attributes.all isPrintableAttribute = true) :
    Code.Passes (Code.insideTag depth void) (attributes.flatMap printAttribute)
      (Code.insideTag depth void) := by
  induction attributes with
  | nil => exact .nil _
  | cons attr rest induction =>
      rw [List.all_cons, Bool.and_eq_true] at printable
      exact (passes_printAttribute printable.1).append (induction printable.2)

/-- The name of a tag ends where its header begins. -/
theorem parts_printBody (tag : String) (attributes : List Attribute) (inner : List Char) :
    Code.Parts Code.isTagNamePart (printBody tag attributes inner) := by
  apply Code.Parts.append
  cases attributes with
  | nil => exact ⟨'>', [], rfl, rfl⟩
  | cons attr rest => exact ⟨' ', _, rfl, rfl⟩

/-- A printed element inside another one is passed over as a whole. -/
theorem passes_printElement {depth : Nat} (named : Code.isTagName tag.toList = true)
    (printable : attributes.all isPrintableAttribute = true)
    (below : ∀ depth, Code.Passes { depth := depth + 1 } inner { depth := depth + 1 }) :
    Code.Passes { depth := depth + 1 } (printElement tag attributes inner)
      { depth := depth + 1 } := by
  apply Code.Passes.enterTag named (parts_printBody tag attributes inner)
  rw [String.ofList_toList, printBody]
  cases void : Markup.isVoidElement tag with
  | true =>
      rw [if_pos rfl, List.append_nil]
      exact (passes_attributes printable).append .leaveVoid
  | false =>
      rw [if_neg Bool.false_ne_true]
      have leave : Code.Passes (Code.insideTag (depth + 1) false) ['>'] { depth := depth + 2 } :=
        .leaveTag
      have header := (passes_attributes printable).append leave
      exact header.append ((below (depth + 1)).append (.closingTag named))

/-- A printed element ends with its text. -/
theorem ends_printElement (named : Code.isTagName tag.toList = true)
    (printable : attributes.all isPrintableAttribute = true)
    (below : Code.Passes { depth := 1 } inner { depth := 1 }) :
    Code.Ends {} (printElement tag attributes inner) := by
  apply Code.Ends.enterTag named (parts_printBody tag attributes inner)
  rw [String.ofList_toList, printBody]
  cases void : Markup.isVoidElement tag with
  | true =>
      rw [if_pos rfl, List.append_nil]
      exact (passes_attributes printable).ends .leaveVoid
  | false =>
      rw [if_neg Bool.false_ne_true]
      have leave : Code.Passes (Code.insideTag 0 false) ['>'] { depth := 1 } := .leaveTag
      have header := (passes_attributes printable).append leave
      exact header.ends (below.ends (.closingTag named))

/-- Printed nodes inside an element are passed over as a whole. -/
theorem Printable.passes {nodes : List Node} (printable : Printable nodes) (depth : Nat) :
    Code.Passes { depth := depth + 1 } (printNodes nodes) { depth := depth + 1 } := by
  induction printable generalizing depth with
  | nil => exact .nil _
  | text _ plain _ _ induction =>
      obtain ⟨angle, brace, -, -⟩ := not_mem_of_isPlain plain
      exact (Code.Passes.plain angle brace).append (induction depth)
  | expression printable _ induction =>
      have closing := closingFrom_of_isPrintableCode printable
      exact (Code.Passes.contentCode closing).append (induction depth)
  | element named _ _ attributes _ _ below behind
  | component named _ _ attributes _ _ below behind =>
      exact (passes_printElement named attributes below).append (behind depth)

end Fragment
end ReactiveTemplate
