import ReactiveTemplate.Markup.Decode
import ReactiveTemplate.Proofs.Component.Completeness
import ReactiveTemplate.Proofs.Markup.Delivery
import ReactiveTemplate.Proofs.Markup.Document
import ReactiveTemplate.Proofs.Page.Pieces

/-!
# Reading a written page

What the tokenizer finds in the markup of a tree: the texts of the tree between tags, and in the
tags the values that were written, neither more nor less, whatever characters they have.  Main
statement: this holds of every tree with proper names in which no element is written with the same
attribute twice.  That the attributes of the tree have different names is not enough, as two of them
may handle one event.
-/

namespace ReactiveTemplate
namespace Page

open Markup (Delivers Quotes Token TokenizerState lowered)

/-! ## Legible pieces -/

/-- A letter, a digit or one of the marks that names may have. -/
def isNameSign (c : Char) : Bool := c.isAlphanum || c == '-' || c == '_' || c == ':'

/-- A name that starts with a letter and goes on with letters, digits and marks. -/
def isLegibleName : List Char → Bool
  | letter :: rest => letter.isAlpha && rest.all isNameSign
  | [] => false

/-- A text without the two characters that markup cannot hold. -/
def isLegibleText (text : List Char) : Bool := text.all fun c => c != '\r' && c != '\x00'

theorem isNamePart_of_isNameSign {c : Char} (sign : isNameSign c = true) :
    Markup.isNamePart c = true := by
  have other (special : Char) (foreign : isNameSign special = false) : c ≠ special := by
    rintro rfl
    rw [sign] at foreign
    cases foreign
  simp [Markup.isNamePart, Markup.isSpace, other ' ' rfl, other '\t' rfl, other '\n' rfl,
    other '\x0c' rfl, other '/' rfl, other '=' rfl, other '>' rfl, other '\x00' rfl]

theorem isNameSign_of_isAlpha {c : Char} (alpha : c.isAlpha = true) : isNameSign c = true := by
  simp [isNameSign, Char.isAlphanum, alpha]

/-- What has a letter as its small form is a letter. -/
theorem isAlpha_of_toLower {c : Char} (alpha : c.toLower.isAlpha = true) : c.isAlpha = true := by
  unfold Char.toLower at alpha
  split at alpha
  · rename_i capital
    unfold Char.isAlpha Char.isUpper
    rw [decide_eq_true capital, Bool.true_or]
  · exact alpha

theorem isAlpha_toLower {c : Char} (alpha : c.isAlpha = true) : c.toLower.isAlpha = true := by
  unfold Char.toLower
  split
  · rename_i capital
    unfold Char.isAlpha Char.isUpper Char.isLower
    simp only [Bool.or_eq_true, Bool.and_eq_true, decide_eq_true_eq]
    grind
  · exact alpha

/-- All characters of a legible name are signs, and there is one. -/
theorem isLegibleName_signs {name : List Char} (legible : isLegibleName name = true) :
    name ≠ [] ∧ name.all isNameSign = true := by
  cases name with
  | nil => cases legible
  | cons letter rest =>
      rw [isLegibleName, Bool.and_eq_true] at legible
      exact ⟨List.cons_ne_nil letter rest, by
        rw [List.all_cons, isNameSign_of_isAlpha legible.1, legible.2, Bool.and_self]⟩

theorem all_isNamePart_of_signs {name : List Char} (signs : name.all isNameSign = true) :
    name.all Markup.isNamePart = true := by
  rw [List.all_eq_true] at signs ⊢
  exact fun c member => isNamePart_of_isNameSign (signs c member)

theorem isTagName_of_isLegibleName {name : List Char} (legible : isLegibleName name = true) :
    Markup.isTagName name = true := by
  cases name with
  | nil => cases legible
  | cons letter rest =>
      rw [isLegibleName, Bool.and_eq_true] at legible
      rw [Markup.isTagName, legible.1, all_isNamePart_of_signs legible.2, Bool.and_self]

theorem isLegibleName_append {name rest : List Char} (legible : isLegibleName name = true)
    (signs : rest.all isNameSign = true) : isLegibleName (name ++ rest) = true := by
  cases name with
  | nil => cases legible
  | cons letter others =>
      rw [isLegibleName, Bool.and_eq_true] at legible
      rw [List.cons_append, isLegibleName, List.all_append, legible.1, legible.2, signs]
      rfl

/-- The field has a proper name, and a value that can be written. -/
def Field.Legible (field : Field) : Prop :=
  isLegibleName field.name = true ∧ ∀ value ∈ field.value, isLegibleText value = true

/-- The names of the piece are proper, no attribute is there twice, and its texts can be written. -/
def Piece.Legible : Piece → Prop
  | opening tag fields =>
    isLegibleName tag = true ∧ (∀ field ∈ fields, field.Legible) ∧
      (fields.map fun field => lowered field.name).Nodup
  | closing tag => isLegibleName tag = true
  | text value => isLegibleText value = true
  | raw _ => False
  | doctype name => isLegibleName name = true

/-! ## Tokens of a piece -/

theorem isReference_amp : Markup.isReference 'a' ['m', 'p'] '&' = true := by
  decide +kernel

theorem isReference_lt : Markup.isReference 'l' ['t'] '<' = true := by
  decide +kernel

theorem isReference_gt : Markup.isReference 'g' ['t'] '>' = true := by
  decide +kernel

theorem isReference_quot : Markup.isReference 'q' ['u', 'o', 't'] '"' = true := by
  decide +kernel

theorem plain_of_isLegibleText {text : List Char} {c : Char} (legible : isLegibleText text = true)
    (member : c ∈ text) : c ≠ '\r' ∧ c ≠ '\x00' := by
  simpa using List.all_eq_true.mp legible c member

/-- Text between tags is read as what it was before it was written. -/
theorem delivers_escapeText {text : List Char} (legible : isLegibleText text = true) :
    Delivers (escapeText text) (text.map Token.character) := by
  have amp : "&amp;".toList = ['&', 'a', 'm', 'p', ';'] := rfl
  have lt : "&lt;".toList = ['&', 'l', 't', ';'] := rfl
  have gt : "&gt;".toList = ['&', 'g', 't', ';'] := rfl
  have each : ∀ c ∈ text, Delivers (if c = '&' then "&amp;".toList else if c = '<' then "&lt;".toList
      else if c = '>' then "&gt;".toList else [c]) [Token.character c] := by
    intro c member
    by_cases literal : c = '&'
    · rw [if_pos literal, literal, amp]
      have read := Delivers.reference isReference_amp
      exact read
    by_cases angle : c = '<'
    · rw [if_neg literal, if_pos angle, angle, lt]
      have read := Delivers.reference isReference_lt
      exact read
    by_cases closing : c = '>'
    · rw [if_neg literal, if_neg angle, if_pos closing, closing, gt]
      have read := Delivers.reference isReference_gt
      exact read
    rw [if_neg literal, if_neg angle, if_neg closing]
    exact Delivers.of_yields fun s ready =>
      ⟨s, ready, ready.character angle literal (plain_of_isLegibleText legible member).2⟩
  rw [List.map_eq_flatMap]
  exact Delivers.flatMap each

/-- A value in quotes is read as what it was before it was written. -/
theorem quotes_escapeValue {value : List Char} (legible : isLegibleText value = true) :
    Quotes (escapeValue value) value := by
  intro s fresh reading
  have amp : "&amp;".toList = ['&', 'a', 'm', 'p', ';'] := rfl
  have quot : "&quot;".toList = ['&', 'q', 'u', 'o', 't', ';'] := rfl
  have read := Markup.Silent.collect
    (fun c => if c = '&' then "&amp;".toList else if c = '"' then "&quot;".toList else [c]) id
    (fun read => { s with attributeValue := read }) ?_ legible s.attributeValue
  · rwa [List.map_id] at read
  · intro c plain read
    have null : c ≠ '\x00' := by
      simp only [Bool.and_eq_true, bne_iff_ne] at plain
      exact plain.2
    by_cases literal : c = '&'
    · rw [if_pos literal, literal, amp]
      have stands := Markup.silent_reference (s := { s with attributeValue := read }) fresh reading
        isReference_amp
      exact stands
    by_cases quote : c = '"'
    · rw [if_neg literal, if_pos quote, quote, quot]
      have stands := Markup.silent_reference (s := { s with attributeValue := read }) fresh reading
        isReference_quot
      exact stands
    rw [if_neg literal, if_neg quote]
    exact Markup.silent_valueChar (s := { s with attributeValue := read }) fresh reading
      (by simp [Markup.isValueChar, literal, quote, null])

namespace Field

/-- The attribute that a field is read as. -/
def entry (field : Field) : String × String :=
  (String.ofList (lowered field.name), String.ofList (field.value.getD []))

theorem Legible.specifies {field : Field} (legible : field.Legible) :
    lowered field.name ≠ [] ∧
      TokenizerState.Specifies field.html (lowered field.name) (field.value.getD []) := by
  obtain ⟨name, value⟩ := field
  obtain ⟨named, valued⟩ := legible
  obtain ⟨nonempty, signs⟩ := isLegibleName_signs named
  have parts := all_isNamePart_of_signs signs
  refine ⟨by simpa [lowered] using nonempty, ?_⟩
  cases value with
  | none => exact TokenizerState.specifies_bare TokenizerState.single_space nonempty parts
  | some value =>
      have quotes := quotes_escapeValue (valued value rfl)
      have specifies := TokenizerState.specifies_valued TokenizerState.single_space
        nonempty parts quotes
      have same : (⟨name, some value⟩ : Field).html =
          ' ' :: (name ++ '=' :: '"' :: (escapeValue value ++ ['"'])) := by
        simp [html, assignment]
      rw [same]
      exact specifies

end Field

namespace Piece

/-- The tokens that a piece is read as. -/
def tokens : Piece → List Token
  | opening tag fields =>
    [.startTag ⟨String.ofList (lowered tag), fields.map Field.entry, false⟩]
  | closing tag => [.endTag ⟨String.ofList (lowered tag), [], false⟩]
  | text value | raw value => value.map .character
  | doctype name => [.doctype { name := some (String.ofList (lowered name)) }]

/-- A legible opening tag is read as one token, and its name is kept for the tag that closes it. -/
theorem Legible.yields {tag : List Char} {fields : List Field}
    (legible : (opening tag fields).Legible) {s : TokenizerState} (ready : s.Ready) :
    ∃ s', s'.Ready ∧ s'.lastStart = String.ofList (lowered tag) ∧
      Markup.Yields s (opening tag fields).html
        (.startTag ⟨String.ofList (lowered tag), fields.map Field.entry, false⟩) s' := by
  obtain ⟨named, readable, distinct⟩ := legible
  have distinct' : (fields.map fun field => String.ofList (lowered field.name)).Nodup := by
    have mapped := distinct.map (f := String.ofList) fun _ _ => String.ofList_injective
    rwa [List.map_map] at mapped
  have same : (opening tag fields).html =
      '<' :: (tag ++ (fields.flatMap Field.html ++ ['>'])) := by
    rw [← List.cons_append, ← List.append_assoc]
    rfl
  rw [same]
  exact ready.opening (isTagName_of_isLegibleName named)
    (fun field member => (readable field member).specifies) distinct'

theorem Legible.delivers {piece : Piece} (legible : piece.Legible) :
    Delivers piece.html piece.tokens := by
  cases piece with
  | opening tag fields =>
      apply Delivers.of_yields
      intro s ready
      obtain ⟨s', ready', -, yields⟩ := legible.yields ready
      exact ⟨s', ready', yields⟩
  | closing tag =>
      apply Delivers.of_yields
      intro s ready
      exact ready.closing (isTagName_of_isLegibleName legible)
  | text value => exact delivers_escapeText legible
  | raw value => cases legible
  | doctype name =>
      obtain ⟨nonempty, signs⟩ := isLegibleName_signs legible
      have delivers := Delivers.doctype nonempty (all_isNamePart_of_signs signs)
      have same : (doctype name).html =
          '<' :: '!' :: ("DOCTYPE".toList ++ ' ' :: (name ++ ['>'])) := by
        show "<!DOCTYPE ".toList ++ name ++ ['>'] = _
        rw [List.append_assoc]
        rfl
      rw [same]
      exact delivers

end Piece

/-! ## Line ends -/

theorem return_notMem_signs {name : List Char} (signs : name.all isNameSign = true) :
    '\r' ∉ name := by
  intro member
  cases List.all_eq_true.mp signs '\r' member

theorem return_notMem_escapeText {text : List Char} (legible : isLegibleText text = true) :
    '\r' ∉ escapeText text := by
  have references : '\r' ∉ "&amp;".toList ∧ '\r' ∉ "&lt;".toList ∧ '\r' ∉ "&gt;".toList := by
    decide
  intro member
  obtain ⟨c, inside, written⟩ := List.mem_flatMap.mp member
  have plain := (plain_of_isLegibleText legible inside).1
  split at written
  · exact references.1 written
  split at written
  · exact references.2.1 written
  split at written
  · exact references.2.2 written
  · exact plain (List.mem_singleton.mp written).symm

theorem return_notMem_escapeValue {value : List Char} (legible : isLegibleText value = true) :
    '\r' ∉ escapeValue value := by
  have references : '\r' ∉ "&amp;".toList ∧ '\r' ∉ "&quot;".toList := by
    decide
  intro member
  obtain ⟨c, inside, written⟩ := List.mem_flatMap.mp member
  have plain := (plain_of_isLegibleText legible inside).1
  split at written
  · exact references.1 written
  split at written
  · exact references.2 written
  · exact plain (List.mem_singleton.mp written).symm

theorem Field.Legible.return_notMem {field : Field} (legible : field.Legible) :
    '\r' ∉ field.html := by
  obtain ⟨name, value⟩ := field
  obtain ⟨named, valued⟩ := legible
  have name_free := return_notMem_signs (isLegibleName_signs named).2
  cases value with
  | none => simpa [html] using name_free
  | some value =>
      have value_free := return_notMem_escapeValue (valued value rfl)
      simp [html, assignment, name_free, value_free]

/-- A legible piece is written without carriage returns. -/
theorem Piece.Legible.return_notMem {piece : Piece} (legible : piece.Legible) :
    '\r' ∉ piece.html := by
  cases piece with
  | opening tag fields =>
      obtain ⟨named, readable, -⟩ := legible
      have tag_free := return_notMem_signs (isLegibleName_signs named).2
      have fields_free : '\r' ∉ fields.flatMap Field.html := by
        intro member
        obtain ⟨field, inside, written⟩ := List.mem_flatMap.mp member
        exact (readable field inside).return_notMem written
      have same : (opening tag fields).html = openTag tag (fields.flatMap Field.html) := rfl
      simp [same, openTag, tag_free, fields_free]
  | closing tag =>
      have tag_free := return_notMem_signs (isLegibleName_signs legible).2
      have same : (closing tag).html = closeTag tag := rfl
      simp [same, closeTag, tag_free]
  | text value => exact return_notMem_escapeText legible
  | raw value => cases legible
  | doctype name =>
      have name_free := return_notMem_signs (isLegibleName_signs legible).2
      have same : (doctype name).html = "<!DOCTYPE ".toList ++ name ++ ['>'] := rfl
      simp [same, name_free]

/-! ## What a tree shows -/

/-- The value under which an attribute is written.  The handler of an event stands without the
blanks around it, or is named by its code if that is a name. -/
def writtenValue (attr : Attribute) : String :=
  match attr.value with
  | .fixed text => if (eventName? attr.name).isSome then Text.trimmed text else text
  | .dynamic e => if (eventName? attr.name).isSome && isName e.code.toList then e.code else e.id

/-- The name under which an attribute is written. -/
def writtenName (attr : Attribute) : List Char := (Field.ofAttribute attr).name

mutual

/-- The texts of a node that are written, in the order of the document. -/
def nodeText : Node → List Char
  | .text value _ => value.toList
  | .element tag _ children _ => if Markup.isVoidElement tag then [] else nodesText children
  | .conditional _ _ consequent alternate _ => nodesText consequent ++ nodesText alternate
  | .optional _ _ below _ | .loop _ _ _ below _ => nodesText below
  | .expression _ | .doctype .. | .component .. => []

/-- The texts of a list of nodes that are written. -/
def nodesText : List Node → List Char
  | [] => []
  | node :: rest => nodeText node ++ nodesText rest

end

mutual

/-- The values that are written into the tags of a node, in order. -/
def nodeValues : Node → List String
  | .element tag attributes children _ =>
    attributes.map writtenValue ++ if Markup.isVoidElement tag then [] else nodesValues children
  | .expression e => [e.id, "display: contents;"]
  | .conditional id _ consequent alternate _ =>
    id :: "true" :: "display: contents;" :: (nodesValues consequent ++
      id :: "false" :: "display: none;" :: nodesValues alternate)
  | .optional id _ branch _ => id :: "display: contents;" :: nodesValues branch
  | .loop id _ binder body _ =>
    id :: binder.item :: (binder.index.toList ++ nodesValues body)
  | .text .. | .doctype .. | .component .. => []

/-- The values that are written into the tags of a list of nodes. -/
def nodesValues : List Node → List String
  | [] => []
  | node :: rest => nodeValues node ++ nodesValues rest

end

/-- The text that an attribute brings into the markup: its value, or the id of its expression. -/
def attributeText (attr : Attribute) : String :=
  match attr.value with
  | .fixed text => text
  | .dynamic e => e.id

/-- The attribute has a proper name and a text that can be written. -/
def LegibleAttribute (attr : Attribute) : Prop :=
  isLegibleName attr.name.toList = true ∧ isLegibleText (attributeText attr).toList = true

instance (attr : Attribute) : Decidable (LegibleAttribute attr) :=
  inferInstanceAs (Decidable (_ ∧ _))

/-- The node is not a usage and has no raw text, its names are proper and its texts can be written,
and the given names of its attributes are different whatever the case of their letters. -/
def Legible (nameOf : Attribute → List Char) : Node → Prop
  | .component .. => False
  | .element tag attributes _ _ =>
    holdsRawText tag = false ∧ isLegibleName tag.toList = true ∧
      (∀ attr ∈ attributes, LegibleAttribute attr) ∧
      (attributes.map fun attr => lowered (nameOf attr)).Nodup
  | .text value _ => isLegibleText value.toList = true
  | .expression e => isLegibleText e.id.toList = true
  | .conditional id _ _ _ _ | .optional id _ _ _ => isLegibleText id.toList = true
  | .loop id _ binder _ _ =>
    isLegibleText id.toList = true ∧ isLegibleText binder.item.toList = true ∧
      ∀ index ∈ binder.index, isLegibleText index.toList = true
  | .doctype name _ _ _ => isLegibleName name.toList = true

instance (nameOf : Attribute → List Char) : (node : Node) → Decidable (Legible nameOf node)
  | .component .. => inferInstanceAs (Decidable False)
  | .element .. => inferInstanceAs (Decidable (_ ∧ _ ∧ _ ∧ _))
  | .loop .. => inferInstanceAs (Decidable (_ ∧ _ ∧ _))
  | .text .. | .expression _ | .conditional .. | .optional .. | .doctype .. =>
    inferInstanceAs (Decidable (_ = _))

instance (holds : Node → Prop) [DecidablePred holds] (nodes : List Node) :
    Decidable (Node.Everywhere holds nodes) :=
  inferInstanceAs (Decidable (∀ node ∈ Node.allNodesOfList nodes, holds node))

/-! ## Legible trees -/

theorem eventName?_letters {name : String} {event : List Char}
    (found : eventName? name = some event) : event.all Char.isAlpha = true := by
  unfold eventName? at found
  dsimp only at found
  split at found
  · split at found
    · rename_i letters
      cases found
      rw [Bool.and_eq_true, List.all_eq_true] at letters
      rw [List.all_map, List.all_eq_true]
      exact fun c member => isAlpha_toLower (letters.2 c member)
    · cases found
  · cases found

theorem eventName?_signs {name : String} {event : List Char} (found : eventName? name = some event) :
    event.all isNameSign = true := by
  have letters := eventName?_letters found
  rw [List.all_eq_true] at letters ⊢
  exact fun c member => isNameSign_of_isAlpha (letters c member)

/-- A name in code has no character that markup cannot hold. -/
theorem isLegibleText_of_isName {code : List Char} (named : isName code = true) :
    isLegibleText code = true := by
  have part (c : Char) (member : c ∈ code) :
      (Text.isAlphabetic c || Text.isAlphanumeric c || c == '_' || c == '$') = true := by
    cases code with
    | nil => cases member
    | cons first rest =>
        rw [isName, Bool.and_eq_true] at named
        rcases List.mem_cons.mp member with same | inside
        · rw [same]
          have first := named.1
          grind
        · have others := List.all_eq_true.mp named.2 c inside
          grind
  rw [isLegibleText, List.all_eq_true]
  intro c member
  have other (special : Char)
      (foreign : (Text.isAlphabetic special || Text.isAlphanumeric special || special == '_' ||
        special == '$') = false) : c ≠ special := by
    rintro rfl
    rw [part c member] at foreign
    cases foreign
  simp [other '\r' (by decide), other '\x00' (by decide)]

theorem isLegibleText_trim {text : List Char} (legible : isLegibleText text = true) :
    isLegibleText (Text.trim text) = true := by
  rw [isLegibleText, List.all_eq_true] at legible ⊢
  intro c member
  apply legible
  rw [Text.trim, Text.trimEnd, List.mem_reverse] at member
  have inside := (List.dropWhile_suffix _).subset member
  rw [List.mem_reverse] at inside
  exact (List.dropWhile_suffix _).subset inside

theorem isLegibleName_prefixed {lead rest : List Char} (lead_legible : isLegibleName lead = true)
    (signs : rest.all isNameSign = true) {value : List Char}
    (valued : isLegibleText value = true) : Field.Legible ⟨lead ++ rest, some value⟩ := by
  refine ⟨isLegibleName_append lead_legible signs, ?_⟩
  rintro other ⟨rfl⟩
  exact valued

/-- A legible attribute is written as a legible field with the value of the attribute. -/
theorem LegibleAttribute.field {attr : Attribute} (legible : LegibleAttribute attr) :
    (Field.ofAttribute attr).Legible ∧
      String.ofList ((Field.ofAttribute attr).value.getD []) = writtenValue attr := by
  obtain ⟨named, valued⟩ := legible
  have plain_lead : isLegibleName "data-zen-".toList = true := by decide
  have marker_lead : isLegibleName "data-zen-attr-".toList = true := by decide
  have on_signs : "on".toList.all isNameSign = true := by decide
  have name_signs := (isLegibleName_signs named).2
  unfold attributeText at valued
  unfold Field.ofAttribute formOf writtenValue
  cases value_eq : attr.value with
  | fixed text =>
      rw [value_eq] at valued
      cases event_eq : eventName? attr.name with
      | some event =>
          refine ⟨isLegibleName_prefixed plain_lead (eventName?_signs event_eq)
            (isLegibleText_trim valued), ?_⟩
          simp [Text.trimmed]
      | none =>
          by_cases empty : text.isEmpty = true
          · have blank : text = "" := by simpa using empty
            simp only [empty, if_true]
            refine ⟨⟨named, nofun⟩, ?_⟩
            simp [blank]
          · simp only [empty]
            refine ⟨⟨named, ?_⟩, ?_⟩
            · rintro other ⟨rfl⟩
              exact valued
            · simp
  | dynamic e =>
      rw [value_eq] at valued
      cases event_eq : eventName? attr.name with
      | some event =>
          have event_signs := eventName?_signs event_eq
          by_cases handler : isName e.code.toList = true
          · simp only [handler, if_true]
            refine ⟨isLegibleName_prefixed plain_lead event_signs
              (isLegibleText_of_isName handler), ?_⟩
            simp
          · simp only [handler]
            refine ⟨isLegibleName_prefixed marker_lead ?_ valued, ?_⟩
            · rw [List.all_append, on_signs, event_signs, Bool.and_self]
            · simp
      | none =>
          refine ⟨isLegibleName_prefixed marker_lead name_signs valued, ?_⟩
          simp

/-! ## Tokens of a tree -/

/-- The text that a token brings. -/
def tokenText : Token → List Char
  | .character c => [c]
  | _ => []

/-- The values that a token brings. -/
def tokenValues : Token → List String
  | .startTag tag | .endTag tag => tag.attributes.map (·.2)
  | _ => []

/-- The pieces are legible, and are read as the given text between tags and the given values. -/
structure Shows (pieces : List Piece) (text : List Char) (values : List String) : Prop where
  legible : ∀ piece ∈ pieces, piece.Legible
  text_eq : (pieces.flatMap Piece.tokens).flatMap tokenText = text
  values_eq : (pieces.flatMap Piece.tokens).flatMap tokenValues = values

namespace Shows

variable {pieces left right : List Piece} {text text' : List Char} {values values' : List String}

theorem nil : Shows [] [] [] := ⟨nofun, rfl, rfl⟩

theorem append (before : Shows left text values) (after : Shows right text' values') :
    Shows (left ++ right) (text ++ text') (values ++ values') := by
  refine ⟨?_, ?_, ?_⟩
  · rw [List.forall_mem_append]
    exact ⟨before.legible, after.legible⟩
  · rw [List.flatMap_append, List.flatMap_append, before.text_eq, after.text_eq]
  · rw [List.flatMap_append, List.flatMap_append, before.values_eq, after.values_eq]

theorem plain {value : List Char} (legible : isLegibleText value = true) :
    Shows [.text value] value [] := by
  refine ⟨?_, ?_, ?_⟩
  · rw [List.forall_mem_singleton]
    exact legible
  · simp [Piece.tokens, List.flatMap_map, tokenText]
  · simp [Piece.tokens, List.flatMap_map, tokenValues]

theorem doctype {name : List Char} (legible : isLegibleName name = true) :
    Shows [.doctype name] [] [] := by
  refine ⟨?_, rfl, rfl⟩
  rw [List.forall_mem_singleton]
  exact legible

/-- An opening tag shows the values of its fields. -/
theorem opening {tag : List Char} {fields : List Field} (named : isLegibleName tag = true)
    (readable : ∀ field ∈ fields, field.Legible)
    (distinct : (fields.map fun field => lowered field.name).Nodup) :
    Shows [.opening tag fields] []
      (fields.map fun field => String.ofList (field.value.getD [])) := by
  refine ⟨?_, rfl, ?_⟩
  · rw [List.forall_mem_singleton]
    exact ⟨named, readable, distinct⟩
  · simp [Piece.tokens, tokenValues, Field.entry]

/-- What is enclosed in an element comes after the values of its fields. -/
theorem enclose {tag : String} {fields : List Field} (named : isLegibleName tag.toList = true)
    (readable : ∀ field ∈ fields, field.Legible)
    (distinct : (fields.map fun field => lowered field.name).Nodup)
    (content : Shows pieces text values) :
    Shows (Piece.enclose tag fields pieces) text
      ((fields.map fun field => String.ofList (field.value.getD [])) ++ values) := by
  have closing : Shows [.closing tag.toList] [] [] := by
    refine ⟨?_, rfl, rfl⟩
    rw [List.forall_mem_singleton]
    exact named
  have whole := (opening named readable distinct).append (content.append closing)
  simpa [Piece.enclose] using whole

end Shows

theorem Field.legible_valued {name : String} {value : List Char}
    (named : isLegibleName name.toList = true) (legible : isLegibleText value = true) :
    (Field.valued name value).Legible := by
  refine ⟨named, ?_⟩
  rintro other ⟨rfl⟩
  exact legible

/-- An element that marks a site, with the id and the way it is displayed. -/
theorem shows_site {tag marker style : String} {id : String} {pieces : List Piece}
    {text : List Char} {values : List String} (tagged : isLegibleName tag.toList = true)
    (marked : isLegibleName marker.toList = true) (styled : isLegibleText style.toList = true)
    (distinct : [lowered marker.toList, lowered "style".toList].Nodup)
    (legible : isLegibleText id.toList = true) (content : Shows pieces text values) :
    Shows (Piece.enclose tag [.valued marker id.toList, .display style] pieces) text
      (id :: style :: values) := by
  have style_legible : (Field.display style).Legible :=
    Field.legible_valued (by decide) styled
  have whole := Shows.enclose tagged
    (List.forall_mem_cons.mpr ⟨Field.legible_valued marked legible,
      List.forall_mem_singleton.mpr style_legible⟩) distinct content
  simpa [Field.valued, Field.display] using whole

/-- One of the two branches of a choice. -/
theorem shows_branch {id name style : String} {pieces : List Piece} {text : List Char}
    {values : List String} (legible : isLegibleText id.toList = true)
    (named : isLegibleText name.toList = true) (styled : isLegibleText style.toList = true)
    (content : Shows pieces text values) :
    Shows (Piece.enclose "div" (Field.ofBranch id name style) pieces) text
      (id :: name :: style :: values) := by
  have names : isLegibleName "data-zen-cond".toList = true ∧
      isLegibleName "data-zen-branch".toList = true ∧ isLegibleName "style".toList = true ∧
      isLegibleName "div".toList = true := by
    decide
  have distinct : [lowered "data-zen-cond".toList, lowered "data-zen-branch".toList,
      lowered "style".toList].Nodup := by
    decide
  have readable : ∀ field ∈ Field.ofBranch id name style, field.Legible := by
    simp only [Field.ofBranch, List.forall_mem_cons]
    exact ⟨Field.legible_valued names.1 legible, Field.legible_valued names.2.1 named,
      Field.legible_valued names.2.2.1 styled, List.forall_mem_nil _⟩
  have whole := Shows.enclose names.2.2.2 readable distinct content
  simpa [Field.ofBranch, Field.valued, Field.display] using whole

/-- The element that holds the body of a loop. -/
theorem shows_loop {id : String} {binder : LoopBinder} {pieces : List Piece} {text : List Char}
    {values : List String} (legible : isLegibleText id.toList = true)
    (item_legible : isLegibleText binder.item.toList = true)
    (index_legible : ∀ index ∈ binder.index, isLegibleText index.toList = true)
    (content : Shows pieces text values) :
    Shows (Piece.enclose "template" (Field.ofLoop id binder) pieces) text
      (id :: binder.item :: (binder.index.toList ++ values)) := by
  have names : isLegibleName "data-zen-loop".toList = true ∧
      isLegibleName "data-zen-item".toList = true ∧
      isLegibleName "data-zen-index".toList = true ∧
      isLegibleName "template".toList = true := by
    decide
  have distinct : [lowered "data-zen-loop".toList, lowered "data-zen-item".toList,
      lowered "data-zen-index".toList].Nodup := by
    decide
  have readable : ∀ field ∈ Field.ofLoop id binder, field.Legible := by
    simp only [Field.ofLoop, List.forall_mem_cons, List.forall_mem_map]
    exact ⟨Field.legible_valued names.1 legible, Field.legible_valued names.2.1 item_legible,
      fun index member => Field.legible_valued names.2.2.1
        (index_legible index (Option.mem_toList.mp member))⟩
  have distinct' : ((Field.ofLoop id binder).map fun field => lowered field.name).Nodup := by
    cases index_eq : binder.index with
    | none =>
        simp only [Field.ofLoop, index_eq]
        exact distinct.sublist (List.sublist_append_left [_, _] [_])
    | some index =>
        simp only [Field.ofLoop, index_eq]
        exact distinct
  have whole := Shows.enclose names.2.2.2 readable distinct' content
  simpa [Field.ofLoop, Field.valued, Function.comp_def] using whole

mutual

/-- A legible node is read as its texts and its values. -/
theorem nodePieces_shows : ∀ {node : Node}, Node.Everywhere (Legible writtenName) [node] →
    Shows (nodePieces node) (nodeText node) (nodeValues node)
  | .doctype name _ _ _, legible => by
      obtain ⟨own, -⟩ := Node.everywhere_singleton.mp legible
      have nonempty : name.isEmpty = false := by
        rw [Bool.eq_false_iff]
        intro empty
        have blank : name = "" := by simpa using empty
        rw [blank] at own
        cases own
      rw [nodePieces, nodeText, nodeValues, nonempty, if_neg Bool.false_ne_true]
      exact Shows.doctype own
  | .text value site, legible => by
      obtain ⟨own, -⟩ := Node.everywhere_singleton.mp legible
      rw [nodePieces, nodeText, nodeValues]
      exact Shows.plain own
  | .element tag attributes children site, legible => by
      obtain ⟨⟨ordinary, named, readable, distinct⟩, below⟩ := Node.everywhere_singleton.mp legible
      have fields_legible : ∀ field ∈ attributes.map Field.ofAttribute, field.Legible := by
        rw [List.forall_mem_map]
        exact fun attr member => (readable attr member).field.1
      have fields_distinct :
          ((attributes.map Field.ofAttribute).map fun field => lowered field.name).Nodup := by
        rw [List.map_map]
        exact distinct
      have values_eq : (attributes.map Field.ofAttribute).map (fun field =>
          String.ofList (field.value.getD [])) = attributes.map writtenValue := by
        rw [List.map_map]
        exact List.map_congr_left fun attr member => (readable attr member).field.2
      have content := nodesPieces_shows (below children List.mem_cons_self)
      rw [nodePieces, nodeText, nodeValues, ← values_eq]
      by_cases empty : Markup.isVoidElement tag = true
      · simp only [empty, if_true, List.append_nil]
        exact Shows.opening named fields_legible fields_distinct
      · simp only [empty, ordinary]
        exact Shows.enclose named fields_legible fields_distinct content
  | .expression e, legible => by
      obtain ⟨own, -⟩ := Node.everywhere_singleton.mp legible
      rw [nodePieces, nodeText, nodeValues]
      exact shows_site (by decide) (by decide) (by decide)
        (by decide) own Shows.nil
  | .conditional id condition consequent alternate site, legible => by
      obtain ⟨own, below⟩ := Node.everywhere_singleton.mp legible
      have first := nodesPieces_shows (below consequent List.mem_cons_self)
      have second := nodesPieces_shows (below alternate (List.mem_cons_of_mem _ List.mem_cons_self))
      rw [nodePieces, nodeText, nodeValues]
      exact (shows_branch own (by decide) (by decide) first).append
        (shows_branch own (by decide) (by decide) second)
  | .optional id condition branch site, legible => by
      obtain ⟨own, below⟩ := Node.everywhere_singleton.mp legible
      rw [nodePieces, nodeText, nodeValues]
      exact shows_site (by decide) (by decide) (by decide)
        (by decide) own (nodesPieces_shows (below branch List.mem_cons_self))
  | .loop id source binder body site, legible => by
      obtain ⟨⟨own, item, index⟩, below⟩ := Node.everywhere_singleton.mp legible
      rw [nodePieces, nodeText, nodeValues]
      exact shows_loop own item index (nodesPieces_shows (below body List.mem_cons_self))
  | .component .., legible => ((Node.everywhere_singleton.mp legible).1).elim

/-- A legible tree is read as its texts and its values. -/
theorem nodesPieces_shows : ∀ {nodes : List Node}, Node.Everywhere (Legible writtenName) nodes →
    Shows (nodesPieces nodes) (nodesText nodes) (nodesValues nodes)
  | [], _ => by
      rw [nodesPieces, nodesText, nodesValues]
      exact Shows.nil
  | node :: rest, legible => by
      obtain ⟨own, others⟩ := Node.everywhere_cons.mp legible
      rw [nodesPieces, nodesText, nodesValues]
      exact (nodePieces_shows (Node.everywhere_singleton.mpr own)).append
        (nodesPieces_shows others)

end

/-! ## The markup of a tree -/

/-- What is collected from tokens. -/
theorem foldl_take (tokens : List Token) (collected : Markup.Collected) :
    (tokens.foldl Markup.Collected.take collected).text.reverse =
        collected.text.reverse ++ tokens.flatMap tokenText ∧
      (tokens.foldl Markup.Collected.take collected).values.reverse =
        collected.values.reverse ++ tokens.flatMap tokenValues := by
  induction tokens generalizing collected with
  | nil => simp
  | cons token rest induction =>
      obtain ⟨text_eq, values_eq⟩ := induction (collected.take token)
      rw [List.foldl_cons, text_eq, values_eq]
      cases token <;> simp [Markup.Collected.take, tokenText, tokenValues]

/-- Whoever collects texts and values takes all tokens, and has the markup read on. -/
def collector : Markup.Consumer Markup.Collected :=
  { take := fun collected token => (collected.take token, .proceed)
    foreign := fun _ => false }

theorem accept_collector (tokens : List Token) (collected : Markup.Collected) :
    collector.accept collected tokens = some (tokens.foldl Markup.Collected.take collected) := by
  induction tokens generalizing collected with
  | nil => rfl
  | cons token rest induction => exact induction (collected.take token)

/-- The text starts with a byte order mark, which is no part of the markup. -/
def startsMarked (text : List Char) : Bool := text.head?.any fun c => c.toNat == 0xfeff

theorem prepare_eq {text : List Char} (unmarked : startsMarked text = false)
    (unix : '\r' ∉ text) : Markup.prepare text = text := by
  cases text with
  | nil => rfl
  | cons c rest =>
      have plain : ¬c.toNat = 0xfeff := by simpa [startsMarked] using unmarked
      rw [Markup.prepare, if_neg plain, Markup.normalizeLines_eq unix]

/-- The texts and values of a tree come out of its markup as they went in.  Whatever characters they
have, none of them starts or ends a tag or a value. -/
theorem collect_emit {nodes : List Node} (legible : Node.Everywhere (Legible writtenName) nodes)
    (unmarked : startsMarked (emit nodes).html.toList = false) :
    (Markup.collect (emit nodes).html.toList).text.reverse = nodesText nodes ∧
      (Markup.collect (emit nodes).html.toList).values.reverse = nodesValues nodes := by
  have html_eq : (emit nodes).html.toList = (nodesPieces nodes).flatMap Piece.html := by
    rw [emit, String.toList_ofList, nodesHtml_eq]
  rw [html_eq] at unmarked ⊢
  have shows := nodesPieces_shows legible
  have unix : '\r' ∉ (nodesPieces nodes).flatMap Piece.html := by
    intro member
    obtain ⟨piece, inside, written⟩ := List.mem_flatMap.mp member
    exact (shows.legible piece inside).return_notMem written
  have delivers := Delivers.flatMap fun piece member => (shows.legible piece member).delivers
  have collected := delivers.run_eq (prepare_eq unmarked unix) (accept_collector _ {})
  obtain ⟨text_eq, values_eq⟩ := foldl_take ((nodesPieces nodes).flatMap Piece.tokens) {}
  rw [shows.text_eq] at text_eq
  rw [shows.values_eq] at values_eq
  rw [show Markup.collect ((nodesPieces nodes).flatMap Piece.html) = _ from collected]
  exact ⟨text_eq, values_eq⟩

/-- A page with texts and values that look like markup. -/
def hostileNodes : List Node :=
  [.doctype "html" "" "" {},
    .element "A-b" [⟨"title", .fixed "\"><script>&quot;", {}⟩, ⟨"onClick", .fixed " go ", {}⟩,
      ⟨"hidden", .fixed "", {}⟩] [.text "</a-b>&lt;&" {}, .element "br" [] [.text "x" {}] {}] {},
    .loop "loop_0" "items" ⟨"a=\">\"", some "i&gt", ["b", "i"]⟩
      [.conditional "cond_0" "ok" [.text "<!--" {}] [] {}] {}]

theorem collect_emit_hostile :
    Node.Everywhere (Legible writtenName) hostileNodes ∧
      (Markup.collect (emit hostileNodes).html.toList).text.reverse =
        "</a-b>&lt;&<!--".toList ∧
      (Markup.collect (emit hostileNodes).html.toList).values.reverse =
        ["\"><script>&quot;", "go", "", "loop_0", "a=\">\"", "i&gt", "cond_0", "true",
          "display: contents;", "cond_0", "false", "display: none;"] := by
  have legible : Node.Everywhere (Legible writtenName) hostileNodes := by decide
  have unmarked : startsMarked (emit hostileNodes).html.toList = false := by
    rw [emit, String.toList_ofList]
    rfl
  have read := collect_emit legible unmarked
  have text_eq : nodesText hostileNodes = "</a-b>&lt;&<!--".toList := by decide +kernel
  have values_eq : nodesValues hostileNodes = ["\"><script>&quot;", "go", "", "loop_0",
      "a=\">\"", "i&gt", "cond_0", "true", "display: contents;", "cond_0", "false",
      "display: none;"] := by
    decide +kernel
  rw [text_eq, values_eq] at read
  exact ⟨legible, read⟩

/-- An element whose two attributes have different names and handle the same event. -/
def twoHandlers : List Node :=
  [.element "p" [⟨"onclick", .fixed "a", {}⟩, ⟨"on:click", .fixed "b", {}⟩] [] {}]

/-- Different names are not enough: the second of two handlers of one event is lost. -/
theorem collect_emit_twoHandlers :
    ¬∀ nodes : List Node, Node.Everywhere (Legible fun attr => attr.name.toList) nodes →
      startsMarked (emit nodes).html.toList = false →
        (Markup.collect (emit nodes).html.toList).text.reverse = nodesText nodes ∧
          (Markup.collect (emit nodes).html.toList).values.reverse = nodesValues nodes := by
  intro claimed
  have values_eq := (claimed twoHandlers (by decide +kernel) (by decide +kernel)).2
  have written : nodesValues twoHandlers = ["a", "b"] := by decide +kernel
  have found : (Markup.collect (emit twoHandlers).html.toList).values.reverse = ["a"] := by
    decide +kernel
  rw [written, found] at values_eq
  cases values_eq

end Page
end ReactiveTemplate
