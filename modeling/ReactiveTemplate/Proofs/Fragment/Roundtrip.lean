import ReactiveTemplate.Proofs.Fragment.Alike
import ReactiveTemplate.Proofs.Fragment.Printing

/-!
# Printed markup is read back

Reading the text of printable nodes gives the nodes back, but for ids, places and scopes.  The end
of an element, the end of its opening tag and the start of its closing tag are each searched for on
their own; on printed text the three searches agree.
-/

namespace ReactiveTemplate
namespace Fragment

variable {name text lead inner : List Char} {tag : String} {attributes : List Attribute}

/-! ## Reading attributes -/

theorem trim_of_isPrintableCode {code : List Char} (printable : isPrintableCode code = true) :
    Text.trim code = code := by
  simp only [isPrintableCode, Bool.and_eq_true, beq_iff_eq] at printable
  exact printable.1.1.1

/-- Printed code is registered as it is. -/
theorem registerCode_printable {e : Expression} (printable : isPrintableCode e.code.toList = true)
    (scope : Option Scope) (registry : Registry) (location : Location) :
    SameCode e (registerCode scope registry location e.code.toList).1 := by
  simp [SameCode, registerCode, trim_of_isPrintableCode printable]

/-- Reading the text of an attribute value gives the value. -/
theorem readValue_printValue {value : AttributeValue} (printable : isPrintableValue value = true)
    (scope : Option Scope) (registry : Registry) (name : String)
    (nameLocation location : Location) (more : List Char) :
    ∃ read, readValue scope registry name nameLocation location (printValue value ++ more) =
        .ok read ∧ value.Alike SameCode read.value ∧ read.length = (printValue value).length := by
  cases value with
  | fixed text =>
      obtain ⟨unquoted, literal⟩ := not_mem_of_isPrintableValue printable
      have quoted : (text.toList ++ '"' :: more).takeWhile (· != '"') = text.toList := by
        apply Code.Parts.takeWhile_append ⟨'"', more, rfl, rfl⟩
        rw [List.all_eq_true]
        exact fun c member => bne_iff_ne.mpr (ne_of_mem_of_not_mem member unquoted)
      have decoded : Markup.decodeValue text.toList = text.toList := by
        rw [Markup.decodeValue, if_neg (by simpa using literal)]
      refine ⟨⟨.fixed text, text.toList.length + 2, registry⟩, ?_, .fixed text, ?_⟩
      · simp [printValue, readValue, quoted, decoded]
      · simp [printValue]
  | dynamic e =>
      have closing := Code.closingFrom_append more _ (closingFrom_of_isPrintableCode printable)
      rw [List.append_assoc, List.singleton_append] at closing
      let registered := registerCode scope registry (location.next '{') e.code.toList
      refine ⟨⟨.dynamic registered.1, e.code.toList.length + 2, registered.2⟩, ?_,
        .dynamic (registerCode_printable printable scope registry _), ?_⟩
      · simp only [printValue, printCode, List.cons_append, List.append_assoc, List.nil_append,
          readValue, closing, List.take_left, registered]
      · simp [printValue, printCode]

theorem readAssignment_printValue {value : AttributeValue}
    (printable : isPrintableValue value = true) (scope : Option Scope) (registry : Registry)
    (name : String) (nameLocation location : Location) (more : List Char) :
    ∃ read, readAssignment scope registry name nameLocation location
          ('=' :: (printValue value ++ more)) = .ok read ∧
        value.Alike SameCode read.value ∧ read.length = (printValue value).length + 1 := by
  obtain ⟨read, ok, alike, length⟩ := readValue_printValue printable scope registry name
    nameLocation (location.advance ['=']) more
  have solid : (printValue value ++ more).takeWhile Code.isAsciiSpace = [] := by
    cases value <;> rfl
  refine ⟨{ read with length := 1 + read.length }, ?_, alike, ?_⟩
  · have space : ('=' :: (printValue value ++ more)).takeWhile Code.isAsciiSpace = [] := rfl
    simp only [readAssignment, space, solid, List.length_nil, List.drop_zero, List.nil_append, ok]
    rfl
  · simp only [length]
    omega

/-- Characters of the header that have been read already. -/
theorem readHeader_skip {scope : Option Scope} {registry : Registry} {header : Header}
    (lead text : List Char) {location : Location}
    (ok : readHeader scope registry (location.advance lead) 0 text = .ok header) :
    readHeader scope registry location lead.length (lead ++ text) =
      .ok { header with length := header.length + lead.length } := by
  induction lead generalizing location with
  | nil => exact ok
  | cons c rest induction =>
      rw [List.length_cons, List.cons_append, readHeader, induction ok]
      rfl

theorem readHeader_space {scope : Option Scope} {registry : Registry} {location : Location}
    {header : Header}
    (ok : readHeader scope registry (location.next ' ') 0 text = .ok header) :
    readHeader scope registry location 0 (' ' :: text) = .ok header.later := by
  have other : startsName ' ' = false := rfl
  simp [readHeader, other, ok]

/-- A name, what is assigned to it, and the rest of the header. -/
theorem readHeader_name {scope : Option Scope} {registry : Registry} {location : Location}
    {header : Header} {read : ReadValue} {first : Char} {rest : List Char}
    (starts : startsName first = true) (continues : rest.all continuesName = true)
    (parts : Code.Parts continuesName text)
    (assigned : readAssignment scope registry (attributeName (first :: rest)) location
      (location.advance (first :: rest)) text = .ok read)
    (behind : readHeader scope read.registry (location.next first) (rest.length + read.length)
      (rest ++ text) = .ok header) :
    readHeader scope registry location 0 (first :: (rest ++ text)) =
      .ok (header.later.cons
        { name := attributeName (first :: rest), value := read.value, site := ⟨location, scope⟩ })
      := by
  have angle : first ≠ '>' := by
    rintro rfl
    cases starts
  have slash : ¬(first = '/' ∧ (rest ++ text).head? = some '>') := by
    rintro ⟨rfl, -⟩
    cases starts
  rw [readHeader, if_neg angle, if_neg slash, if_pos starts]
  simp only [parts.takeWhile_append continues, List.drop_left, assigned, behind]

/-- What follows in a header is read as the given attributes. -/
def ReadsHeader (scope : Option Scope) (text : List Char) (attributes : List Attribute) : Prop :=
  ∀ registry location more, ∃ header,
    readHeader scope registry location 0 (text ++ more) = .ok header ∧
      Attribute.Alike SameCode attributes header.attributes ∧ header.selfClosing = false ∧
      header.length = text.length

theorem ReadsHeader.attribute {scope : Option Scope} {attr : Attribute}
    (printable : isPrintableAttribute attr = true) (behind : ReadsHeader scope text attributes) :
    ReadsHeader scope (printAttribute attr ++ text) (attr :: attributes) := by
  intro registry location more
  rw [isPrintableAttribute, Bool.and_eq_true] at printable
  obtain ⟨nameable, valued⟩ := printable
  cases whole : attr.name.toList with
  | nil =>
      rw [whole] at nameable
      cases nameable
  | cons first rest =>
      rw [whole] at nameable
      simp only [isPrintableName, Bool.and_eq_true, beq_iff_eq] at nameable
      obtain ⟨⟨starts, continues⟩, same⟩ := nameable
      have named : attributeName (first :: rest) = attr.name := by
        rw [same, ← whole, String.ofList_toList]
      obtain ⟨read, assigned, alike, length⟩ := readAssignment_printValue valued scope registry
        (attributeName (first :: rest)) (location.next ' ')
        ((location.next ' ').advance (first :: rest)) (text ++ more)
      -- the value has been read with the name, so that the header goes on behind both
      let passed := rest ++ '=' :: printValue attr.value
      obtain ⟨header, header_ok, others, opened, length'⟩ := behind read.registry
        (((location.next ' ').next first).advance passed) more
      have skipped := readHeader_skip passed (text ++ more) header_ok
      have size : passed.length = rest.length + read.length := by
        simp [passed, length]
      rw [size, List.append_assoc, List.cons_append] at skipped
      have complete := readHeader_space
        (readHeader_name starts continues ⟨'=', _, rfl, rfl⟩ assigned skipped)
      have shape : printAttribute attr ++ text ++ more =
          ' ' :: first :: (rest ++ '=' :: (printValue attr.value ++ (text ++ more))) := by
        simp [printAttribute, whole]
      rw [shape]
      refine ⟨_, complete, List.Forall₂.cons ⟨named.symm, alike⟩ others, opened, ?_⟩
      simp only [Header.later, Header.cons, length', length, printAttribute, whole,
        List.length_append, List.length_cons]
      omega

/-- Reading a printed header gives the attributes. -/
theorem readsHeader_printHeader (printable : attributes.all isPrintableAttribute = true)
    (scope : Option Scope) : ReadsHeader scope (printHeader attributes) attributes := by
  induction attributes with
  | nil =>
      intro registry location more
      exact ⟨{ length := 1, registry }, by simp [printHeader, readHeader], .nil, rfl, rfl⟩
  | cons attr rest induction =>
      rw [List.all_cons, Bool.and_eq_true] at printable
      rw [printHeader, List.flatMap_cons, List.append_assoc]
      exact (induction printable.2).attribute printable.1

/-! ## Reading nodes -/

section Children

variable (scope : Option Scope) (closed : Bool) (registry : Registry) (location : Location)

/-- Code in braces is read if what follows is. -/
theorem readChildren_brace {raw rest : List Char}
    (brace : afterLead text = '{' :: (raw ++ '}' :: rest))
    (closing : Code.closingFrom .afterOpening (raw ++ '}' :: rest) = some raw.length) :
    ∃ place closed' place', ∀ tail after,
      readChildren scope closed' (codeNodes scope registry place raw).2 place' rest =
        .ok (tail, after) →
      readChildren scope closed registry location text =
        .ok (textNodes scope location (plainLead text) ++
          (codeNodes scope registry place raw).1 ++ tail, after) := by
  let start := location.advance (plainLead text)
  refine ⟨start.next '{', closed || hasClosing (plainLead text) || hasClosing raw,
    start.advance ('{' :: (raw ++ '}' :: rest).take (raw.length + 1)), ?_⟩
  intro tail after behind
  have rest_eq : (raw ++ '}' :: rest).drop (raw.length + 1) = rest := by
    simp
  rw [readChildren_code _ _ _ _ brace]
  simp only [closing, List.take_left, rest_eq]
  rw [behind]
  rfl

/-- An element is read if its header, its children and what follows are. -/
theorem readChildren_tag {c : Char} {inside rest : List Char} {header : Header}
    (other : c ≠ '{') (element : afterLead text = c :: (inside ++ rest))
    (ends : Code.markupEndFrom {} (c :: (inside ++ rest)) = some (inside.length + 1))
    (named : (tagName inside).isEmpty = false)
    (opened : readHeader scope registry
      ((location.advance (plainLead text)).advance (c :: tagName inside)) 0
      (inside.drop (tagName inside).length) = .ok header) :
    let range := insideRange (closed || hasClosing (plainLead text)) (c :: inside) (tagName inside)
      header
    ∃ site closed₁ place₁ closed₂ place₂, ∀ children middle tail after,
      readChildren scope closed₁ header.registry place₁
        (Text.slice inside (range.1 - 1) (range.2 - 1)) = .ok (children, middle) →
      readChildren scope closed₂ middle place₂ rest = .ok (tail, after) →
      readChildren scope closed registry location text =
        .ok (textNodes scope location (plainLead text) ++
          [elementNode (String.ofList (tagName inside)) header.attributes children site] ++ tail,
          after) := by
  intro range
  let start := location.advance (plainLead text)
  let closed' := closed || hasClosing (plainLead text)
  refine ⟨⟨start, scope⟩, closed' || hasClosing ((c :: inside).take range.1),
    start.advance ((c :: inside).take range.1), closed' || hasClosing (c :: inside),
    start.advance (c :: inside), ?_⟩
  intro children middle tail after below behind
  have opening : readOpening scope registry (start.next c) inside = .ok header := by
    rw [readOpening, named]
    exact opened
  rw [readChildren_element _ _ _ _ other element]
  simp only [ends, Nat.add_sub_cancel, List.take_left, List.drop_left]
  rw [opening]
  dsimp only [bind, Except.bind]
  rw [below]
  dsimp only
  rw [behind, named]
  rfl

end Children

/-- The text is read as the given nodes, wherever it stands. -/
def ReadsAs (scope : Option Scope) (text : List Char) (nodes : List Node) : Prop :=
  ∀ closed registry location, ∃ read after,
    readChildren scope closed registry location text = .ok (read, after) ∧
      Node.Alike SameCode nodes read

/-- The node of a plain text, if there is any text. -/
def plainNodes (text : List Char) : List Node :=
  if text.isEmpty then [] else [.text (String.ofList text) {}]

theorem textNodes_plain (literal : '&' ∉ text) (line : '\n' ∉ text) (scope : Option Scope)
    (location : Location) :
    Node.Alike SameCode (plainNodes text) (textNodes scope location text) := by
  have decoded : Markup.decodeText text = text := by
    rw [Markup.decodeText, if_neg (by simpa using literal)]
  have single : text.contains '\n' = false := by simpa using line
  rw [plainNodes]
  simp only [textNodes, single, decoded, Bool.false_eq_true, if_false]
  split
  · exact .nil
  · exact .text .nil

theorem textNodes_isPlain (plain : isPlain text = true) (scope : Option Scope)
    (location : Location) :
    Node.Alike SameCode (plainNodes text) (textNodes scope location text) := by
  obtain ⟨-, -, literal, line⟩ := not_mem_of_isPlain plain
  exact textNodes_plain literal line scope location

/-- Nothing in a plain text ends the lead. -/
theorem plainLead_append (plain : isPlain lead = true) (text : List Char) :
    plainLead (lead ++ text) = lead ++ plainLead text ∧
      afterLead (lead ++ text) = afterLead text := by
  induction lead with
  | nil => exact ⟨rfl, rfl⟩
  | cons c rest induction =>
      obtain ⟨angle, brace, -, -⟩ := not_mem_of_isPlain plain
      rw [isPlain, List.all_cons, Bool.and_eq_true] at plain
      obtain ⟨lead_eq, after_eq⟩ := induction plain.2
      rw [List.mem_cons, not_or] at angle brace
      have inside : startsElement (c :: (rest ++ text)) = false := by
        rw [startsElement]
        exact fun _ _ same => angle.1 (List.cons.inj same).1.symm
      simp [plainLead, afterLead, inside, Ne.symm brace.1, lead_eq, after_eq]

/-- A brace or an element ends the lead. -/
theorem plainLead_halt {c : Char} {rest : List Char} (plain : isPlain lead = true)
    (halt : c = '{' ∨ startsElement (c :: rest) = true) :
    plainLead (lead ++ c :: rest) = lead ∧ afterLead (lead ++ c :: rest) = c :: rest := by
  obtain ⟨lead_eq, after_eq⟩ := plainLead_append plain (c :: rest)
  rw [lead_eq, after_eq, plainLead, afterLead]
  simp [halt]

/-- Text in which nothing ends the lead. -/
theorem readsAs_lead (lead_eq : plainLead text = text) (after_eq : afterLead text = [])
    (literal : '&' ∉ text) (line : '\n' ∉ text) (scope : Option Scope) :
    ReadsAs scope text (plainNodes text) := by
  intro closed registry location
  have read := readChildren_ended scope closed registry location after_eq
  rw [lead_eq] at read
  exact ⟨_, _, read, textNodes_plain literal line scope location⟩

/-- Plain text to the end. -/
theorem readsAs_plain (plain : isPlain text = true) (scope : Option Scope) :
    ReadsAs scope text (plainNodes text) := by
  obtain ⟨lead_eq, after_eq⟩ := plainLead_append plain []
  rw [List.append_nil, plainLead, List.append_nil] at lead_eq
  rw [List.append_nil] at after_eq
  obtain ⟨-, -, literal, line⟩ := not_mem_of_isPlain plain
  exact readsAs_lead lead_eq after_eq literal line scope

theorem codeNodes_printable {e : Expression} (printable : isPrintableCode e.code.toList = true)
    (scope : Option Scope) (registry : Registry) (location : Location) :
    Node.Alike SameCode [.expression e]
      (codeNodes scope registry location e.code.toList).1 := by
  have trimmed := trim_of_isPrintableCode printable
  have same := registerCode_printable printable scope registry location
  simp only [isPrintableCode, Bool.and_eq_true, Bool.not_eq_true'] at printable
  rw [codeNodes, trimmed, printable.1.1.2, printable.1.2, if_neg (by simp)]
  exact .expression same .nil

/-- Plain text, code in braces, and what follows. -/
theorem ReadsAs.code {scope : Option Scope} {e : Expression} {nodes : List Node}
    (plain : isPlain lead = true) (printable : isPrintableCode e.code.toList = true)
    (behind : ReadsAs scope text nodes) :
    ReadsAs scope (lead ++ (printCode e.code ++ text))
      (plainNodes lead ++ .expression e :: nodes) := by
  intro closed registry location
  have shape : printCode e.code ++ text = '{' :: (e.code.toList ++ '}' :: text) := by
    simp [printCode]
  have closing := Code.closingFrom_append text _ (closingFrom_of_isPrintableCode printable)
  rw [List.append_assoc, List.singleton_append] at closing
  rw [shape]
  obtain ⟨lead_eq, after_eq⟩ :
      plainLead (lead ++ '{' :: (e.code.toList ++ '}' :: text)) = lead ∧
        afterLead (lead ++ '{' :: (e.code.toList ++ '}' :: text)) =
          '{' :: (e.code.toList ++ '}' :: text) := plainLead_halt plain (.inl rfl)
  obtain ⟨place, closed', place', reads⟩ :=
    readChildren_brace scope closed registry location after_eq closing
  obtain ⟨tail, after, tail_ok, alike⟩ := behind closed' _ place'
  rw [lead_eq] at reads
  refine ⟨_, _, reads tail after tail_ok, ?_⟩
  rw [List.append_assoc]
  have own := codeNodes_printable printable scope registry place
  exact (textNodes_isPlain plain scope location).append (own.append alike)

/-! ### Elements -/

theorem findLast?_eq_none {pattern : List Char} {c : Char} (absent : c ∉ text) :
    Text.findLast? (c :: pattern) text = none := by
  induction text with
  | nil => rfl
  | cons first rest induction =>
      rw [List.mem_cons, not_or] at absent
      simp [Text.findLast?, induction absent.2, absent.1]

/-- The last closing tag is the one at the end. -/
theorem findLast?_closingTag (named : name.all Code.isTagNamePart = true) (before : List Char) :
    Text.findLast? "</".toList (before ++ Code.closingTag name) = some before.length := by
  induction before with
  | nil =>
      have absent : '<' ∉ '/' :: (name ++ ['>']) := by
        intro member
        rcases List.mem_cons.mp member with slash | member
        · cases slash
        · rcases List.mem_append.mp member with member | last
          · cases List.all_eq_true.mp named _ member
          · simp at last
      have behind : Text.findLast? ['<', '/'] ('/' :: (name ++ ['>'])) = none :=
        findLast?_eq_none absent
      show Text.findLast? ['<', '/'] ('<' :: '/' :: (name ++ ['>'])) = some 0
      rw [Text.findLast?, behind]
      rfl
  | cons first rest induction =>
      rw [List.cons_append, Text.findLast?, induction, List.length_cons]

theorem tagName_append (named : Code.isTagName name = true)
    (parts : Code.Parts Code.isTagNamePart text) : tagName (name ++ text) = name := by
  cases name with
  | nil => cases named
  | cons first rest =>
      rw [Code.isTagName, Bool.and_eq_true] at named
      rw [List.cons_append, tagName, if_pos named.1, parts.takeWhile_append named.2]

theorem startsElement_of_isTagName (named : Code.isTagName name = true) (more : List Char) :
    startsElement ('<' :: (name ++ more)) = true := by
  cases name with
  | nil => cases named
  | cons first rest =>
      rw [Code.isTagName, Bool.and_eq_true] at named
      simp [startsElement, named.1]

/-- The children of a printed element stand between its tags. -/
theorem slice_printElement (attributes : List Attribute) {header : Header} (closed : Bool)
    (named : Code.isTagName tag.toList = true)
    (childless : Markup.isVoidElement tag = true → inner = [])
    (opened : header.selfClosing = false)
    (length : header.length = (printHeader attributes).length) :
    let range := insideRange closed (printElement tag attributes inner) tag.toList header
    Text.slice (tag.toList ++ printBody tag attributes inner) (range.1 - 1) (range.2 - 1) =
      inner := by
  intro range
  cases void : Markup.isVoidElement tag with
  | true =>
      have range_eq : range = (0, 0) := by
        simp [range, insideRange, void]
      simp [range_eq, Text.slice, childless void]
  | false =>
      let front := tag.toList ++ printHeader attributes
      have body_eq : tag.toList ++ printBody tag attributes inner =
          (front ++ inner) ++ Code.closingTag tag.toList := by
        simp [printBody, front, void]
      have last : Text.findLast? "</".toList (printElement tag attributes inner) =
          some ((front ++ inner).length + 1) := by
        have found := findLast?_closingTag (Code.all_isTagNamePart named) ('<' :: (front ++ inner))
        rw [List.cons_append, ← body_eq, List.length_cons] at found
        exact found
      have range_eq : range = (front.length + 1, (front ++ inner).length + 1) := by
        simp only [range, insideRange, String.ofList_toList, void, opened, Bool.or_self,
          Bool.false_eq_true, if_false, childrenRange, last]
        simp only [front, length, List.length_append]
        exact Prod.ext (by omega) rfl
      rw [range_eq, body_eq, Text.slice, Nat.add_sub_cancel, Nat.add_sub_cancel, List.take_left,
        List.drop_left]

/-- Plain text, an element, and what follows. -/
theorem ReadsAs.element {scope : Option Scope} {children nodes : List Node} (site : Site)
    (plain : isPlain lead = true) (named : Code.isTagName tag.toList = true)
    (printable : attributes.all isPrintableAttribute = true)
    (passes : Code.Passes { depth := 1 } inner { depth := 1 })
    (childless : Markup.isVoidElement tag = true → inner = [])
    (below : ReadsAs scope inner children) (behind : ReadsAs scope text nodes) :
    ReadsAs scope (lead ++ (printElement tag attributes inner ++ text))
      (plainNodes lead ++ elementNode tag attributes children site :: nodes) := by
  intro closed registry location
  let inside := tag.toList ++ printBody tag attributes inner
  have shape : printElement tag attributes inner ++ text = '<' :: (inside ++ text) := rfl
  have name_eq : tagName inside = tag.toList :=
    tagName_append named (parts_printBody tag attributes inner)
  have nonempty : (tagName inside).isEmpty = false := by
    rw [name_eq]
    cases whole : tag.toList with
    | nil =>
        rw [whole] at named
        cases named
    | cons first rest => rfl
  have ends : Code.markupEndFrom {} ('<' :: (inside ++ text)) = some (inside.length + 1) :=
    ends_printElement named printable passes text
  have starts : startsElement ('<' :: (inside ++ text)) = true := by
    rw [List.append_assoc]
    exact startsElement_of_isTagName named (printBody tag attributes inner ++ text)
  obtain ⟨lead_eq, after_eq⟩ := plainLead_halt plain (.inr starts)
  obtain ⟨header, header_ok, own, opened, length⟩ := readsHeader_printHeader printable scope
    registry ((location.advance lead).advance ('<' :: tag.toList))
    (if Markup.isVoidElement tag then [] else inner ++ Code.closingTag tag.toList)
  have header_ok' : readHeader scope registry
      ((location.advance (plainLead (lead ++ '<' :: (inside ++ text)))).advance
        ('<' :: tagName inside)) 0 (inside.drop (tagName inside).length) = .ok header := by
    rw [name_eq, lead_eq, List.drop_left]
    exact header_ok
  obtain ⟨site', closed₁, place₁, closed₂, place₂, reads⟩ :=
    readChildren_tag scope closed registry location (by decide) after_eq ends nonempty header_ok'
  have slice_eq := slice_printElement attributes (closed || hasClosing lead) named childless opened
    length
  rw [name_eq, lead_eq] at reads
  obtain ⟨children', middle, children_ok, alike⟩ := below closed₁ header.registry place₁
  obtain ⟨tail, after, tail_ok, alike'⟩ := behind closed₂ middle place₂
  rw [← slice_eq] at children_ok
  rw [shape]
  refine ⟨_, _, reads children' middle tail after children_ok tail_ok, ?_⟩
  rw [List.append_assoc, String.ofList_toList]
  have element : Node.Alike SameCode [elementNode tag attributes children site]
      [elementNode tag header.attributes children' site'] := elementNode_alike site site' own alike
  exact (textNodes_isPlain plain scope location).append (element.append alike')

/-- Printed nodes are read back, with plain text before them. -/
theorem Printable.readsAs {nodes : List Node} (printable : Printable nodes) (scope : Option Scope)
    (lead : List Char) (plain : isPlain lead = true)
    (apart : lead = [] ∨ startsWithText nodes = false) :
    ReadsAs scope (lead ++ printNodes nodes) (plainNodes lead ++ nodes) := by
  induction printable generalizing lead with
  | nil =>
      rw [printNodes, List.append_nil, List.append_nil]
      exact readsAs_plain plain scope
  | @text value site rest nonempty line others _ induction =>
      rcases apart with rfl | apart
      · -- the text becomes the lead of what follows
        have reads := induction value.toList line (.inr others)
        have node : plainNodes value.toList = [.text value {}] := by
          simp [plainNodes, nonempty]
        rw [node] at reads
        intro closed registry location
        obtain ⟨read, after, ok, alike⟩ := reads closed registry location
        cases alike with
        | text alike => exact ⟨_, after, ok, .text alike⟩
      · cases apart
  | expression code _ induction => exact .code plain code (induction [] rfl (.inl rfl))
  | @element tag attributes children rest site named native childless printable inside _ below
      behind =>
      have empty : Markup.isVoidElement tag = true → printNodes children = [] :=
        fun void => childless void ▸ rfl
      have reads := ReadsAs.element site plain named printable (inside.passes 0) empty
        (below [] rfl (.inl rfl)) (behind [] rfl (.inl rfl))
      rw [elementNode, if_neg (by simp [native])] at reads
      exact reads
  | @component name attributes children rest site named usage solid printable inside _ below
      behind =>
      have empty : Markup.isVoidElement name = true → printNodes children = [] :=
        fun void => by simp [solid] at void
      have reads := ReadsAs.element site plain named printable (inside.passes 0) empty
        (below [] rfl (.inl rfl)) (behind [] rfl (.inl rfl))
      rw [elementNode, if_pos usage] at reads
      exact reads

/-- Reading markup undoes printing it. -/
theorem readChildren_printNodes {nodes : List Node} (printable : Printable nodes)
    (scope : Option Scope) (closed : Bool) (registry : Registry) (location : Location) :
    ∃ read after, readChildren scope closed registry location (printNodes nodes) =
        .ok (read, after) ∧ Node.Alike SameCode nodes read :=
  printable.readsAs scope [] rfl (.inl rfl) closed registry location

/-- Code on its own. -/
def bareExpression (code : String) : Expression := ⟨"", code, {}, none⟩

/-- A card with an angle bracket in a value, a brace in a string of its code, an element in other
code and an element without children. -/
def cardNodes : List Node :=
  [.text "see " {},
    .component "Card"
      [⟨"title", .fixed "a > b", {}⟩, ⟨"wide", .dynamic (bareExpression "x > '\x7d'"), {}⟩]
      [.element "b" [] [.text "hi" {}] {},
        .expression (bareExpression "on && <i>\x7bx\x7d</i>"), .element "br" [] [] {}] {}]

theorem printable_cardNodes : Printable cardNodes := by
  refine .text (by decide) (by decide) rfl (.component (by decide) (by decide +kernel)
    (by decide +kernel) (by decide +kernel) ?_ .nil)
  refine .element (by decide) (by decide +kernel) (fun void => ?_) rfl
    (.text (by decide) (by decide) rfl .nil) (.expression (by decide +kernel) ?_)
  · revert void
    decide +kernel
  · exact .element (by decide) (by decide +kernel) (fun _ => rfl) rfl .nil .nil

theorem readChildren_printNodes_card :
    ∃ read after, readChildren none false {} {}
        ("see <Card title=\"a > b\" wide=\x7bx > '\x7d'\x7d>" ++
          "<b>hi</b>\x7bon && <i>\x7bx\x7d</i>\x7d<br></Card>").toList = .ok (read, after) ∧
      Node.Alike SameCode cardNodes read := by
  have text : ("see <Card title=\"a > b\" wide=\x7bx > '\x7d'\x7d>" ++
      "<b>hi</b>\x7bon && <i>\x7bx\x7d</i>\x7d<br></Card>").toList = printNodes cardNodes := by
    decide +kernel
  rw [text]
  exact readChildren_printNodes printable_cardNodes none false {} {}

end Fragment
end ReactiveTemplate
