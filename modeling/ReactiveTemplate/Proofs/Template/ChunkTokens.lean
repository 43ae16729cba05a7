import ReactiveTemplate.Proofs.Markup.Feedback
import ReactiveTemplate.Proofs.Template.Chunks
import ReactiveTemplate.Proofs.Template.Placeholders

/-!
# Tokens of chunks

What the chunks of a source leave in the markup is read as tokens, one chunk after the other.  The
locations in these tokens are all that depends on where the source starts.
-/

namespace ReactiveTemplate
namespace Template

open Markup (Delivers Tag Token TokenizerState isSteady)

/-! ## Tokens -/

/-- The name of a tag as a token has it. -/
def tokenName (name : List Char) : String :=
  String.ofList (Markup.lowered (Draft.markupTag (String.ofList name)).toList)

/-- The attribute that an item is read as. -/
def Item.entry (item : Item) : String × String :=
  (String.ofList item.name, String.ofList item.value)

/-- The tokens of a placeholder between tags. -/
def elementTokens : Option Nat → List Token
  | some number =>
    [.startTag ⟨"template", [(numberAttribute, toString number)], false⟩,
      .endTag ⟨"template", [], false⟩]
  | none => []

namespace Chunk

/-- The tokens that the chunk is read as. -/
def tokens (location : Location) (number : Nat) : Chunk → List Token
  | text content => content.map .character
  | reference _ _ char => [.character char]
  | braced code => elementTokens (numberFor? number code)
  | opening name fields _ closed =>
    .startTag ⟨tokenName name, (headerOf name location number fields).map Item.entry, false⟩ ::
      if closed && needsClosing (String.ofList name) then [.endTag ⟨tokenName name, [], false⟩]
      else []
  | closing name => [.endTag ⟨tokenName name, [], false⟩]

end Chunk

/-- The tokens that chunks are read as. -/
def tokensOf (location : Location) (number : Nat) : List Chunk → List Token
  | [] => []
  | chunk :: rest =>
    chunk.tokens location number ++
      tokensOf (location.advance chunk.source) (number + chunk.count) rest

/-! ## Values -/

variable {location : Location} {number : Nat} {name content : List Char}

theorem isValueChar_numeral (number : Nat) : (numeral number).all Markup.isValueChar = true := by
  rw [List.all_eq_true]
  intro c member
  have digit := isDigit_of_mem_numeral member
  have other : c ≠ '"' ∧ c ≠ '&' ∧ c ≠ '\x00' := by
    refine ⟨?_, ?_, ?_⟩ <;>
    · rintro rfl
      cases digit
  simp [Markup.isValueChar, other]

theorem word_eq (number : Nat) :
    word (some number) = "__ZENITH_EXPR_".toList ++ (numeral number ++ "__".toList) :=
  toList_wordPlaceholder number

theorem isValueChar_word (number? : Option Nat) :
    (word number?).all Markup.isValueChar = true := by
  cases number? with
  | none => rfl
  | some number =>
      rw [word_eq, List.all_append, List.all_append, isValueChar_numeral]
      decide

theorem isValueChar_valueOf {chunks : List ValueChunk}
    (sound : chunks.all ValueChunk.isSound = true) (number : Nat) :
    (valueOf number chunks).all Markup.isValueChar = true := by
  induction chunks generalizing number with
  | nil => rfl
  | cons chunk rest induction =>
      rw [List.all_cons, Bool.and_eq_true] at sound
      cases chunk with
      | text content =>
          have plain : content.all Markup.isValueChar = true :=
            List.all_eq_true.mpr fun c member =>
              (Bool.and_eq_true_iff.mp (List.all_eq_true.mp sound.1 c member)).1
          rw [valueOf, List.all_append, plain, induction sound.2]
          rfl
      | braced code =>
          rw [valueOf, List.all_append, isValueChar_word, induction sound.2]
          rfl

theorem isValueChar_value {setting : Setting} (sound : setting.isSound = true) (number : Nat) :
    (setting.value number).all Markup.isValueChar = true := by
  cases setting with
  | none => rfl
  | quoted chunks => exact isValueChar_valueOf sound number
  | braced code => exact isValueChar_word _

theorem locationText_eq (location : Location) : locationText location =
    numeral location.line.toNat ++ ':' :: numeral location.column.toNat := by
  have line : (toString location.line).toList = numeral location.line.toNat := rfl
  have column : (toString location.column).toList = numeral location.column.toNat := rfl
  simp [locationText, line, column]

/-! ## Attributes -/

theorem written_locationItem (location : Location) : (locationItem location).written =
    [' '] ++ locationAttribute.toList ++ '=' :: '"' :: (locationText location ++ ['"']) := by
  simp [locationItem, locationMark, locationText]

/-- The item is read as the attribute that it is for. -/
def Item.Reads (item : Item) : Prop :=
  item.name ≠ [] ∧ TokenizerState.Specifies item.written item.name item.value

theorem reads_locationItem (location : Location) : (locationItem location).Reads := by
  have named : locationAttribute.toList.all Markup.isNameChar = true := by decide
  have value : (locationText location).all Markup.isValueChar = true := by
    rw [locationText_eq, List.all_append, List.all_cons, isValueChar_numeral, isValueChar_numeral]
    rfl
  have specifies := TokenizerState.specifies_valued TokenizerState.single_space (by decide)
    (Markup.all_isNamePart named) (Markup.Quotes.plain value)
  rw [Markup.lowered_eq named] at specifies
  have nonempty : locationAttribute.toList ≠ [] := by decide
  refine ⟨nonempty, ?_⟩
  rw [written_locationItem]
  exact specifies

theorem reads_nameItem (named : name.all Code.isTagNamePart = true) : (nameItem name).Reads := by
  have key : nameAttribute.toList.all Markup.isNameChar = true := by decide
  have value : name.all Markup.isValueChar = true :=
    List.all_eq_true.mpr fun c member =>
      isValueChar_of_isTagNamePart (List.all_eq_true.mp named c member)
  have specifies := TokenizerState.specifies_valued TokenizerState.single_space (by decide)
    (Markup.all_isNamePart key) (Markup.Quotes.plain value)
  rw [Markup.lowered_eq key] at specifies
  have nonempty : nameAttribute.toList ≠ [] := by decide
  exact ⟨nonempty, specifies⟩

theorem reads_item {field : TagField} (sound : field.isSound = true) (number : Nat) :
    (field.item number).Reads := by
  simp only [TagField.isSound, Bool.and_eq_true, Bool.not_eq_true', List.isEmpty_eq_false_iff]
    at sound
  obtain ⟨⟨⟨⟨gap, spaces⟩, nonempty⟩, named⟩, setting⟩ := sound
  have parts : field.name.all Markup.isNamePart = true :=
    List.all_eq_true.mpr fun c member => by
      have part := List.all_eq_true.mp named c member
      simp only [isFieldNameChar, Bool.and_eq_true] at part
      exact part.1.1.1
  have value := Markup.Quotes.plain (isValueChar_value setting number)
  refine ⟨by simpa [TagField.item, Markup.lowered] using nonempty, ?_⟩
  cases setting_eq : field.setting with
  | none =>
      have specifies := TokenizerState.specifies_bare ⟨gap, spaces⟩ nonempty parts
      simpa [TagField.item, setting_eq, Setting.written, Setting.value] using specifies
  | _ =>
      have specifies := TokenizerState.specifies_valued ⟨gap, spaces⟩ nonempty parts value
      simpa [TagField.item, setting_eq, Setting.written] using specifies

theorem reads_itemsOf {fields : List TagField} (sound : fields.all TagField.isSound = true)
    (number : Nat) : ∀ item ∈ itemsOf number fields, item.Reads := by
  induction fields generalizing number with
  | nil => exact List.forall_mem_nil _
  | cons field rest induction =>
      rw [List.all_cons, Bool.and_eq_true] at sound
      exact List.forall_mem_cons.mpr ⟨reads_item sound.1 number, induction sound.2 _⟩

theorem reads_headerOf {fields : List TagField} (named : name.all Code.isTagNamePart = true)
    (sound : fields.all TagField.isSound = true) (location : Location) (number : Nat) :
    ∀ item ∈ headerOf name location number fields, item.Reads := by
  rw [headerOf, List.forall_mem_append, List.forall_mem_cons]
  refine ⟨?_, reads_locationItem location, reads_itemsOf sound number⟩
  split
  · exact List.forall_mem_singleton.mpr (reads_nameItem named)
  · exact List.forall_mem_nil _

theorem names_itemsOf (fields : List TagField) (number : Nat) :
    (itemsOf number fields).map Item.name = fields.map fun field => Markup.lowered field.name := by
  induction fields generalizing number with
  | nil => rfl
  | cons field rest induction => rw [itemsOf, List.map_cons, List.map_cons, induction]; rfl

theorem names_headerOf (name : List Char) (location : Location) (number : Nat)
    (fields : List TagField) :
    (headerOf name location number fields).map Item.name = fieldNames name fields := by
  rw [headerOf, fieldNames, List.map_append, List.map_cons, names_itemsOf]
  split <;> rfl

/-! ## Reading -/

theorem isNamePart_of_isTagNamePart {c : Char} (part : Code.isTagNamePart c = true) :
    Markup.isNamePart c = true := by
  have other (special : Char) (absent : Code.isTagNamePart special = false) : c ≠ special := by
    rintro rfl
    rw [part] at absent
    cases absent
  simp [Markup.isNamePart, Markup.isSpace, other ' ' rfl, other '\t' rfl, other '\n' rfl,
    other '\x0c' rfl, other '/' rfl, other '=' rfl, other '>' rfl, other '\x00' rfl]

theorem isTagName_markupTag (named : Code.isTagName name = true) :
    Markup.isTagName (Draft.markupTag (String.ofList name)).toList = true := by
  rw [Draft.markupTag]
  split
  · decide
  · cases name with
    | nil => cases named
    | cons letter rest =>
        rw [Code.isTagName, Bool.and_eq_true] at named
        rw [String.toList_ofList, Markup.isTagName, named.1, Bool.true_and, List.all_eq_true]
        exact fun c member => isNamePart_of_isTagNamePart (List.all_eq_true.mp named.2 c member)

theorem delivers_text (plain : content.all isTextChar = true) :
    Delivers content (content.map Token.character) := by
  have each : ∀ c ∈ content, Delivers [c] [Token.character c] := by
    intro c member
    have other := List.all_eq_true.mp plain c member
    simp only [isTextChar, Bool.and_eq_true, bne_iff_ne] at other
    exact Delivers.of_yields fun s ready =>
      ⟨s, ready, ready.character other.1.1.1 other.1.2 other.2⟩
  have whole := Delivers.flatMap each
  rwa [List.flatMap_singleton', ← List.map_eq_flatMap] at whole

theorem delivers_element (number? : Option Nat) :
    Delivers (element number?) (elementTokens number?) := by
  cases number? with
  | none => exact Delivers.nil
  | some number =>
      have key : Markup.isPlainAttribute (numberAttribute, "") = true := by decide
      have plain : [(numberAttribute, toString number)].all Markup.isPlainAttribute = true := by
        have value := isValueChar_numeral number
        simp only [Markup.isPlainAttribute, Bool.and_eq_true] at key
        simp only [List.all_cons, List.all_nil, Bool.and_true, Markup.isPlainAttribute,
          Bool.and_eq_true]
        exact ⟨key.1, value⟩
      have opened : Delivers (Markup.openingTag "template" [(numberAttribute, toString number)])
          [.startTag ⟨"template", [(numberAttribute, toString number)], false⟩] :=
        Delivers.of_yields fun _ ready =>
          ready.openingTag (by decide) plain (List.nodup_singleton _)
      have closed : Delivers (Markup.closingTag "template") [.endTag ⟨"template", [], false⟩] :=
        Delivers.of_yields fun _ ready => ready.closingTag (by decide)
      have written : element (some number) =
          Markup.openingTag "template" [(numberAttribute, toString number)] ++
            Markup.closingTag "template" := by
        simp [element, elementPlaceholder, Markup.openingTag, Markup.closingTag,
          Markup.writtenAttribute]
      rw [written]
      exact opened.append closed

theorem delivers_closing (named : Code.isTagName name = true) :
    Delivers (Markup.closingTag (Draft.markupTag (String.ofList name)))
      [.endTag ⟨tokenName name, [], false⟩] :=
  Delivers.of_yields fun _ ready => ready.closing (isTagName_markupTag named)

/-- The markup of a chunk is read as its tokens. -/
theorem delivers_chunk {chunk : Chunk} (sound : chunk.isSound = true) (location : Location)
    (number : Nat) : Delivers (chunk.markup location number) (chunk.tokens location number) := by
  cases chunk with
  | text content => exact delivers_text sound
  | reference letter name char =>
      rw [Chunk.isSound, Bool.and_eq_true] at sound
      exact Delivers.reference sound.1
  | braced code => exact delivers_element _
  | opening name fields gap closed =>
      simp only [Chunk.isSound, Bool.and_eq_true, decide_eq_true_eq] at sound
      obtain ⟨⟨⟨⟨named, -⟩, sound⟩, distinct⟩, spaces⟩ := sound
      have distinct' : ((headerOf name location number fields).map fun item =>
          String.ofList item.name).Nodup := by
        have mapped := distinct.map (f := String.ofList) fun _ _ => String.ofList_injective
        rwa [← names_headerOf name location number, List.map_map] at mapped
      have reads := reads_headerOf (Code.all_isTagNamePart named) sound location number
      have opened : Delivers _ [.startTag ⟨tokenName name,
          (headerOf name location number fields).map Item.entry, false⟩] :=
        Delivers.of_yields fun s ready => by
          obtain ⟨s', ready', -, yields⟩ := ready.openingSpaced (isTagName_markupTag named) reads
            distinct' spaces
          exact ⟨s', ready', yields⟩
      have closes : Delivers (ownClosing name closed)
          (if closed && needsClosing (String.ofList name) then
            [.endTag ⟨tokenName name, [], false⟩] else []) := by
        rw [ownClosing]
        split
        · exact delivers_closing named
        · exact Delivers.nil
      exact opened.append closes
  | closing name => exact delivers_closing sound

/-- The markup of chunks is read as their tokens. -/
theorem delivers_chunks {chunks : List Chunk} (sound : chunks.all Chunk.isSound = true)
    (location : Location) (number : Nat) :
    Delivers (markupOf location number chunks) (tokensOf location number chunks) := by
  induction chunks generalizing location number with
  | nil => exact Delivers.nil
  | cons chunk rest induction =>
      rw [List.all_cons, Bool.and_eq_true] at sound
      exact (delivers_chunk sound.1 location number).append (induction sound.2 _ _)

/-! ## Ordinary tokens -/

theorem tokenName_notMem
    (ordinary : Text.asciiLowercase (String.ofList name) ∉ "plaintext" :: Markup.rawNames) :
    tokenName name ∉ "plaintext" :: Markup.rawNames := by
  rw [tokenName, Draft.markupTag]
  split
  · decide
  · have same : String.ofList (Markup.lowered (String.ofList name).toList) =
        Text.asciiLowercase (String.ofList name) := by
      rw [Text.asciiLowercase, ← String.toList_inj, String.toList_ofList, String.toList_map]
      rfl
    rwa [same]

/-- Markup goes on behind every token of a chunk. -/
theorem ordinary_chunk {chunk : Chunk} (sound : chunk.isSound = true) (location : Location)
    (number : Nat) : ∀ token ∈ chunk.tokens location number, token.Ordinary := by
  cases chunk with
  | text content => exact List.forall_mem_map.mpr fun _ _ => trivial
  | reference letter name char => exact List.forall_mem_singleton.mpr trivial
  | braced code =>
      rw [Chunk.tokens]
      cases numberFor? number code with
      | none => exact List.forall_mem_nil _
      | some number =>
          have template : "template" ∉ "plaintext" :: Markup.rawNames := by decide
          exact List.forall_mem_cons.mpr ⟨template, List.forall_mem_singleton.mpr trivial⟩
  | opening name fields gap closed =>
      simp only [Chunk.isSound, Bool.and_eq_true, Bool.not_eq_true', List.contains_eq_mem,
        decide_eq_false_iff_not] at sound
      refine List.forall_mem_cons.mpr ⟨tokenName_notMem sound.1.1.1.2, ?_⟩
      split
      · exact List.forall_mem_singleton.mpr trivial
      · exact List.forall_mem_nil _
  | closing name => exact List.forall_mem_singleton.mpr trivial

theorem ordinary_chunks {chunks : List Chunk} (sound : chunks.all Chunk.isSound = true)
    (location : Location) (number : Nat) :
    ∀ token ∈ tokensOf location number chunks, token.Ordinary := by
  induction chunks generalizing location number with
  | nil => exact List.forall_mem_nil _
  | cons chunk rest induction =>
      rw [List.all_cons, Bool.and_eq_true] at sound
      rw [tokensOf, List.forall_mem_append]
      exact ⟨ordinary_chunk sound.1 location number, induction sound.2 _ _⟩

/-! ## Steady markup -/

theorem isSteady_of_isDigit {c : Char} (digit : c.isDigit = true) : isSteady c = true := by
  have other : c ≠ '\r' ∧ c ≠ '\x00' := by
    constructor <;>
    · rintro rfl
      cases digit
  have small : c.toNat ≠ 0xfeff := by
    simp only [Char.isDigit, Bool.and_eq_true, decide_eq_true_eq] at digit
    have bound := UInt32.le_iff_toNat_le.mp digit.2
    have nine : '9'.val.toNat = 57 := rfl
    rw [Char.toNat]
    omega
  simp [isSteady, other, small]

theorem steady_numeral (number : Nat) : (numeral number).all isSteady = true :=
  List.all_eq_true.mpr fun _ member => isSteady_of_isDigit (isDigit_of_mem_numeral member)

theorem steady_word (number? : Option Nat) : (word number?).all isSteady = true := by
  cases number? with
  | none => rfl
  | some number =>
      rw [word_eq, List.all_append, List.all_append, steady_numeral]
      decide

theorem steady_element (number? : Option Nat) : (element number?).all isSteady = true := by
  cases number? with
  | none => rfl
  | some number =>
      have written : element (some number) = "<template data-zen-expr=\"".toList ++
          (numeral number ++ "\"></template>".toList) := by
        simp [element, elementPlaceholder, numberAttribute, numeral]
      rw [written, List.all_append, List.all_append, steady_numeral]
      decide

theorem steady_valueOf {chunks : List ValueChunk}
    (steady : (chunks.flatMap ValueChunk.source).all isSteady = true) (number : Nat) :
    (valueOf number chunks).all isSteady = true := by
  induction chunks generalizing number with
  | nil => rfl
  | cons chunk rest induction =>
      rw [List.flatMap_cons, List.all_append, Bool.and_eq_true] at steady
      cases chunk with
      | text content =>
          rw [valueOf, List.all_append, induction steady.2, Bool.and_true]
          exact steady.1
      | braced code =>
          rw [valueOf, List.all_append, induction steady.2, steady_word]
          rfl

theorem steady_written {setting : Setting} (steady : setting.source.all isSteady = true)
    (number : Nat) : (setting.written number).all isSteady = true := by
  cases setting with
  | none => rfl
  | quoted chunks =>
      simp only [Setting.source, List.all_cons, List.all_append, Bool.and_eq_true] at steady
      simp only [Setting.written, Setting.value, List.all_cons, List.all_append, Bool.and_eq_true]
      exact ⟨by decide, by decide, steady_valueOf steady.2.2.1 number, by decide⟩
  | braced code =>
      simp only [Setting.written, Setting.value, List.all_cons, List.all_append, Bool.and_eq_true]
      exact ⟨by decide, by decide, steady_word _, by decide⟩

theorem steady_itemsOf {fields : List TagField}
    (steady : (fields.flatMap TagField.source).all isSteady = true) (number : Nat) :
    ((itemsOf number fields).flatMap Item.written).all isSteady = true := by
  induction fields generalizing number with
  | nil => rfl
  | cons field rest induction =>
      rw [List.flatMap_cons, List.all_append, Bool.and_eq_true] at steady
      obtain ⟨own, others⟩ := steady
      simp only [TagField.source, List.all_append, Bool.and_eq_true] at own
      simp only [itemsOf, List.flatMap_cons, TagField.item, List.all_append, Bool.and_eq_true]
      exact ⟨⟨own.1, own.2.1, steady_written own.2.2 number⟩, induction others _⟩

theorem steady_locationItem (location : Location) :
    (locationItem location).written.all isSteady = true := by
  have key : locationAttribute.toList.all isSteady = true := by decide
  rw [written_locationItem, locationText_eq]
  simp only [List.all_append, List.all_cons, key, steady_numeral]
  decide

theorem steady_markupTag (steady : name.all isSteady = true) :
    (Draft.markupTag (String.ofList name)).toList.all isSteady = true := by
  rw [Draft.markupTag]
  split
  · decide
  · rwa [String.toList_ofList]

theorem steady_closingTag (steady : name.all isSteady = true) :
    (Markup.closingTag (Draft.markupTag (String.ofList name))).all isSteady = true := by
  simp only [Markup.closingTag, List.all_cons, List.all_append, steady_markupTag steady]
  decide

theorem steady_chunk {chunk : Chunk} (steady : chunk.source.all isSteady = true)
    (location : Location) (number : Nat) :
    (chunk.markup location number).all isSteady = true := by
  cases chunk with
  | text content => exact steady
  | reference letter name char => exact steady
  | braced code => exact steady_element _
  | opening name fields gap closed =>
      simp only [Chunk.source, List.all_cons, List.all_append, Bool.and_eq_true] at steady
      obtain ⟨-, named, fields_steady, spaces, -⟩ := steady
      have usage : ((if Markup.isComponentTag (String.ofList name) then [nameItem name]
          else []).flatMap Item.written).all isSteady = true := by
        split
        · have key : nameAttribute.toList.all isSteady = true := by decide
          simp only [nameItem, List.flatMap_singleton, List.all_cons, List.all_append, key, named]
          decide
        · rfl
      have closes : (ownClosing name closed).all isSteady = true := by
        rw [ownClosing]
        split
        · exact steady_closingTag named
        · rfl
      simp only [Chunk.markup, headerOf, List.flatMap_append, List.flatMap_cons, List.all_cons,
        List.all_append, steady_markupTag named, usage, steady_locationItem,
        steady_itemsOf fields_steady, spaces, closes]
      decide
  | closing name =>
      simp only [Chunk.source, Code.closingTag, List.all_cons, List.all_append, Bool.and_eq_true]
        at steady
      exact steady_closingTag steady.2.2.1

/-- The markup of a steady source is steady. -/
theorem steady_chunks {chunks : List Chunk} (steady : (sourceOf chunks).all isSteady = true)
    (location : Location) (number : Nat) :
    (markupOf location number chunks).all isSteady = true := by
  induction chunks generalizing location number with
  | nil => rfl
  | cons chunk rest induction =>
      rw [sourceOf, List.flatMap_cons, List.all_append, Bool.and_eq_true] at steady
      rw [markupOf, List.all_append, steady_chunk steady.1, induction steady.2]
      rfl

end Template
end ReactiveTemplate
