import Mathlib.Data.List.Nodup
import ReactiveTemplate.Markup.Token

/-!
# Tags and text as tokens

What the tokenizer makes of a tag whose attributes stand alone or have a value in double quotes, and
of plain text.  Most characters of a tag bring no token; `Silent` says so for whoever takes the
tokens and whatever follows, and `Yields` adds the token that a last character brings.
-/

namespace ReactiveTemplate
namespace Markup

variable {before middle after s : TokenizerState} {text first second : List Char} {token : Token}

/-- Reading the text brings no token and leads from one state to the other. -/
def Silent (before : TokenizerState) (text : List Char) (after : TokenizerState) : Prop :=
  ∀ (σ : Type) (consumer : Consumer σ) (state : σ) (more : List Char),
    consumer.runFrom before state (text ++ more) = consumer.runFrom after state more

/-- The tokenizer goes on as whoever took a token wants the text after it to be read. -/
def TokenizerState.heed (s : TokenizerState) : Feedback → TokenizerState
  | .proceed => s
  | .raw kind => { s with reading := .raw kind }
  | .plaintext => { s with reading := .plaintext }

/-- Reading the text brings one token and leads from one state to the other, in which whoever takes
the token is heeded. -/
def Yields (before : TokenizerState) (text : List Char) (token : Token)
    (after : TokenizerState) : Prop :=
  ∀ (σ : Type) (consumer : Consumer σ) (state next : σ) (feedback : Feedback) (more : List Char),
    consumer.take state token = (next, feedback) →
      consumer.runFrom before state (text ++ more) = consumer.runFrom (after.heed feedback) next more

/-- Whoever takes the token has the text after it read as before. -/
theorem Yields.proceed (yields : Yields before text token after) {σ : Type} (consumer : Consumer σ)
    {state next : σ} (taken : consumer.take state token = (next, .proceed)) (more : List Char) :
    consumer.runFrom before state (text ++ more) = consumer.runFrom after next more :=
  yields σ consumer state next .proceed more taken

theorem Silent.nil (s : TokenizerState) : Silent s [] s := fun _ _ _ _ => rfl

theorem Silent.append (left : Silent before first middle) (right : Silent middle second after) :
    Silent before (first ++ second) after := by
  intro σ consumer state more
  rw [List.append_assoc, left, right]

theorem Silent.yields (left : Silent before first middle)
    (right : Yields middle second token after) :
    Yields before (first ++ second) token after := by
  intro σ consumer state next feedback more taken
  rw [List.append_assoc, left, right σ consumer state next feedback more taken]

theorem Silent.single {c : Char} (fresh : before.skip = 0)
    (step : ∀ foreign rest, before.step foreign c rest = (after, [])) :
    Silent before [c] after := by
  intro σ consumer state more
  rw [List.singleton_append, Consumer.runFrom, if_neg (by omega), step]
  rfl

theorem Yields.single {c : Char} (fresh : before.skip = 0)
    (step : ∀ foreign rest, before.step foreign c rest = (after, [token])) :
    Yields before [c] token after := by
  intro σ consumer state next feedback more taken
  rw [List.singleton_append, Consumer.runFrom, if_neg (by omega), step]
  cases feedback <;> simp only [Consumer.takeAll, taken, TokenizerState.heed]

/-- Characters of one kind, each written and read in its own way, are collected backwards. -/
theorem Silent.collect {kind : Char → Bool} (write : Char → List Char) (value : Char → Char)
    (collected : List Char → TokenizerState)
    (step : ∀ c, kind c = true → ∀ read,
      Silent (collected read) (write c) (collected (value c :: read)))
    (all : text.all kind = true) (read : List Char) :
    Silent (collected read) (text.flatMap write)
      (collected ((text.map value).reverse ++ read)) := by
  induction text generalizing read with
  | nil => exact Silent.nil _
  | cons c rest induction =>
      rw [List.all_cons, Bool.and_eq_true] at all
      rw [List.flatMap_cons, List.map_cons, List.reverse_cons, List.append_assoc]
      exact (step c all.1 read).append (induction all.2 (value c :: read))

/-! ## Names and values -/

/-- A character that does not end the name of a tag or of an attribute. -/
def isNamePart (c : Char) : Bool :=
  !isSpace c && c != '/' && c != '=' && c != '>' && c != '\x00'

theorem isNamePart_iff {c : Char} : isNamePart c = true ↔
    isSpace c = false ∧ c ≠ '/' ∧ c ≠ '=' ∧ c ≠ '>' ∧ c ≠ '\x00' := by
  simp [isNamePart, and_assoc]

theorem ne_of_isAlpha {c special : Char} (alpha : c.isAlpha = true)
    (symbol : special.isAlpha = false) : c ≠ special := by
  rintro rfl
  rw [alpha] at symbol
  cases symbol

/-- A character that stands for itself in the name of a tag or of an attribute. -/
def isNameChar (c : Char) : Bool :=
  !isSpace c && c != '/' && c != '=' && c != '>' && c != '\x00' && c.toLower == c

theorem isNameChar_iff {c : Char} :
    isNameChar c = true ↔ isNamePart c = true ∧ c.toLower = c := by
  simp [isNameChar, isNamePart]

/-- A name as it is read: without capitals. -/
def lowered (name : List Char) : List Char := name.map Char.toLower

theorem all_isNamePart (named : text.all isNameChar = true) : text.all isNamePart = true := by
  rw [List.all_eq_true] at named ⊢
  exact fun c member => (isNameChar_iff.mp (named c member)).1

theorem lowered_eq (named : text.all isNameChar = true) : lowered text = text := by
  rw [List.all_eq_true] at named
  calc
    lowered text = text.map id :=
      List.map_congr_left fun c member => (isNameChar_iff.mp (named c member)).2
    _ = text := List.map_id text

/-- The case of a letter has no bearing on the character with number zero. -/
theorem replaceNull_toLower {c : Char} (null : c ≠ '\x00') :
    TokenizerState.replaceNull c.toLower = c.toLower := by
  have other : c.toLower ≠ '\x00' := by
    unfold Char.toLower
    split
    · rename_i capital
      intro same
      have code : c.val + 32 = 0 := congrArg Char.val same
      grind
    · exact null
  rw [TokenizerState.replaceNull, if_neg other]

theorem silent_tagName (fresh : s.skip = 0) (reading : s.reading = .tagName)
    (named : text.all isNamePart = true) :
    Silent s text { s with name := (lowered text).reverse ++ s.name } := by
  have read := Silent.collect (fun c => [c]) Char.toLower (fun read => { s with name := read }) ?_
    named s.name
  · rwa [List.flatMap_singleton'] at read
  · intro c plain read
    obtain ⟨solid, slash, -, angle, null⟩ := isNamePart_iff.mp plain
    refine Silent.single (by exact fresh) ?_
    intro foreign rest
    simp [TokenizerState.step, TokenizerState.readTag, replaceNull_toLower, reading, solid, slash,
      angle, null]

theorem silent_attributeName (fresh : s.skip = 0) (reading : s.reading = .attributeName)
    (named : text.all isNamePart = true) :
    Silent s text { s with attributeName := (lowered text).reverse ++ s.attributeName } := by
  have read := Silent.collect (fun c => [c]) Char.toLower
    (fun read => { s with attributeName := read }) ?_ named s.attributeName
  · rwa [List.flatMap_singleton'] at read
  · intro c plain read
    obtain ⟨solid, slash, equals, angle, null⟩ := isNamePart_iff.mp plain
    refine Silent.single (by exact fresh) ?_
    intro foreign rest
    simp [TokenizerState.step, TokenizerState.readTag, replaceNull_toLower, reading, solid, slash,
      equals, angle, null]

/-- A character that stands for itself in a value in double quotes. -/
def isValueChar (c : Char) : Bool := c != '"' && c != '&' && c != '\x00'

/-- A text in double quotes is read as the given value. -/
def Quotes (written value : List Char) : Prop :=
  ∀ s : TokenizerState, s.skip = 0 → s.reading = .attributeValue .double →
    Silent s written { s with attributeValue := value.reverse ++ s.attributeValue }

theorem silent_valueChar {c : Char} (fresh : s.skip = 0)
    (reading : s.reading = .attributeValue .double) (plain : isValueChar c = true) :
    Silent s [c] { s with attributeValue := c :: s.attributeValue } := by
  have other : (c ≠ '"' ∧ c ≠ '&') ∧ c ≠ '\x00' := by
    simpa [isValueChar] using plain
  apply Silent.single fresh
  intro foreign rest
  simp [TokenizerState.step, TokenizerState.readTag, TokenizerState.readAttributeValue,
    TokenizerState.replaceNull, reading, other]

/-- A plain value is read as itself. -/
theorem Quotes.plain (valued : text.all isValueChar = true) : Quotes text text := by
  intro s fresh reading
  have read := Silent.collect (fun c => [c]) id (fun read => { s with attributeValue := read })
    (fun c plain read => silent_valueChar (s := { s with attributeValue := read }) fresh reading
      plain) valued s.attributeValue
  rwa [List.flatMap_singleton', List.map_id] at read

/-! ## Tags -/

/-- A tag name that stands for itself. -/
def isPlainTagName : List Char → Bool
  | letter :: rest => letter.isAlpha && isNameChar letter && rest.all isNameChar
  | [] => false

/-- A text that is read as the name of a tag. -/
def isTagName : List Char → Bool
  | letter :: rest => letter.isAlpha && rest.all isNamePart
  | [] => false

theorem isPlainTagName_iff :
    isPlainTagName text = true ↔ isTagName text = true ∧ text.all isNameChar = true := by
  cases text with
  | nil => simp [isPlainTagName, isTagName]
  | cons letter rest =>
      simp only [isPlainTagName, isTagName, List.all_cons, Bool.and_eq_true]
      constructor
      · rintro ⟨⟨alpha, first⟩, others⟩
        exact ⟨⟨alpha, all_isNamePart others⟩, first, others⟩
      · rintro ⟨⟨alpha, -⟩, first, others⟩
        exact ⟨⟨alpha, first⟩, others⟩

/-- An attribute whose text stands for itself. -/
def isPlainAttribute (entry : String × String) : Bool :=
  (match entry.1.toList with
    | first :: rest => isNameChar first && rest.all isNameChar
    | [] => false) && entry.2.toList.all isValueChar

/-- The text of an attribute, with a space before it. -/
def writtenAttribute (entry : String × String) : List Char :=
  ' ' :: (entry.1.toList ++ '=' :: '"' :: (entry.2.toList ++ ['"']))

/-- The text of an opening tag. -/
def openingTag (name : String) (attributes : List (String × String)) : List Char :=
  '<' :: (name.toList ++ (attributes.flatMap writtenAttribute ++ ['>']))

/-- The text of a closing tag. -/
def closingTag (name : String) : List Char := '<' :: '/' :: (name.toList ++ ['>'])

namespace TokenizerState

/-- The tokenizer is between tags. -/
structure Ready (s : TokenizerState) : Prop where
  reading : s.reading = .data
  fresh : s.skip = 0

/-- The tokenizer has read a name or a value of a tag to its end. -/
def BehindWord (s : TokenizerState) : Prop :=
  s.reading = .tagName ∨ s.reading = .attributeName ∨ s.reading = .afterAttributeValue

/-- The tokenizer has read a tag up to the end of a name or of a value. -/
structure InTag (s : TokenizerState) (closing : Bool) (name : List Char)
    (attributes : List (String × String)) : Prop where
  reading : s.BehindWord
  fresh : s.skip = 0
  closing_eq : s.closing = closing
  unslashed : s.selfClosing = false
  name_eq : s.name = name.reverse
  attributes_eq : s.finishAttribute.attributes = attributes.reverse

/-- The name of a tag behind its first letter. -/
theorem inTag_startTag {rest : List Char} (fresh : s.skip = 0) (closing : Bool) (letter : Char)
    (named : rest.all isNamePart = true) :
    ∃ s', s'.InTag closing (lowered (letter :: rest)) [] ∧
      Silent (s.startTag closing [letter.toLower]) rest s' := by
  let s' : TokenizerState := { s.startTag closing [letter.toLower] with
    name := (lowered rest).reverse ++ [letter.toLower] }
  have name_eq : s'.name = (lowered (letter :: rest)).reverse := by
    simp [s', lowered]
  exact ⟨s', ⟨.inl rfl, fresh, rfl, rfl, name_eq, rfl⟩, silent_tagName fresh rfl named⟩

theorem silent_angle (ready : s.Ready) : Silent s ['<'] { s with reading := .tagOpen } :=
  Silent.single ready.fresh fun foreign rest => by
    simp [step, ready.reading, readData, go]

theorem enterTag {name : List Char} (ready : s.Ready) (named : isTagName name = true) :
    ∃ s', s'.InTag false (lowered name) [] ∧ Silent s ('<' :: name) s' := by
  cases name with
  | nil => cases named
  | cons letter rest =>
      rw [isTagName, Bool.and_eq_true] at named
      obtain ⟨s', inside, behind⟩ := inTag_startTag (s := { s with reading := .tagOpen })
        ready.fresh false letter named.2
      have first : Silent { s with reading := .tagOpen } [letter]
          ({ s with reading := .tagOpen }.startTag false [letter.toLower]) :=
        Silent.single ready.fresh fun foreign rest => by
          simp [step, readTagOpen, ne_of_isAlpha named.1, named.1]
      exact ⟨s', inside, (silent_angle ready).append (first.append behind)⟩

theorem enterClosingTag {name : List Char} (ready : s.Ready) (named : isTagName name = true) :
    ∃ s', s'.InTag true (lowered name) [] ∧ Silent s ('<' :: '/' :: name) s' := by
  cases name with
  | nil => cases named
  | cons letter rest =>
      rw [isTagName, Bool.and_eq_true] at named
      have angle : letter ≠ '>' := ne_of_isAlpha named.1 rfl
      obtain ⟨s', inside, behind⟩ := inTag_startTag (s := { s with reading := .endTagOpen })
        ready.fresh true letter named.2
      have slash : Silent { s with reading := .tagOpen } ['/'] { s with reading := .endTagOpen } :=
        Silent.single ready.fresh fun foreign rest => by
          simp [step, readTagOpen, go]
      have first : Silent { s with reading := .endTagOpen } [letter]
          ({ s with reading := .endTagOpen }.startTag true [letter.toLower]) :=
        Silent.single ready.fresh fun foreign rest => by
          simp [step, readEndTagOpen, angle, named.1]
      exact ⟨s', inside, (silent_angle ready).append (slash.append (first.append behind))⟩

section Frame

variable (s : TokenizerState)

@[simp]
theorem finishAttribute_skip : s.finishAttribute.skip = s.skip := by
  unfold finishAttribute
  split <;> rfl

@[simp]
theorem finishAttribute_closing : s.finishAttribute.closing = s.closing := by
  unfold finishAttribute
  split <;> rfl

@[simp]
theorem finishAttribute_selfClosing : s.finishAttribute.selfClosing = s.selfClosing := by
  unfold finishAttribute
  split <;> rfl

@[simp]
theorem finishAttribute_name : s.finishAttribute.name = s.name := by
  unfold finishAttribute
  split <;> rfl

@[simp]
theorem finishAttribute_go (reading : Reading) :
    { s with reading }.finishAttribute = { s.finishAttribute with reading } := by
  unfold finishAttribute
  split <;> rfl

end Frame

/-- The state behind an attribute. -/
def afterAttribute (s : TokenizerState) (name value : List Char) (reading : Reading) :
    TokenizerState :=
  { s.finishAttribute with
    reading, attributeName := name.reverse, attributeValue := value.reverse }

/-- The tokenizer has read space behind a word of a tag. -/
def spaced (s : TokenizerState) : TokenizerState :=
  { s with reading :=
      if s.reading = .attributeName then .afterAttributeName else .beforeAttributeName }

/-- Space in a tag. -/
theorem silent_gap {gap : List Char} (reading : s.BehindWord) (fresh : s.skip = 0)
    (nonempty : gap ≠ []) (spaces : gap.all isSpace = true) : Silent s gap s.spaced := by
  obtain ⟨space, rest, rfl⟩ := List.exists_cons_of_ne_nil nonempty
  rw [List.all_cons, Bool.and_eq_true] at spaces
  have first : Silent s [space] s.spaced :=
    Silent.single fresh fun foreign rest => by
      rcases reading with reading | reading | reading <;>
        simp [step, readTag, reading, go, spaced, spaces.1]
  have others (gap : List Char) (spaces : gap.all isSpace = true) :
      Silent s.spaced gap s.spaced := by
    induction gap with
    | nil => exact Silent.nil _
    | cons space rest induction =>
        rw [List.all_cons, Bool.and_eq_true] at spaces
        have one : Silent s.spaced [space] s.spaced :=
          Silent.single fresh fun foreign rest => by
            rcases reading with reading | reading | reading <;>
              simp [step, readTag, readBeforeAttributeName, reading, go, spaced, spaces.1]
        exact one.append (induction spaces.2)
  exact first.append (others rest spaces.2)

/-- The name of an attribute, with the space before it. -/
theorem silent_key {gap name : List Char} (reading : s.BehindWord) (fresh : s.skip = 0)
    (spaced : gap ≠ [] ∧ gap.all isSpace = true) (nonempty : name ≠ [])
    (named : name.all isNamePart = true) :
    Silent s (gap ++ name) (s.afterAttribute (lowered name) [] .attributeName) := by
  obtain ⟨letter, rest, rfl⟩ := List.exists_cons_of_ne_nil nonempty
  rw [List.all_cons, Bool.and_eq_true] at named
  obtain ⟨solid, slash, equals, angle, null⟩ := isNamePart_iff.mp named.1
  have start : Silent s.spaced [letter] (s.startAttribute letter.toLower) :=
    Silent.single fresh fun foreign rest => by
      rcases reading with reading | reading | reading <;>
        simp [step, readTag, readBeforeAttributeName, replaceNull_toLower, startAttribute, reading,
          TokenizerState.spaced, solid, slash, equals, angle, null]
  have fresh' : (s.startAttribute letter.toLower).skip = 0 := by
    simp [startAttribute, fresh]
  have read := silent_attributeName fresh' rfl named.2
  have whole := (silent_gap reading fresh spaced.1 spaced.2).append (start.append read)
  simpa [startAttribute, afterAttribute, lowered] using whole

/-- The value of an attribute, behind its name. -/
theorem silent_assignment {written value : List Char} (reading : s.reading = .attributeName)
    (fresh : s.skip = 0) (empty : s.attributeValue = []) (quotes : Quotes written value) :
    Silent s ('=' :: '"' :: (written ++ ['"']))
      { s with reading := .afterAttributeValue, attributeValue := value.reverse } := by
  have assign : Silent s ['='] { s with reading := .beforeAttributeValue } :=
    Silent.single fresh fun foreign rest => by
      simp [step, readTag, reading, go, isSpace]
  let quoted : TokenizerState := { s with reading := .attributeValue .double }
  have quote : Silent { s with reading := .beforeAttributeValue } ['"'] quoted :=
    Silent.single fresh fun foreign rest => by
      simp [step, readTag, go, isSpace, quoted]
  have read := quotes quoted fresh rfl
  rw [show quoted.attributeValue = [] from empty, List.append_nil] at read
  have unquote : Silent { quoted with attributeValue := value.reverse } ['"']
      { s with reading := .afterAttributeValue, attributeValue := value.reverse } :=
    Silent.single fresh fun foreign rest => by
      simp [step, readTag, readAttributeValue, go, quoted]
  exact assign.append (quote.append (read.append unquote))

/-- A text in a tag is read as an attribute with the given name and value. -/
def Specifies (written name value : List Char) : Prop :=
  ∀ s : TokenizerState, s.BehindWord → s.skip = 0 →
    ∃ reading, (s.afterAttribute name value reading).BehindWord ∧
      Silent s written (s.afterAttribute name value reading)

/-- A name alone. -/
theorem specifies_bare {gap name : List Char} (spaced : gap ≠ [] ∧ gap.all isSpace = true)
    (nonempty : name ≠ []) (named : name.all isNamePart = true) :
    Specifies (gap ++ name) (lowered name) [] :=
  fun _ reading fresh =>
    ⟨.attributeName, .inr (.inl rfl), silent_key reading fresh spaced nonempty named⟩

/-- A name with a value in double quotes. -/
theorem specifies_valued {gap name written value : List Char}
    (spaced : gap ≠ [] ∧ gap.all isSpace = true) (nonempty : name ≠ [])
    (named : name.all isNamePart = true) (quotes : Quotes written value) :
    Specifies (gap ++ name ++ '=' :: '"' :: (written ++ ['"'])) (lowered name) value := by
  intro s reading fresh
  refine ⟨.afterAttributeValue, .inr (.inr rfl), ?_⟩
  have key := silent_key reading fresh spaced nonempty named
  have fresh' : (s.afterAttribute (lowered name) [] .attributeName).skip = 0 := by
    simp [afterAttribute, fresh]
  exact key.append (silent_assignment rfl fresh' rfl quotes)

/-- One space. -/
theorem single_space : [' '] ≠ [] ∧ [' '].all isSpace = true := by decide

/-- An attribute with a name of its own is one more attribute of the tag. -/
theorem InTag.afterAttribute {name key value : List Char} {closing : Bool}
    {attributes : List (String × String)} {reading : Reading}
    (inside : s.InTag closing name attributes) (nonempty : key ≠ [])
    (other : String.ofList key ∉ attributes.map (·.1))
    (behind : (s.afterAttribute key value reading).BehindWord) :
    (s.afterAttribute key value reading).InTag closing name
      (attributes ++ [(String.ofList key, String.ofList value)]) := by
  have absent : s.finishAttribute.attributes.any (·.1 == String.ofList key) = false := by
    rw [inside.attributes_eq, List.any_eq_false]
    intro found member same
    refine other (List.mem_map.mpr ⟨found, List.mem_reverse.mp member, ?_⟩)
    simpa using same
  refine ⟨behind, ?_, ?_, ?_, ?_, ?_⟩
  · simp [TokenizerState.afterAttribute, inside.fresh]
  · simp [TokenizerState.afterAttribute, inside.closing_eq]
  · simp [TokenizerState.afterAttribute, inside.unslashed]
  · simp [TokenizerState.afterAttribute, inside.name_eq]
  · rw [finishAttribute, if_neg (by simp [TokenizerState.afterAttribute, nonempty])]
    simp only [TokenizerState.afterAttribute, forwards, List.reverse_reverse, absent]
    simp [inside.attributes_eq]

/-- Attributes with different names, in order, each written in its own way. -/
theorem InTag.attributes {α : Type} {write name value : α → List Char} {tag : List Char}
    {closing : Bool} {found : List (String × String)} {items : List α}
    (inside : s.InTag closing tag found)
    (specified : ∀ item ∈ items, name item ≠ [] ∧ Specifies (write item) (name item) (value item))
    (distinct : (found.map (·.1) ++ items.map fun item => String.ofList (name item)).Nodup) :
    ∃ s', s'.InTag closing tag
        (found ++ items.map fun item => (String.ofList (name item), String.ofList (value item))) ∧
      Silent s (items.flatMap write) s' := by
  induction items generalizing s found with
  | nil =>
      rw [List.map_nil, List.append_nil]
      exact ⟨s, inside, Silent.nil s⟩
  | cons item rest induction =>
      rw [List.forall_mem_cons] at specified
      obtain ⟨⟨nonempty, specifies⟩, others⟩ := specified
      have other : String.ofList (name item) ∉ found.map (·.1) := by
        intro member
        rw [List.map_cons, List.nodup_append] at distinct
        exact distinct.2.2 _ member _ List.mem_cons_self rfl
      obtain ⟨reading, behind, own⟩ := specifies s inside.reading inside.fresh
      have distinct' : ((found ++ [(String.ofList (name item), String.ofList (value item))]).map
          (·.1) ++ rest.map fun item => String.ofList (name item)).Nodup := by
        simpa using distinct
      obtain ⟨s', inside', rest_read⟩ :=
        induction (inside.afterAttribute nonempty other behind) others distinct'
      rw [List.append_assoc] at inside'
      exact ⟨s', inside', own.append rest_read⟩

/-- The token of a tag. -/
def tagToken (closing : Bool) (tag : Tag) : Token := if closing then .endTag tag else .startTag tag

/-- The end of a tag, with the space before it. -/
theorem InTag.close {closing : Bool} {name gap : List Char} {attributes : List (String × String)}
    (inside : s.InTag closing name attributes) (spaces : gap.all isSpace = true) :
    ∃ s', s'.Ready ∧ (closing = false → s'.lastStart = String.ofList name) ∧
      Yields s (gap ++ ['>']) (tagToken closing ⟨String.ofList name, attributes, false⟩) s' := by
  let lastStart := if closing then s.finishAttribute.lastStart else String.ofList name
  let s' : TokenizerState := { s.finishAttribute with reading := .data, lastStart }
  have named : forwards s.name = String.ofList name := by
    simp [forwards, inside.name_eq]
  have emitted (reading : Reading) : { s with reading }.emitTag =
      (s', [tagToken closing ⟨String.ofList name, attributes, false⟩]) := by
    rw [emitTag, finishAttribute_go]
    cases closing <;>
      simp [named, inside.closing_eq, inside.unslashed, inside.attributes_eq, tagToken, lastStart,
        s']
  refine ⟨s', ⟨rfl, by simp [s', inside.fresh]⟩, by rintro rfl; rfl, ?_⟩
  cases gap with
  | nil =>
      refine Yields.single inside.fresh fun foreign rest => ?_
      have read : s.step foreign '>' rest = s.emitTag := by
        rcases inside.reading with reading | reading | reading <;>
          simp [step, readTag, reading, isSpace]
      exact read.trans (emitted s.reading)
  | cons space more =>
      refine (silent_gap inside.reading inside.fresh (List.cons_ne_nil _ _) spaces).yields ?_
      refine Yields.single (by exact inside.fresh) fun foreign rest => ?_
      have read : s.spaced.step foreign '>' rest = s.spaced.emitTag := by
        rcases inside.reading with reading | reading | reading <;>
          simp [step, readTag, readBeforeAttributeName, spaced, reading, isSpace]
      exact read.trans (emitted s.spaced.reading)

/-- An opening tag, with space before its end, is a token. -/
theorem Ready.openingSpaced {α : Type} {write name value : α → List Char} {tag gap : List Char}
    {items : List α} (ready : s.Ready) (named : isTagName tag = true)
    (specified : ∀ item ∈ items, name item ≠ [] ∧ Specifies (write item) (name item) (value item))
    (distinct : (items.map fun item => String.ofList (name item)).Nodup)
    (spaces : gap.all isSpace = true) :
    ∃ s', s'.Ready ∧ s'.lastStart = String.ofList (lowered tag) ∧
      Yields s ('<' :: (tag ++ (items.flatMap write ++ (gap ++ ['>']))))
        (.startTag ⟨String.ofList (lowered tag),
          items.map fun item => (String.ofList (name item), String.ofList (value item)), false⟩)
        s' := by
  obtain ⟨entered, inside, start⟩ := enterTag ready named
  obtain ⟨full, inside', header⟩ := inside.attributes specified distinct
  obtain ⟨s', ready', named', last⟩ := inside'.close spaces
  exact ⟨s', ready', named' rfl, start.yields (header.yields last)⟩

/-- An opening tag is a token. -/
theorem Ready.opening {α : Type} {write name value : α → List Char} {tag : List Char}
    {items : List α} (ready : s.Ready) (named : isTagName tag = true)
    (specified : ∀ item ∈ items, name item ≠ [] ∧ Specifies (write item) (name item) (value item))
    (distinct : (items.map fun item => String.ofList (name item)).Nodup) :
    ∃ s', s'.Ready ∧ s'.lastStart = String.ofList (lowered tag) ∧
      Yields s ('<' :: (tag ++ (items.flatMap write ++ ['>'])))
        (.startTag ⟨String.ofList (lowered tag),
          items.map fun item => (String.ofList (name item), String.ofList (value item)), false⟩)
        s' := by
  have none : ([] : List Char).all isSpace = true := rfl
  simpa using ready.openingSpaced named specified distinct none

/-- A closing tag is a token. -/
theorem Ready.closing {tag : List Char} (ready : s.Ready) (named : isTagName tag = true) :
    ∃ s', s'.Ready ∧ Yields s ('<' :: '/' :: (tag ++ ['>']))
      (.endTag ⟨String.ofList (lowered tag), [], false⟩) s' := by
  obtain ⟨entered, inside, start⟩ := enterClosingTag ready named
  obtain ⟨s', ready', -, last⟩ := inside.close List.all_nil
  exact ⟨s', ready', start.yields last⟩

theorem specifies_plain {entry : String × String} (plain : isPlainAttribute entry = true) :
    entry.1.toList ≠ [] ∧
      Specifies (writtenAttribute entry) entry.1.toList entry.2.toList := by
  obtain ⟨key, value⟩ := entry
  rw [isPlainAttribute, Bool.and_eq_true] at plain
  obtain ⟨keyed, valued⟩ := plain
  have nonempty : key.toList ≠ [] := by
    intro empty
    simp [empty] at keyed
  have named : key.toList.all isNameChar = true := by
    cases key_eq : key.toList with
    | nil => rfl
    | cons letter rest => simpa [key_eq] using keyed
  have specifies :=
    specifies_valued single_space nonempty (all_isNamePart named) (Quotes.plain valued)
  rw [lowered_eq named] at specifies
  exact ⟨nonempty, specifies⟩

/-- An opening tag that stands for itself is a token. -/
theorem Ready.openingTag {name : String} {attributes : List (String × String)} (ready : s.Ready)
    (named : isPlainTagName name.toList = true) (plain : attributes.all isPlainAttribute = true)
    (distinct : (attributes.map (·.1)).Nodup) :
    ∃ s', s'.Ready ∧
      Yields s (openingTag name attributes) (.startTag ⟨name, attributes, false⟩) s' := by
  obtain ⟨tagged, lower⟩ := isPlainTagName_iff.mp named
  have specified (entry : String × String) (member : entry ∈ attributes) :=
    specifies_plain (List.all_eq_true.mp plain entry member)
  obtain ⟨s', ready', -, whole⟩ := ready.opening tagged specified (by simpa using distinct)
  refine ⟨s', ready', ?_⟩
  simpa [lowered_eq lower, Markup.openingTag] using whole

/-- A closing tag that stands for itself is a token. -/
theorem Ready.closingTag {name : String} (ready : s.Ready)
    (named : isPlainTagName name.toList = true) :
    ∃ s', s'.Ready ∧ Yields s (closingTag name) (.endTag ⟨name, [], false⟩) s' := by
  obtain ⟨tagged, lower⟩ := isPlainTagName_iff.mp named
  have whole := ready.closing tagged
  simpa [lowered_eq lower, Markup.closingTag] using whole

/-- A character of text is a token. -/
theorem Ready.character {c : Char} (ready : s.Ready) (angle : c ≠ '<') (literal : c ≠ '&')
    (null : c ≠ '\x00') : Yields s [c] (.character c) s := by
  have same : { s with reading := .data } = s := by
    rw [← ready.reading]
  apply Yields.single ready.fresh
  intro foreign rest
  simp [step, ready.reading, readData, angle, literal, go, dataChar, null, same]

end TokenizerState

end Markup
end ReactiveTemplate
