import ReactiveTemplate.Proofs.Fragment.Spelling
import ReactiveTemplate.Proofs.Markup.Decode
import ReactiveTemplate.Proofs.Markup.Rules
import ReactiveTemplate.Proofs.Template.Usage

/-!
# Sources made of chunks

Most sources are made of a few kinds of chunks: text and character references, code in braces, and
tags whose attributes stand alone, have a value in double quotes, or have code in braces for a
value.  A draft writes every chunk on its own, whatever follows, and all that it takes from what it
has read is its location and how many codes have been taken out.
-/

namespace ReactiveTemplate
namespace Template

open Fragment (enclosed isEnclosed closingFrom_of_isEnclosed)

/-! ## Chunks -/

/-- A chunk of a value in quotes. -/
inductive ValueChunk where
  /-- Text. -/
  | text (content : List Char)
  /-- Code in braces. -/
  | braced (code : List Char)
  deriving DecidableEq, Repr

/-- What stands behind the name of an attribute. -/
inductive Setting where
  /-- Nothing. -/
  | none
  /-- A value in double quotes. -/
  | quoted (chunks : List ValueChunk)
  /-- Code in braces. -/
  | braced (code : List Char)
  deriving DecidableEq, Repr

/-- An attribute of a tag. -/
structure TagField where
  /-- The space before it. -/
  gap : List Char
  /-- Its name. -/
  name : List Char
  /-- What stands behind the name. -/
  setting : Setting
  deriving DecidableEq, Repr

/-- A chunk of a source. -/
inductive Chunk where
  /-- Text. -/
  | text (content : List Char)
  /-- A character reference: a letter, the rest of the name, and the character it stands for. -/
  | reference (letter : Char) (name : List Char) (char : Char)
  /-- Code in braces. -/
  | braced (code : List Char)
  /-- An opening tag, with the space before its end; it may close itself. -/
  | opening (name : List Char) (fields : List TagField) (gap : List Char) (closed : Bool)
  /-- A closing tag. -/
  | closing (name : List Char)
  deriving DecidableEq, Repr

/-- The text of a chunk of a value. -/
def ValueChunk.source : ValueChunk → List Char
  | text content => content
  | braced code => enclosed code

/-- The text of a setting. -/
def Setting.source : Setting → List Char
  | none => []
  | quoted chunks => '=' :: '"' :: (chunks.flatMap ValueChunk.source ++ ['"'])
  | braced code => '=' :: enclosed code

/-- The text of an attribute. -/
def TagField.source (field : TagField) : List Char :=
  field.gap ++ (field.name ++ field.setting.source)

/-- The end of an opening tag. -/
def tagEnd (closed : Bool) : List Char := if closed then ['/', '>'] else ['>']

/-- The text of a chunk. -/
def Chunk.source : Chunk → List Char
  | text content => content
  | reference letter name _ => '&' :: letter :: (name ++ [';'])
  | braced code => enclosed code
  | opening name fields gap closed =>
    '<' :: (name ++ (fields.flatMap TagField.source ++ (gap ++ tagEnd closed)))
  | closing name => Code.closingTag name

/-- The text of chunks. -/
def sourceOf (chunks : List Chunk) : List Char := chunks.flatMap Chunk.source

/-! ## Sound chunks -/

/-- A character of text that opens nothing. -/
def isTextChar (c : Char) : Bool := c != '<' && c != '{' && c != '&' && c != '\x00'

/-- A character of text in quotes. -/
def isQuotedChar (c : Char) : Bool := Markup.isValueChar c && c != '{'

/-- A character of the name of an attribute. -/
def isFieldNameChar (c : Char) : Bool :=
  Markup.isNamePart c && c != '"' && c != '\x27' && c != '{'

/-- The chunk of a value is read as what it is. -/
def ValueChunk.isSound : ValueChunk → Bool
  | text content => content.all isQuotedChar
  | braced code => isEnclosed code

/-- The setting is read as what it is. -/
def Setting.isSound : Setting → Bool
  | none => true
  | quoted chunks => chunks.all ValueChunk.isSound
  | braced code => isEnclosed code

/-- The attribute is read as what it is. -/
def TagField.isSound (field : TagField) : Bool :=
  !field.gap.isEmpty && field.gap.all Markup.isSpace && !field.name.isEmpty &&
    field.name.all isFieldNameChar && field.setting.isSound

/-- The names that the attributes of a tag have in the markup. -/
def fieldNames (name : List Char) (fields : List TagField) : List (List Char) :=
  (if Markup.isComponentTag (String.ofList name) then [nameAttribute.toList] else []) ++
    locationAttribute.toList :: fields.map fun field => Markup.lowered field.name

/-- The chunk is read as what it is, and markup goes on behind it. -/
def Chunk.isSound : Chunk → Bool
  | text content => content.all isTextChar
  | reference letter name char =>
    Markup.isReference letter name char && (letter :: name).all isTextChar
  | braced code => isEnclosed code
  | opening name fields gap _ =>
    Code.isTagName name &&
      !("plaintext" :: Markup.rawNames).contains (Text.asciiLowercase (String.ofList name)) &&
      fields.all TagField.isSound && decide (fieldNames name fields).Nodup &&
      gap.all Markup.isSpace
  | closing name => Code.isTagName name

/-! ## The markup of chunks -/

/-- The code leaves a placeholder in the markup. -/
def shows (code : List Char) : Bool :=
  !((Text.trim code).isEmpty || Draft.isRemark (Text.trim code))

/-- How many placeholders the code leaves. -/
def countOf (code : List Char) : Nat := if shows code then 1 else 0

/-- The number of a placeholder for the code, if there is one. -/
def numberFor? (number : Nat) (code : List Char) : Option Nat :=
  if shows code then some number else none

/-- What stands in a tag for the code of the given number. -/
def word : Option Nat → List Char
  | some number => (wordPlaceholder number).toList
  | none => []

/-- What stands between tags for the code of the given number. -/
def element : Option Nat → List Char
  | some number => (elementPlaceholder number).toList
  | none => []

/-- How many placeholders the chunk of a value leaves. -/
def ValueChunk.count : ValueChunk → Nat
  | text _ => 0
  | braced code => countOf code

/-- The value that chunks leave in the markup, where so many codes have been taken out before. -/
def valueOf (number : Nat) : List ValueChunk → List Char
  | [] => []
  | .text content :: rest => content ++ valueOf number rest
  | .braced code :: rest => word (numberFor? number code) ++ valueOf (number + countOf code) rest

namespace Setting

/-- How many placeholders the setting leaves. -/
def count : Setting → Nat
  | none => 0
  | quoted chunks => (chunks.map ValueChunk.count).sum
  | braced code => countOf code

/-- The value in the markup. -/
def value (number : Nat) : Setting → List Char
  | none => []
  | quoted chunks => valueOf number chunks
  | braced code => word (numberFor? number code)

/-- The text in the markup. -/
def written (number : Nat) (setting : Setting) : List Char :=
  match setting with
  | none => []
  | _ => '=' :: '"' :: (setting.value number ++ ['"'])

end Setting

/-- An attribute in the markup. -/
structure Item where
  /-- Its text, with the space before it. -/
  written : List Char
  /-- Its name. -/
  name : List Char
  /-- Its value. -/
  value : List Char

/-- The attribute that a tag is written with for its location. -/
def locationText (location : Location) : List Char :=
  (toString location.line ++ ":" ++ toString location.column).toList

/-- The attribute that carries the location of a tag. -/
def locationItem (location : Location) : Item :=
  ⟨(locationMark location).toList, locationAttribute.toList, locationText location⟩

/-- The attribute that carries the name of a component. -/
def nameItem (name : List Char) : Item :=
  ⟨' ' :: (nameAttribute.toList ++ '=' :: '"' :: (name ++ ['"'])), nameAttribute.toList, name⟩

/-- An attribute of the source in the markup. -/
def TagField.item (number : Nat) (field : TagField) : Item :=
  ⟨field.gap ++ (field.name ++ field.setting.written number), Markup.lowered field.name,
    field.setting.value number⟩

/-- The attributes of the source in the markup, where so many codes have been taken out before. -/
def itemsOf (number : Nat) : List TagField → List Item
  | [] => []
  | field :: rest => field.item number :: itemsOf (number + field.setting.count) rest

/-- The attributes that an opening tag has in the markup. -/
def headerOf (name : List Char) (location : Location) (number : Nat) (fields : List TagField) :
    List Item :=
  (if Markup.isComponentTag (String.ofList name) then [nameItem name] else []) ++
    locationItem location :: itemsOf number fields

/-- The tag needs a tag of its own to be closed. -/
def needsClosing (name : String) : Bool :=
  Markup.isComponentTag name || !Markup.isVoidElement name

/-- What an opening tag that closes itself leaves behind it. -/
def ownClosing (name : List Char) (closed : Bool) : List Char :=
  if closed && needsClosing (String.ofList name) then
    Markup.closingTag (Draft.markupTag (String.ofList name))
  else []

namespace Chunk

/-- How many placeholders the chunk leaves. -/
def count : Chunk → Nat
  | braced code => countOf code
  | opening _ fields _ _ => (fields.map fun field => field.setting.count).sum
  | _ => 0

/-- What the chunk leaves in the markup if it starts at the given location, where so many codes have
been taken out before. -/
def markup (location : Location) (number : Nat) : Chunk → List Char
  | text content => content
  | reference letter name _ => '&' :: letter :: (name ++ [';'])
  | braced code => element (numberFor? number code)
  | opening name fields gap closed =>
    '<' :: ((Draft.markupTag (String.ofList name)).toList ++
      ((headerOf name location number fields).flatMap Item.written ++ (gap ++ ['>']))) ++
        ownClosing name closed
  | closing name => Markup.closingTag (Draft.markupTag (String.ofList name))

end Chunk

/-- What chunks leave in the markup. -/
def markupOf (location : Location) (number : Nat) : List Chunk → List Char
  | [] => []
  | chunk :: rest =>
    chunk.markup location number ++
      markupOf (location.advance chunk.source) (number + chunk.count) rest

/-! ## Drafts -/

namespace Draft

/-- Where a draft is between two chunks of a source. -/
structure Spot where
  /-- Where the next character stands. -/
  position : Position
  /-- Location of the next character. -/
  location : Location
  /-- How many codes have been taken out. -/
  number : Nat

/-- The spot behind a text that so many codes are taken out of. -/
def Spot.past (spot : Spot) (text : List Char) (count : Nat) (position : Position) : Spot :=
  ⟨position, spot.location.advance text, spot.number + count⟩

section Spot

variable (spot : Spot) (text : List Char) (count : Nat) (position : Position)

@[simp] theorem Spot.past_position : (spot.past text count position).position = position := rfl
@[simp] theorem Spot.past_number :
    (spot.past text count position).number = spot.number + count := rfl
@[simp] theorem Spot.past_location :
    (spot.past text count position).location = spot.location.advance text := rfl

@[simp]
theorem Spot.past_past (more : List Char) (count' : Nat) (position' : Position) :
    (spot.past text count position).past more count' position' =
      spot.past (text ++ more) (count + count') position' := by
  simp [Spot.past, Location.advance_append, Nat.add_assoc]

/-- Nothing has been read. -/
theorem Spot.past_nil : spot.past [] 0 spot.position = spot := rfl

end Spot

/-- The draft is at the spot, and no part of the source has been recognized ahead. -/
structure Stands (draft : Draft) (spot : Spot) : Prop where
  position_eq : draft.position = spot.position
  location_eq : draft.location = spot.location
  number_eq : draft.captured.length = spot.number
  fresh : draft.skip = 0

/-- Reading the text leads from one spot to the other and leaves something in the markup, whatever
follows. -/
def Writes (before : Spot) (source written : List Char) (after : Spot) : Prop :=
  ∀ draft : Draft, draft.Stands before → ∀ more, ∃ draft' : Draft, draft'.Stands after ∧
    draft'.markup = draft.markup ++ written ∧
      draft.runFrom (source ++ more) = draft'.runFrom more

namespace Writes

variable {before middle after : Spot} {source first second written left right : List Char}
  {position : Position} {spot : Spot}

theorem nil (spot : Spot) : Writes spot [] [] spot :=
  fun draft stands _ => ⟨draft, stands, (List.append_nil _).symm, rfl⟩

theorem append (earlier : Writes before first left middle)
    (later : Writes middle second right after) :
    Writes before (first ++ second) (left ++ right) after := by
  intro draft stands more
  obtain ⟨draft₁, stands₁, markup₁, read₁⟩ := earlier draft stands (second ++ more)
  obtain ⟨draft₂, stands₂, markup₂, read₂⟩ := later draft₁ stands₁ more
  refine ⟨draft₂, stands₂, ?_, ?_⟩
  · rw [markup₂, markup₁, List.append_assoc]
  · rw [List.append_assoc, read₁, read₂]

/-- A character that is copied. -/
theorem copied {c : Char} (step : ∀ draft : Draft, draft.Stands spot → ∀ rest,
    draft.step c rest = .ok { draft.copy c 0 with position := position }) :
    Writes spot [c] [c] (spot.past [c] 0 position) := by
  intro draft stands more
  refine ⟨{ draft.copy c 0 with position := position },
    ⟨rfl, congrArg (·.next c) stands.location_eq, stands.number_eq, rfl⟩, ?_, ?_⟩
  · simp [markup, copy]
  · rw [List.singleton_append, runFrom, step draft stands more]

/-- Characters of one kind that are copied. -/
theorem text {kind : Char → Bool} {content : List Char} (position_eq : spot.position = position)
    (step : ∀ draft : Draft, draft.skip = 0 → draft.position = position → ∀ c, kind c = true →
      ∀ rest, draft.step c rest = .ok (draft.copy c 0))
    (all : content.all kind = true) :
    Writes spot content content (spot.past content 0 position) := by
  induction content generalizing spot with
  | nil =>
      subst position_eq
      exact nil spot
  | cons c rest induction =>
      rw [List.all_cons, Bool.and_eq_true] at all
      have first : Writes spot [c] [c] (spot.past [c] 0 position) := by
        refine copied fun draft stands rest => ?_
        have here := stands.position_eq.trans position_eq
        rw [step draft stands.fresh here c all.1, ← here]
        rfl
      exact first.append (induction rfl all.2)

/-- A part that is passed over behind its first character, where that takes a look at what
follows. -/
theorem passed_then {c : Char} {rest tail : List Char} {count : Nat}
    (step : ∀ draft : Draft, draft.Stands spot → ∀ more, ∃ draft' : Draft,
      draft.step c (rest ++ (tail ++ more)) = .ok (draft'.passOver c rest.length) ∧
        draft'.location = spot.location ∧ draft'.captured.length = spot.number + count ∧
          draft'.position = position ∧ draft'.markup = draft.markup ++ written)
    (later : Writes (spot.past (c :: rest) count position) tail right after) :
    Writes spot (c :: (rest ++ tail)) (written ++ right) after := by
  intro draft stands more
  obtain ⟨marked, read, location, number, place, content⟩ := step draft stands more
  let beyond := marked.passOver c rest.length
  let next : Draft := { beyond with location := beyond.location.advance rest, skip := 0 }
  have passed : draft.runFrom (c :: (rest ++ (tail ++ more))) = next.runFrom (tail ++ more) := by
    rw [runFrom, read]
    exact runFrom_passed rfl rfl (tail ++ more)
  have stands' : next.Stands (spot.past (c :: rest) count position) :=
    ⟨place, congrArg (fun location => (Location.next location c).advance rest) location, number,
      rfl⟩
  obtain ⟨draft', stands'', markup, read'⟩ := later next stands' more
  refine ⟨draft', stands'', ?_, ?_⟩
  · rw [markup, ← List.append_assoc, ← content]
    rfl
  · rw [List.cons_append, List.append_assoc, passed, read']

/-- A part that is passed over behind its first character. -/
theorem passed {c : Char} {rest : List Char} {count : Nat}
    (step : ∀ draft : Draft, draft.Stands spot → ∀ more, ∃ draft' : Draft,
      draft.step c (rest ++ more) = .ok (draft'.passOver c rest.length) ∧
        draft'.location = spot.location ∧ draft'.captured.length = spot.number + count ∧
          draft'.position = position ∧ draft'.markup = draft.markup ++ written) :
    Writes spot (c :: rest) written (spot.past (c :: rest) count position) := by
  have whole : Writes spot (c :: (rest ++ [])) (written ++ []) _ :=
    passed_then (by simpa using step) (nil (spot.past (c :: rest) count position))
  simpa using whole

end Writes

/-! ## Code -/

/-- The draft behind the opening brace of code that is taken out. -/
theorem capture_enclosed {code : List Char} (sound : isEnclosed code = true) (draft : Draft)
    (more : List Char) :
    ∃ captured, draft.capture (code ++ '}' :: more) =
        .ok (numberFor? draft.captured.length code,
          { draft.passOver '{' (code.length + 1) with captured := captured }) ∧
      captured.length = draft.captured.length + countOf code := by
  have raw : (code ++ '}' :: more).take code.length = code := List.take_left
  rw [capture, closingFrom_of_isEnclosed sound, numberFor?, countOf, shows]
  dsimp only
  rw [raw]
  split
  · rename_i hidden
    simp only [hidden, Bool.not_true, Bool.false_eq_true, if_false]
    exact ⟨draft.captured, rfl, rfl⟩
  · rename_i shown
    simp only [Bool.eq_false_iff.mpr shown, Bool.not_false, if_true]
    exact ⟨_, rfl, by simp⟩

/-- Code in braces leaves what stands for its number where it is. -/
theorem Writes.braces {code : List Char} {position : Position} {spot : Spot}
    (place : Option Nat → List Char) (sound : isEnclosed code = true)
    (position_eq : spot.position = position)
    (step : ∀ draft : Draft, draft.skip = 0 → draft.position = position → ∀ rest,
      draft.step '{' rest = (draft.capture rest).map fun taken => taken.2.write (place taken.1)) :
    Writes spot (enclosed code) (place (numberFor? spot.number code))
      (spot.past (enclosed code) (countOf code) position) := by
  refine Writes.passed fun draft stands more => ?_
  obtain ⟨captured, taken, count⟩ := capture_enclosed sound draft more
  rw [stands.number_eq] at taken count
  refine ⟨{ draft.write (place (numberFor? spot.number code)) with captured := captured }, ?_,
    stands.location_eq, count, stands.position_eq.trans position_eq, ?_⟩
  · rw [step draft stands.fresh (stands.position_eq.trans position_eq), List.append_assoc,
      List.singleton_append, taken, List.length_append]
    rfl
  · simp [markup, write]

theorem step_content (draft : Draft) (fresh : draft.skip = 0) (place : draft.position = .content)
    (c : Char) (rest : List Char) : draft.step c rest = draft.readContent c rest := by
  rw [step, if_neg (by omega), place]

theorem step_tag {tag : OpenTag} (draft : Draft) (fresh : draft.skip = 0)
    (place : draft.position = .tag tag) (c : Char) (rest : List Char) :
    draft.step c rest = draft.readTag tag c rest := by
  rw [step, if_neg (by omega), place]

theorem step_quoted {quote : Char} {tag : OpenTag} (draft : Draft) (fresh : draft.skip = 0)
    (place : draft.position = .quoted quote tag) (c : Char) (rest : List Char) :
    draft.step c rest = draft.readQuoted quote tag c rest := by
  rw [step, if_neg (by omega), place]

variable {spot : Spot} {code : List Char} {tag : OpenTag}

/-- Code between tags. -/
theorem writes_contentCode (between : spot.position = .content) (sound : isEnclosed code = true) :
    Writes spot (enclosed code) (element (numberFor? spot.number code))
      (spot.past (enclosed code) (countOf code) .content) := by
  refine Writes.braces element sound between fun draft fresh place rest => ?_
  rw [step_content draft fresh place]
  unfold readContent
  rw [if_pos rfl]
  cases draft.capture rest with
  | error => rfl
  | ok taken =>
      obtain ⟨number?, after⟩ := taken
      cases number? <;> rfl

/-- Code in a tag. -/
theorem writes_tagCode (inside : spot.position = .tag tag) (sound : isEnclosed code = true) :
    Writes spot (enclosed code) ('"' :: (word (numberFor? spot.number code) ++ ['"']))
      (spot.past (enclosed code) (countOf code) (.tag tag)) := by
  refine Writes.braces (fun number? => '"' :: (word number? ++ ['"'])) sound inside
    fun draft fresh place rest => ?_
  rw [step_tag draft fresh place, readTag, if_neg (by decide), if_pos rfl]
  cases draft.capture rest with
  | error => rfl
  | ok taken =>
      obtain ⟨number?, after⟩ := taken
      cases number? with
      | none => rfl
      | some number => simp [bind, Except.bind, Except.map, word]

/-- Code in a quoted value. -/
theorem writes_quotedCode {quote : Char} (inside : spot.position = .quoted quote tag)
    (other : '{' ≠ quote) (sound : isEnclosed code = true) :
    Writes spot (enclosed code) (word (numberFor? spot.number code))
      (spot.past (enclosed code) (countOf code) (.quoted quote tag)) := by
  refine Writes.braces word sound inside fun draft fresh place rest => ?_
  rw [step_quoted draft fresh place, readQuoted, if_neg other, if_pos rfl]
  cases draft.capture rest with
  | error => rfl
  | ok taken =>
      obtain ⟨number?, after⟩ := taken
      cases number? <;> rfl

end Draft

/-! ## Tags -/

namespace Draft

variable {spot : Spot} {tag : OpenTag}

/-- Text in a quoted value. -/
theorem writes_quotedText {content : List Char} (inside : spot.position = .quoted '"' tag)
    (all : content.all isQuotedChar = true) :
    Writes spot content content (spot.past content 0 (.quoted '"' tag)) := by
  refine Writes.text inside (fun draft fresh place c plain rest => ?_) all
  have other : c ≠ '"' ∧ c ≠ '{' := by
    constructor <;>
    · rintro rfl
      cases plain
  rw [step_quoted draft fresh place, readQuoted, if_neg other.1, if_neg other.2]

/-- The chunks of a quoted value. -/
theorem writes_value {chunks : List ValueChunk} (inside : spot.position = .quoted '"' tag)
    (sound : chunks.all ValueChunk.isSound = true) :
    Writes spot (chunks.flatMap ValueChunk.source) (valueOf spot.number chunks)
      (spot.past (chunks.flatMap ValueChunk.source) (chunks.map ValueChunk.count).sum
        (.quoted '"' tag)) := by
  induction chunks generalizing spot with
  | nil =>
      have same := spot.past_nil
      rw [inside] at same
      simpa [valueOf, same] using Writes.nil spot
  | cons chunk rest induction =>
      rw [List.all_cons, Bool.and_eq_true] at sound
      cases chunk with
      | text content =>
          have first := writes_quotedText inside sound.1
          have others := @induction (spot.past content 0 (.quoted '"' tag)) rfl sound.2
          simpa [ValueChunk.source, ValueChunk.count, valueOf] using first.append others
      | braced code =>
          have first := writes_quotedCode inside (by decide) sound.1
          have others :=
            @induction (spot.past (enclosed code) (countOf code) (.quoted '"' tag)) rfl sound.2
          simpa [ValueChunk.source, ValueChunk.count, valueOf] using first.append others

/-- A character of a tag that ends nothing and starts no value and no code. -/
def isTagText (c : Char) : Bool :=
  c != '"' && c != '\x27' && c != '{' && c != '/' && c != '>'

/-- Names and space in a tag. -/
theorem writes_tagText {content : List Char} (inside : spot.position = .tag tag)
    (all : content.all isTagText = true) :
    Writes spot content content (spot.past content 0 (.tag tag)) := by
  refine Writes.text inside (fun draft fresh place c plain rest => ?_) all
  simp only [isTagText, Bool.and_eq_true, bne_iff_ne] at plain
  obtain ⟨⟨⟨⟨double, single⟩, brace⟩, slash⟩, angle⟩ := plain
  rw [step_tag draft fresh place, readTag]
  simp only [double, single, brace, slash, angle, or_self, false_and, if_false]

/-- A quote at the start of a value. -/
theorem writes_openQuote (inside : spot.position = .tag tag) :
    Writes spot ['"'] ['"'] (spot.past ['"'] 0 (.quoted '"' tag)) := by
  refine Writes.copied fun draft stands rest => ?_
  rw [step_tag draft stands.fresh (stands.position_eq.trans inside), readTag, if_pos (.inl rfl)]

/-- A quote at the end of a value. -/
theorem writes_closeQuote (inside : spot.position = .quoted '"' tag) :
    Writes spot ['"'] ['"'] (spot.past ['"'] 0 (.tag tag)) := by
  refine Writes.copied fun draft stands rest => ?_
  rw [step_quoted draft stands.fresh (stands.position_eq.trans inside), readQuoted, if_pos rfl]

/-- What stands behind the name of an attribute. -/
theorem writes_setting {setting : Setting} (inside : spot.position = .tag tag)
    (sound : setting.isSound = true) :
    Writes spot setting.source (setting.written spot.number)
      (spot.past setting.source setting.count (.tag tag)) := by
  have assign : Writes spot ['='] ['='] (spot.past ['='] 0 (.tag tag)) :=
    writes_tagText inside (by decide)
  cases setting with
  | none =>
      have same := spot.past_nil
      rw [inside] at same
      simpa [Setting.source, Setting.written, Setting.count, same] using Writes.nil spot
  | quoted chunks =>
      have opened := assign.append (writes_openQuote rfl)
      have value := opened.append (writes_value rfl sound)
      simpa [Setting.source, Setting.written, Setting.count, Setting.value] using
        value.append (writes_closeQuote rfl)
  | braced code => simpa [Setting.source, Setting.written, Setting.count, Setting.value] using
      assign.append (writes_tagCode rfl sound)

theorem isTagText_of_isSpace {c : Char} (space : Markup.isSpace c = true) :
    isTagText c = true := by
  simp only [Markup.isSpace, Bool.or_eq_true, beq_iff_eq] at space
  rcases space with ((rfl | rfl) | rfl) | rfl <;> rfl

theorem isTagText_of_isFieldNameChar {c : Char} (part : isFieldNameChar c = true) :
    isTagText c = true := by
  simp only [isFieldNameChar, Markup.isNamePart, Bool.and_eq_true, bne_iff_ne] at part
  simp [isTagText, part]

/-- An attribute. -/
theorem writes_field {field : TagField} (inside : spot.position = .tag tag)
    (sound : field.isSound = true) :
    Writes spot field.source (field.item spot.number).written
      (spot.past field.source field.setting.count (.tag tag)) := by
  simp only [TagField.isSound, Bool.and_eq_true] at sound
  obtain ⟨⟨⟨⟨-, spaces⟩, -⟩, named⟩, setting⟩ := sound
  have gap : field.gap.all isTagText = true :=
    List.all_eq_true.mpr fun c member =>
      isTagText_of_isSpace (List.all_eq_true.mp spaces c member)
  have name : field.name.all isTagText = true :=
    List.all_eq_true.mpr fun c member =>
      isTagText_of_isFieldNameChar (List.all_eq_true.mp named c member)
  have key := (writes_tagText inside gap).append (writes_tagText rfl name)
  simpa [TagField.source, TagField.item] using key.append (writes_setting rfl setting)

/-- The attributes of a tag. -/
theorem writes_fields {fields : List TagField} (inside : spot.position = .tag tag)
    (sound : fields.all TagField.isSound = true) :
    Writes spot (fields.flatMap TagField.source) ((itemsOf spot.number fields).flatMap Item.written)
      (spot.past (fields.flatMap TagField.source)
        (fields.map fun field => field.setting.count).sum (.tag tag)) := by
  induction fields generalizing spot with
  | nil =>
      have same := spot.past_nil
      rw [inside] at same
      simpa [itemsOf, same] using Writes.nil spot
  | cons field rest induction =>
      rw [List.all_cons, Bool.and_eq_true] at sound
      have others :=
        @induction (spot.past field.source field.setting.count (.tag tag)) rfl sound.2
      simpa [itemsOf] using (writes_field inside sound.1).append others

end Draft

/-! ## Chunks of a source -/

namespace Draft

variable {spot : Spot} {name content : List Char}

/-- A character between tags that starts no tag and no code. -/
def isContentChar (c : Char) : Bool := c != '<' && c != '{'

theorem isContentChar_of_isTextChar {c : Char} (plain : isTextChar c = true) :
    isContentChar c = true := by
  simp only [isTextChar, Bool.and_eq_true, bne_iff_ne] at plain
  simp [isContentChar, plain]

/-- Text between tags. -/
theorem writes_text (between : spot.position = .content)
    (all : content.all isContentChar = true) :
    Writes spot content content (spot.past content 0 .content) := by
  refine Writes.text between (fun draft fresh place c plain rest => ?_) all
  have other : c ≠ '<' ∧ c ≠ '{' := by
    simpa [isContentChar] using plain
  rw [step_content draft fresh place]
  unfold readContent
  rw [if_neg other.2, if_pos other.1]

/-- The start of an opening tag, in front of what ends its name. -/
theorem writes_openTag {tail written : List Char} {after : Spot}
    (between : spot.position = .content) (named : Code.isTagName name = true)
    (script : Text.asciiLowercase (String.ofList name) ≠ "script")
    (style : Text.asciiLowercase (String.ofList name) ≠ "style")
    (parts : Code.Parts Code.isTagNamePart tail)
    (later : Writes (spot.past ('<' :: name) 0 (.tag ⟨String.ofList name, spot.location⟩)) tail
      written after) :
    Writes spot ('<' :: (name ++ tail))
      ('<' :: ((markupTag (String.ofList name)).toList ++
        ((if Markup.isComponentTag (String.ofList name) then [nameItem name] else []) ++
          [locationItem spot.location]).flatMap Item.written) ++ written) after := by
  refine Writes.passed_then (fun draft stands more => ?_) later
  have whole := (parts.append more).takeWhile_append (Code.all_isTagNamePart named)
  let start :=
    if Markup.isComponentTag (String.ofList name) then
      "<" ++ usageTag ++ " " ++ nameAttribute ++ "=\"" ++ String.ofList name ++ "\""
    else "<" ++ String.ofList name
  refine ⟨{ draft.write (start ++ locationMark draft.location).toList with
    position := .tag ⟨String.ofList name, draft.location⟩ }, ?_, stands.location_eq,
    stands.number_eq, ?_, ?_⟩
  · rw [step_content draft stands.fresh (stands.position_eq.trans between)]
    cases name with
    | nil => cases named
    | cons letter rest =>
        rw [Code.isTagName, Bool.and_eq_true] at named
        rw [List.cons_append] at whole ⊢
        rw [readContent_tag named.1 (by rwa [whole]) (by rwa [whole]), whole, openTag,
          String.length_ofList]
        rfl
  · rw [← stands.location_eq]
  · rw [← stands.location_eq]
    simp only [markup, write, List.reverse_append, List.reverse_reverse]
    congr 1
    simp only [start, markupTag]
    split <;> simp [nameItem, locationItem, nameAttribute]

/-- The end of an opening tag. -/
theorem writes_tagEnd {location : Location} (closed : Bool)
    (inside : spot.position = .tag ⟨String.ofList name, location⟩) :
    Writes spot (tagEnd closed) ('>' :: ownClosing name closed)
      (spot.past (tagEnd closed) 0 .content) := by
  cases closed with
  | false =>
      refine Writes.copied fun draft stands rest => ?_
      rw [step_tag draft stands.fresh (stands.position_eq.trans inside), readTag,
        if_neg (by decide), if_neg (by decide), if_neg (by simp), if_pos rfl]
  | true =>
      refine Writes.passed fun draft stands more => ?_
      refine ⟨{ draft.write ('>' :: ownClosing name true) with position := .content }, ?_,
        stands.location_eq, stands.number_eq, rfl, ?_⟩
      · rw [step_tag draft stands.fresh (stands.position_eq.trans inside), readTag,
          if_neg (by decide), if_neg (by decide), if_pos (by simp)]
        have closing : (if !Markup.isComponentTag (String.ofList name) &&
            Markup.isVoidElement (String.ofList name) then ">"
            else "></" ++ markupTag (String.ofList name) ++ ">").toList =
              '>' :: ownClosing name true := by
          rw [ownClosing, needsClosing]
          cases Markup.isComponentTag (String.ofList name) <;>
            cases Markup.isVoidElement (String.ofList name) <;> simp [Markup.closingTag]
        dsimp only
        rw [closing]
        rfl
      · simp [markup, write]

/-- Characters of a part that is copied. -/
theorem runFrom_copied {draft : Draft} (copies : draft.copying = true)
    (passed : draft.skip = content.length) (more : List Char) :
    draft.runFrom (content ++ more) =
      { draft with
        written := content.reverse ++ draft.written, location := draft.location.advance content
        skip := 0 }.runFrom more := by
  induction content generalizing draft with
  | nil =>
      rw [List.length_nil] at passed
      simp [← passed]
  | cons c rest induction =>
      have first : draft.step c (rest ++ more) = .ok (draft.follow c) := by
        rw [step, if_pos (by simp [passed])]
      rw [List.cons_append, runFrom, first]
      have passed' : (draft.follow c).skip = rest.length := by
        simp [follow, passed]
      have copies' : (draft.follow c).copying = true := copies
      have behind := induction copies' passed'
      simpa [follow, copies] using behind

/-- A closing tag. -/
theorem writes_closing (between : spot.position = .content) (named : Code.isTagName name = true) :
    Writes spot (Code.closingTag name) (Markup.closingTag (markupTag (String.ofList name)))
      (spot.past (Code.closingTag name) 0 .content) := by
  have all := Code.all_isTagNamePart named
  let rest := '/' :: (name ++ ['>'])
  have length : (rest.length : Nat) = name.length + 1 + 1 := by
    simp [rest]
  have closes (draft : Draft) (stands : draft.Stands spot) (more : List Char) :
      draft.step '<' (rest ++ more) = .ok
        (if Markup.isComponentTag (String.ofList name) then
          (draft.write ("</" ++ usageTag ++ ">").toList).passOver '<' rest.length
        else draft.copy '<' rest.length) := by
    have shape : rest ++ more = '/' :: (name ++ '>' :: more) := by
      simp [rest]
    have named_eq : ((rest ++ more).drop 1).takeWhile Code.isTagNamePart = name := by
      rw [shape]
      exact Code.Parts.takeWhile_append ⟨'>', more, rfl, rfl⟩ all
    have ends : lengthBefore? (· == '>') (rest ++ more) = some (name.length + 1) := by
      rw [shape, lengthBefore?_closing all]
    have tag : draft.readContent '<' (rest ++ more) = .ok (draft.closeTag (rest ++ more)) := rfl
    rw [step_content draft stands.fresh (stands.position_eq.trans between), tag, closeTag, named_eq,
      ends, length]
    rfl
  rw [markupTag]
  split
  · rename_i usage
    refine Writes.passed fun draft stands more => ?_
    refine ⟨draft.write ("</" ++ usageTag ++ ">").toList, ?_, stands.location_eq, stands.number_eq,
      stands.position_eq.trans between, ?_⟩
    · exact (closes draft stands more).trans (by rw [if_pos usage])
    · simp [markup, write, Markup.closingTag]
  · rename_i ordinary
    intro draft stands more
    let copied := draft.copy '<' rest.length
    refine ⟨{ copied with
      written := rest.reverse ++ copied.written, location := copied.location.advance rest
      skip := 0 }, ⟨stands.position_eq.trans between, ?_, stands.number_eq, rfl⟩, ?_, ?_⟩
    · exact congrArg (fun location => (Location.next location '<').advance rest) stands.location_eq
    · simp [markup, copied, copy, Markup.closingTag, rest]
    · have read := (closes draft stands more).trans (by rw [if_neg ordinary])
      have whole : Code.closingTag name ++ more = '<' :: (rest ++ more) := rfl
      rw [whole, runFrom, read]
      exact runFrom_copied rfl rfl more

/-- What ends the name of an opening tag. -/
theorem parts_fields {fields : List TagField} (sound : fields.all TagField.isSound = true)
    {gap : List Char} (spaces : gap.all Markup.isSpace = true) (closed : Bool) :
    Code.Parts Code.isTagNamePart
      (fields.flatMap TagField.source ++ (gap ++ tagEnd closed)) := by
  have space {c : Char} (space : Markup.isSpace c = true) : Code.isTagNamePart c = false := by
    simp only [Markup.isSpace, Bool.or_eq_true, beq_iff_eq] at space
    rcases space with ((rfl | rfl) | rfl) | rfl <;> rfl
  cases fields with
  | nil =>
      cases gap with
      | nil => cases closed <;> exact ⟨_, _, rfl, rfl⟩
      | cons c rest =>
          rw [List.all_cons, Bool.and_eq_true] at spaces
          exact ⟨c, _, rfl, space spaces.1⟩
  | cons field rest =>
      rw [List.all_cons, Bool.and_eq_true] at sound
      obtain ⟨own, -⟩ := sound
      simp only [TagField.isSound, Bool.and_eq_true] at own
      obtain ⟨⟨⟨⟨nonempty, own⟩, -⟩, -⟩, -⟩ := own
      obtain ⟨lead, name, setting⟩ := field
      cases lead with
      | nil => cases nonempty
      | cons c more =>
          rw [List.all_cons, Bool.and_eq_true] at own
          exact ⟨c, _, rfl, space own.1⟩

/-- A chunk of a source. -/
theorem writes_chunk {chunk : Chunk} (between : spot.position = .content)
    (sound : chunk.isSound = true) :
    Writes spot chunk.source (chunk.markup spot.location spot.number)
      (spot.past chunk.source chunk.count .content) := by
  have text {content : List Char} (plain : content.all isTextChar = true) :
      content.all isContentChar = true :=
    List.all_eq_true.mpr fun c member =>
      isContentChar_of_isTextChar (List.all_eq_true.mp plain c member)
  cases chunk with
  | text content => exact writes_text between (text sound)
  | reference letter name char =>
      rw [Chunk.isSound, Bool.and_eq_true] at sound
      have named := text sound.2
      have source : (Chunk.reference letter name char).source = '&' :: (letter :: name ++ [';']) :=
        rfl
      refine writes_text between ?_
      rw [source, List.all_cons, List.all_append, named]
      rfl
  | braced code => exact writes_contentCode between sound
  | opening name fields gap closed =>
      simp only [Chunk.isSound, Bool.and_eq_true] at sound
      obtain ⟨⟨⟨⟨named, ordinary⟩, sound⟩, -⟩, spaces⟩ := sound
      have apart : ∀ other ∈ Markup.rawNames, Text.asciiLowercase (String.ofList name) ≠ other := by
        rintro other raw same
        simp [same, raw] at ordinary
      let tag : OpenTag := ⟨String.ofList name, spot.location⟩
      have inside : (spot.past ('<' :: name) 0 (.tag tag)).position = .tag tag := rfl
      have header := writes_fields inside sound
      have gap_text : gap.all isTagText = true :=
        List.all_eq_true.mpr fun c member =>
          isTagText_of_isSpace (List.all_eq_true.mp spaces c member)
      have tail := header.append ((writes_tagText rfl gap_text).append (writes_tagEnd closed rfl))
      have whole := writes_openTag between named (apart _ (by decide)) (apart _ (by decide))
        (parts_fields sound spaces closed) tail
      simpa [Chunk.source, Chunk.markup, Chunk.count, headerOf] using whole
  | closing name => exact writes_closing between sound

/-- The chunks of a source. -/
theorem writes_chunks {chunks : List Chunk} (between : spot.position = .content)
    (sound : chunks.all Chunk.isSound = true) :
    Writes spot (sourceOf chunks) (markupOf spot.location spot.number chunks)
      (spot.past (sourceOf chunks) (chunks.map Chunk.count).sum .content) := by
  induction chunks generalizing spot with
  | nil =>
      have same := spot.past_nil
      rw [between] at same
      simpa [sourceOf, markupOf, same] using Writes.nil spot
  | cons chunk rest induction =>
      rw [List.all_cons, Bool.and_eq_true] at sound
      have others := @induction (spot.past chunk.source chunk.count .content) rfl sound.2
      simpa [sourceOf, markupOf] using (writes_chunk between sound.1).append others

/-- Reading the chunks of a source to its end leaves their markup. -/
theorem runFrom_chunks {chunks : List Chunk} (sound : chunks.all Chunk.isSound = true)
    (between : spot.position = .content) {draft : Draft} (stands : draft.Stands spot) :
    ∃ final : Draft, draft.runFrom (sourceOf chunks) = .ok final ∧
      final.markup = draft.markup ++ markupOf spot.location spot.number chunks := by
  obtain ⟨final, ended, markup, read⟩ := writes_chunks between sound draft stands []
  rw [List.append_nil] at read
  refine ⟨final, ?_, markup⟩
  rw [read, runFrom, finish, ended.position_eq]
  rfl

/-- The markup of chunks that a draft reads from nothing. -/
theorem markup_of_chunks {chunks : List Chunk} (sound : chunks.all Chunk.isSound = true)
    (between : spot.position = .content) {draft final : Draft} (stands : draft.Stands spot)
    (bare : draft.markup = []) (ok : draft.runFrom (sourceOf chunks) = .ok final) :
    final.markup = markupOf spot.location spot.number chunks := by
  obtain ⟨final', read, markup⟩ := runFrom_chunks sound between stands
  rw [read] at ok
  cases ok
  rw [markup, bare, List.nil_append]

end Draft

end Template
end ReactiveTemplate
