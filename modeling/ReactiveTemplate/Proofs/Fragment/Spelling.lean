import ReactiveTemplate.Proofs.Fragment.Roundtrip

/-!
# Written tags

A tag inside code is written as a list of attributes, each behind white space: a name alone, a name
with a quoted, a loose or a braced value, or braces that spread values.  Reading the header of a
written tag gives its attributes in order, and the whole tag belongs to the element that starts with
it.
-/

namespace ReactiveTemplate
namespace Fragment

/-! ## Spellings -/

/-- How a value is written. -/
inductive Literal where
  /-- Text in quotes. -/
  | quoted (quote : Char) (text : List Char)
  /-- Text without quotes. -/
  | loose (text : List Char)
  /-- Code in braces. -/
  | braced (code : List Char)
  deriving DecidableEq, Repr

/-- What stands behind the name of an attribute that has a value. -/
structure Assignment where
  /-- White space before the equals sign. -/
  lead : List Char
  /-- White space after it. -/
  gap : List Char
  /-- The value. -/
  value : Literal
  deriving DecidableEq, Repr

/-- One part of a tag, with the white space before it. -/
inductive Spelling where
  /-- An attribute, with what is assigned to it if anything is. -/
  | named (gap name : List Char) (assigned : Option Assignment)
  /-- Code that spreads values. -/
  | spread (gap code : List Char)
  deriving DecidableEq, Repr

/-- The rest of an opening tag behind its name. -/
structure Opening where
  /-- The parts. -/
  parts : List Spelling
  /-- White space before the end. -/
  gap : List Char
  /-- The tag ends with a slash. -/
  selfClosing : Bool
  deriving DecidableEq, Repr

/-- Code with the braces around it. -/
def enclosed (code : List Char) : List Char := '{' :: (code ++ ['}'])

/-- The text of a value. -/
def Literal.text : Literal → List Char
  | quoted quote text => quote :: (text ++ [quote])
  | loose text => text
  | braced code => enclosed code

/-- The text behind the name of an attribute. -/
def Assignment.text (a : Assignment) : List Char := a.lead ++ '=' :: (a.gap ++ a.value.text)

/-- The text of an assignment, if there is one. -/
def assignedText (assigned : Option Assignment) : List Char :=
  (assigned.map Assignment.text).getD []

/-- The text of a part of a tag. -/
def Spelling.text : Spelling → List Char
  | named gap name assigned => gap ++ (name ++ assignedText assigned)
  | spread gap code => gap ++ enclosed code

/-- The end of a tag. -/
def tagEnd (selfClosing : Bool) : List Char := if selfClosing then ['/', '>'] else ['>']

/-- The text of the parts of a tag. -/
def partsText (parts : List Spelling) : List Char := parts.flatMap Spelling.text

/-- The text of the rest of a tag. -/
def Opening.text (opening : Opening) : List Char :=
  partsText opening.parts ++ (opening.gap ++ tagEnd opening.selfClosing)

/-! ## Sound spellings -/

/-- There is white space only. -/
def isGap (text : List Char) : Bool := text.all Code.isAsciiSpace

/-- The text is the name of an attribute. -/
def isName : List Char → Bool
  | first :: rest => startsName first && rest.all continuesName
  | [] => false

/-- The brace behind the code closes the one before it. -/
def isEnclosed (code : List Char) : Bool :=
  Code.closingFrom .afterOpening (code ++ ['}']) == some code.length

/-- A character of a value without quotes. -/
def isLoosePart (c : Char) : Bool := Code.isTagFiller c && !Text.isBlank c

/-- The value ends where its text does. -/
def Literal.isSound : Literal → Bool
  | quoted quote text => (quote == '"' || quote == '\x27') && !text.contains quote
  | loose text => !text.isEmpty && text.all isLoosePart
  | braced code => isEnclosed code

/-- White space around an equals sign, and a value that ends where its text does. -/
def Assignment.isSound (a : Assignment) : Bool := isGap a.lead && isGap a.gap && a.value.isSound

/-- The part is read from its text. -/
def Spelling.isSound : Spelling → Bool
  | named gap name assigned =>
    !gap.isEmpty && isGap gap && isName name && assigned.all Assignment.isSound
  | spread gap code => !gap.isEmpty && isGap gap && isEnclosed code

/-- The rest of the tag is read from its text. -/
def Opening.isSound (opening : Opening) : Bool :=
  opening.parts.all Spelling.isSound && isGap opening.gap

/-! ## What is read -/

/-- The value that is read from a literal. -/
def Literal.Gives : Literal → AttributeValue → Prop
  | quoted _ text, value | loose text, value =>
    value = .fixed (String.ofList (Markup.decodeValue text))
  | braced _, value => ∃ e, value = .dynamic e

/-- The value that is read where nothing or something is assigned. -/
def AssignedGives : Option Assignment → AttributeValue → Prop
  | none, value => value = .fixed ""
  | some a, value => a.value.Gives value

/-- The attributes that are read from the parts of a tag. -/
inductive Gives : List Spelling → List Attribute → Prop where
  /-- There is no part. -/
  | nil : Gives [] []
  /-- An attribute. -/
  | named {gap name : List Char} {assigned : Option Assignment} {value : AttributeValue}
      {site : Site} {parts : List Spelling} {attributes : List Attribute} :
      AssignedGives assigned value → Gives parts attributes →
      Gives (.named gap name assigned :: parts) (⟨attributeName name, value, site⟩ :: attributes)
  /-- Spread values have no names that are known. -/
  | spread {gap code : List Char} {parts : List Spelling} {attributes : List Attribute} :
      Gives parts attributes → Gives (.spread gap code :: parts) attributes

variable {text after gap name code : List Char} {scope : Option Scope} {registry : Registry}
  {location : Location}

/-! ## What follows a part of a tag -/

/-- What may follow a part of a tag: white space and another part, or the end of the tag. -/
def Delimits (after : List Char) : Prop :=
  ∃ gap c rest, after = gap ++ c :: rest ∧ isGap gap = true ∧
    (c = '>' ∨ c = '/' ∧ rest.head? = some '>' ∨ gap ≠ [] ∧ (startsName c = true ∨ c = '{'))

theorem Delimits.append (follows : Delimits after) (more : List Char) :
    Delimits (after ++ more) := by
  obtain ⟨gap, c, rest, rfl, spaces, ends⟩ := follows
  refine ⟨gap, c, rest ++ more, by simp, spaces, ?_⟩
  rcases ends with angle | ⟨slash, head⟩ | part
  · exact .inl angle
  · refine .inr (.inl ⟨slash, ?_⟩)
    cases rest with
    | nil => cases head
    | cons first rest => exact head
  · exact .inr (.inr part)

theorem Delimits.of_tagEnd (spaces : isGap gap = true) (selfClosing : Bool) :
    Delimits (gap ++ tagEnd selfClosing) := by
  cases selfClosing with
  | false => exact ⟨gap, '>', [], rfl, spaces, .inl rfl⟩
  | true => exact ⟨gap, '/', ['>'], rfl, spaces, .inr (.inl ⟨rfl, rfl⟩)⟩

theorem Delimits.of_sound {part : Spelling} (sound : part.isSound = true) (after : List Char) :
    Delimits (part.text ++ after) := by
  cases part with
  | named gap name assigned =>
      simp only [Spelling.isSound, Bool.and_eq_true, Bool.not_eq_true', List.isEmpty_eq_false_iff]
        at sound
      obtain ⟨⟨⟨present, spaces⟩, named⟩, -⟩ := sound
      cases name with
      | nil => cases named
      | cons first rest =>
          rw [isName, Bool.and_eq_true] at named
          exact ⟨gap, first, rest ++ (assignedText assigned ++ after), by simp [Spelling.text],
            spaces, .inr (.inr ⟨present, .inl named.1⟩)⟩
  | spread gap code =>
      simp only [Spelling.isSound, Bool.and_eq_true, Bool.not_eq_true', List.isEmpty_eq_false_iff]
        at sound
      exact ⟨gap, '{', code ++ '}' :: after, by simp [Spelling.text, enclosed], sound.1.2,
        .inr (.inr ⟨sound.1.1, .inr rfl⟩)⟩

theorem Delimits.of_parts {parts : List Spelling} (sound : parts.all Spelling.isSound = true)
    (follows : Delimits after) : Delimits (partsText parts ++ after) := by
  cases parts with
  | nil => exact follows
  | cons part rest =>
      rw [List.all_cons, Bool.and_eq_true] at sound
      rw [partsText, List.flatMap_cons, List.append_assoc]
      exact .of_sound sound.1 _

theorem Opening.follows {opening : Opening} (sound : opening.isSound = true) :
    Delimits opening.text := by
  rw [Opening.isSound, Bool.and_eq_true] at sound
  exact .of_parts sound.1 (.of_tagEnd sound.2 _)

/-- The character after the white space. -/
theorem Delimits.next_ne {c : Char} {rest : List Char}
    (ends : c = '>' ∨ c = '/' ∧ rest.head? = some '>' ∨
      gap ≠ [] ∧ (startsName c = true ∨ c = '{')) :
    Code.isAsciiSpace c = false ∧ c ≠ '=' := by
  have apart : ∀ c, startsName c = true → Code.isAsciiSpace c = false ∧ c ≠ '=' := by
    intro c starts
    refine ⟨?_, ?_⟩
    · by_contra space
      simp only [Code.isAsciiSpace, Bool.not_eq_false, Bool.or_eq_true, beq_iff_eq] at space
      rcases space with (((rfl | rfl) | rfl) | rfl) | rfl <;> cases starts
    · rintro rfl
      cases starts
  rcases ends with rfl | ⟨rfl, -⟩ | ⟨-, starts | rfl⟩
  · decide
  · decide
  · exact apart c starts
  · decide

/-- A name ends before what follows it. -/
theorem Delimits.parts (follows : Delimits after) : Code.Parts continuesName after := by
  obtain ⟨gap, c, rest, rfl, spaces, ends⟩ := follows
  have apart : ∀ c, Code.isAsciiSpace c = true → continuesName c = false := by
    intro c space
    simp only [Code.isAsciiSpace, Bool.or_eq_true, beq_iff_eq] at space
    rcases space with (((rfl | rfl) | rfl) | rfl) | rfl <;> decide
  cases gap with
  | nil =>
      refine ⟨c, rest, rfl, ?_⟩
      rcases ends with rfl | ⟨rfl, -⟩ | ⟨absent, -⟩
      · decide
      · decide
      · exact absurd rfl absent
  | cons space gap =>
      exact ⟨space, gap ++ c :: rest, rfl, apart space (List.all_eq_true.mp spaces _ (by simp))⟩

/-- Nothing is assigned by what follows. -/
theorem Delimits.unassigned (follows : Delimits after) (name : String) (nameLocation : Location) :
    readAssignment scope registry name nameLocation location after =
      .ok ⟨.fixed "", 0, registry⟩ := by
  obtain ⟨gap, c, rest, rfl, spaces, ends⟩ := follows
  obtain ⟨visible, other⟩ := Delimits.next_ne ends
  have lead : (gap ++ c :: rest).takeWhile Code.isAsciiSpace = gap :=
    Code.Parts.takeWhile_append ⟨c, rest, rfl, visible⟩ spaces
  rw [readAssignment, lead, List.drop_left]
  dsimp only
  split
  · rename_i same
    exact absurd (List.cons.inj same).1 other
  · rfl

theorem isBlank_of_isAsciiSpace {c : Char} (space : Code.isAsciiSpace c = true) :
    Text.isBlank c = true := by
  simp only [Code.isAsciiSpace, Bool.or_eq_true, beq_iff_eq] at space
  rcases space with (((rfl | rfl) | rfl) | rfl) | rfl <;> decide

/-- A value without quotes ends before what follows it. -/
theorem Delimits.bareValue (follows : Delimits after) (loose : text.all isLoosePart = true) :
    bareValue (text ++ after) = text := by
  have solid : ∀ c ∈ text, Text.isBlank c = false ∧ c ≠ '>' ∧ c ≠ '/' := by
    intro c member
    have part := List.all_eq_true.mp loose c member
    simp only [isLoosePart, Code.isTagFiller, Bool.and_eq_true, bne_iff_ne, Bool.not_eq_true']
      at part
    exact ⟨part.2, part.1.2, part.1.1.2⟩
  have all : text.all (fun c => !Text.isBlank c && c != '>') = true := by
    rw [List.all_eq_true]
    intro c member
    simp [solid c member]
  have unslashed : text.getLast? ≠ some '/' := fun last =>
    (solid _ (List.mem_of_getLast? last)).2.2 rfl
  obtain ⟨gap, c, rest, rfl, spaces, ends⟩ := follows
  have stops (blank : Text.isBlank c = true ∨ c = '>') (more : List Char) :
      Fragment.bareValue (text ++ c :: more) = text := by
    have value : (text ++ c :: more).takeWhile (fun c => !Text.isBlank c && c != '>') = text :=
      Code.Parts.takeWhile_append ⟨c, more, rfl, by rcases blank with blank | rfl <;> simp [*]⟩ all
    rw [Fragment.bareValue, value, if_neg (fun slash => unslashed slash.1)]
  cases gap with
  | cons space gap =>
      have blank := isBlank_of_isAsciiSpace (List.all_eq_true.mp spaces space (by simp))
      have value : (text ++ space :: (gap ++ c :: rest)).takeWhile
          (fun c => !Text.isBlank c && c != '>') = text :=
        Code.Parts.takeWhile_append ⟨space, _, rfl, by simp [blank]⟩ all
      rw [List.cons_append, Fragment.bareValue, value, if_neg (fun slash => unslashed slash.1)]
  | nil =>
      rcases ends with rfl | ⟨rfl, head⟩ | ⟨absent, -⟩
      · exact stops (.inr rfl) rest
      · cases rest with
        | nil => cases head
        | cons first rest =>
            cases head
            -- the slash is read with the value, and left out because the tag ends behind it
            have slashed : (text ++ ['/']).all (fun c => !Text.isBlank c && c != '>') = true := by
              rw [List.all_append, all]
              decide
            have value : ((text ++ ['/']) ++ '>' :: rest).takeWhile
                (fun c => !Text.isBlank c && c != '>') = text ++ ['/'] :=
              Code.Parts.takeWhile_append ⟨'>', rest, rfl, by simp⟩ slashed
            rw [List.append_assoc, List.singleton_append] at value
            rw [List.nil_append, Fragment.bareValue, value]
            simp
      · exact absurd rfl absent

/-! ## Reading -/

theorem closingFrom_of_isEnclosed (sound : isEnclosed code = true) (more : List Char) :
    Code.closingFrom .afterOpening (code ++ '}' :: more) = some code.length := by
  have closing := Code.closingFrom_append more _ (beq_iff_eq.mp sound)
  rwa [List.append_assoc, List.singleton_append] at closing

/-- Reading a literal gives its value. -/
theorem readValue_literal (scope : Option Scope) (registry : Registry) (location : Location)
    {literal : Literal} (sound : literal.isSound = true) (follows : Delimits after) (name : String)
    (nameLocation : Location) :
    ∃ read, readValue scope registry name nameLocation location (literal.text ++ after) =
        .ok read ∧ literal.Gives read.value ∧ read.length = literal.text.length := by
  cases literal with
  | quoted quote text =>
      simp only [Literal.isSound, Bool.and_eq_true, Bool.or_eq_true, beq_iff_eq,
        Bool.not_eq_true', List.contains_eq_mem, decide_eq_false_iff_not] at sound
      obtain ⟨quotes, unquoted⟩ := sound
      have value : (text ++ quote :: after).takeWhile (· != quote) = text := by
        refine Code.Parts.takeWhile_append ⟨quote, after, rfl, by simp⟩ ?_
        rw [List.all_eq_true]
        exact fun c member => bne_iff_ne.mpr (ne_of_mem_of_not_mem member unquoted)
      have other : quote ≠ '{' := by
        rcases quotes with rfl | rfl <;> decide
      refine ⟨⟨.fixed (String.ofList (Markup.decodeValue text)), text.length + 2, registry⟩, ?_,
        rfl, by simp [Literal.text]⟩
      simp [Literal.text, readValue, quotes, value]
  | loose text =>
      rw [Literal.isSound, Bool.and_eq_true, Bool.not_eq_true', List.isEmpty_eq_false_iff]
        at sound
      obtain ⟨present, loose⟩ := sound
      have value := follows.bareValue loose
      cases text with
      | nil => exact absurd rfl present
      | cons first rest =>
          have part := List.all_eq_true.mp loose first List.mem_cons_self
          simp only [isLoosePart, Code.isTagFiller, Bool.and_eq_true, bne_iff_ne] at part
          obtain ⟨⟨⟨⟨⟨double, single⟩, brace⟩, -⟩, angle⟩, -⟩ := part
          refine ⟨⟨.fixed (String.ofList (Markup.decodeValue (first :: rest))), rest.length + 1,
            registry⟩, ?_, rfl, rfl⟩
          rw [List.cons_append] at value
          rw [Literal.text, List.cons_append, readValue]
          · simp only [double, single, angle, or_self, if_false, value, List.length_cons]
          · exact brace
  | braced code =>
      have closing := closingFrom_of_isEnclosed sound after
      let registered := registerCode scope registry (location.next '{') code
      refine ⟨⟨.dynamic registered.1, code.length + 2, registered.2⟩, ?_, ⟨_, rfl⟩,
        by simp [Literal.text, enclosed]⟩
      simp only [Literal.text, enclosed, List.cons_append, List.append_assoc, List.nil_append,
        readValue, closing, List.take_left, registered]

/-- A literal starts with no white space. -/
theorem Literal.takeWhile_text {literal : Literal} (sound : literal.isSound = true)
    (after : List Char) : (literal.text ++ after).takeWhile Code.isAsciiSpace = [] := by
  cases literal with
  | quoted quote text =>
      simp only [Literal.isSound, Bool.and_eq_true, Bool.or_eq_true, beq_iff_eq] at sound
      rcases sound.1 with rfl | rfl <;> rfl
  | loose text =>
      rw [Literal.isSound, Bool.and_eq_true] at sound
      cases text with
      | nil => exact absurd sound.1 (by decide)
      | cons first rest =>
          have part := List.all_eq_true.mp sound.2 first List.mem_cons_self
          rw [isLoosePart, Bool.and_eq_true, Bool.not_eq_true'] at part
          have visible : ¬Code.isAsciiSpace first = true := fun space => by
            rw [isBlank_of_isAsciiSpace space] at part
            cases part.2
          exact List.takeWhile_cons_of_neg visible
  | braced code => rfl

/-- Reading what follows the name of an attribute gives what is assigned to it. -/
theorem readAssignment_text (scope : Option Scope) (registry : Registry) (location : Location)
    {assigned : Option Assignment}
    (sound : assigned.all Assignment.isSound = true) (follows : Delimits after) (name : String)
    (nameLocation : Location) :
    ∃ read, readAssignment scope registry name nameLocation location
          (assignedText assigned ++ after) = .ok read ∧
        AssignedGives assigned read.value ∧ read.length = (assignedText assigned).length := by
  cases assigned with
  | none => exact ⟨⟨.fixed "", 0, registry⟩, follows.unassigned name nameLocation, rfl, rfl⟩
  | some a =>
      rw [Option.all_some, Assignment.isSound, Bool.and_eq_true, Bool.and_eq_true] at sound
      obtain ⟨⟨lead, gap⟩, value⟩ := sound
      obtain ⟨read, ok, gives, length⟩ := readValue_literal scope registry
        (location.advance (a.lead ++ '=' :: a.gap)) value follows name nameLocation
      have before : (assignedText (some a) ++ after).takeWhile Code.isAsciiSpace = a.lead := by
        have shape : assignedText (some a) ++ after =
            a.lead ++ '=' :: (a.gap ++ (a.value.text ++ after)) := by
          simp [assignedText, Assignment.text]
        rw [shape]
        exact Code.Parts.takeWhile_append ⟨'=', _, rfl, rfl⟩ lead
      have behind : (a.gap ++ (a.value.text ++ after)).takeWhile Code.isAsciiSpace = a.gap := by
        rw [List.takeWhile_append_of_pos (List.all_eq_true.mp gap),
          Literal.takeWhile_text value after, List.append_nil]
      have rest : (assignedText (some a) ++ after).drop a.lead.length =
          '=' :: (a.gap ++ (a.value.text ++ after)) := by
        simp [assignedText, Assignment.text]
      refine ⟨{ read with length := (a.lead ++ '=' :: a.gap).length + read.length }, ?_, gives, ?_⟩
      · rw [readAssignment, before, rest]
        simp only [behind, List.drop_left, ok]
      · simp only [length, assignedText, Assignment.text, Option.map_some, Option.getD_some,
          List.length_append, List.length_cons]
        omega

/-- White space of the header is passed over. -/
theorem readHeader_gap {header : Header} (spaces : isGap gap = true)
    (ok : readHeader scope registry (location.advance gap) 0 text = .ok header) :
    readHeader scope registry location 0 (gap ++ text) =
      .ok { header with length := header.length + gap.length } := by
  induction gap generalizing location with
  | nil => exact ok
  | cons c rest induction =>
      rw [isGap, List.all_cons, Bool.and_eq_true] at spaces
      have other : c ≠ '>' ∧ c ≠ '/' ∧ startsName c = false ∧ c ≠ '{' := by
        have space := spaces.1
        simp only [Code.isAsciiSpace, Bool.or_eq_true, beq_iff_eq] at space
        rcases space with (((rfl | rfl) | rfl) | rfl) | rfl <;> decide
      have passed := induction spaces.2 ok
      rw [List.cons_append, readHeader, if_neg other.1, if_neg (fun slash => other.2.1 slash.1),
        if_neg (by simp [other.2.2.1])]
      simp only [if_neg other.2.2.2, passed, Header.later, List.length_cons]
      rfl

/-- What follows in a header is read as the attributes of the given parts. -/
def ReadsParts (text : List Char) (parts : List Spelling) : Prop :=
  ∀ scope registry location more, ∃ header,
    readHeader scope registry location 0 (text ++ more) = .ok header ∧
      Gives parts header.attributes

theorem readsParts_end (spaces : isGap gap = true) (selfClosing : Bool) :
    ReadsParts (gap ++ tagEnd selfClosing) [] := by
  intro scope registry location more
  rw [List.append_assoc]
  cases selfClosing with
  | false =>
      exact ⟨_, readHeader_gap spaces (by simp [tagEnd, readHeader]; rfl), .nil⟩
  | true =>
      exact ⟨_, readHeader_gap spaces (by simp [tagEnd, readHeader]; rfl), .nil⟩

theorem ReadsParts.named {assigned : Option Assignment} {parts : List Spelling}
    (sound : (Spelling.named gap name assigned).isSound = true) (follows : Delimits text)
    (behind : ReadsParts text parts) :
    ReadsParts ((Spelling.named gap name assigned).text ++ text)
      (.named gap name assigned :: parts) := by
  intro scope registry location more
  simp only [Spelling.isSound, Bool.and_eq_true] at sound
  obtain ⟨⟨⟨-, spaces⟩, named⟩, valued⟩ := sound
  cases name with
  | nil => cases named
  | cons first rest =>
      rw [isName, Bool.and_eq_true] at named
      obtain ⟨starts, continues⟩ := named
      let start := location.advance gap
      obtain ⟨read, assigned_ok, gives, length⟩ := readAssignment_text scope
        registry (start.advance (first :: rest)) valued
        (follows.append more) (attributeName (first :: rest)) start
      -- the value has been read with the name, so that the header goes on behind both
      let passed := rest ++ assignedText assigned
      obtain ⟨header, header_ok, others⟩ := behind scope read.registry
        ((start.next first).advance passed) more
      have skipped := readHeader_skip passed (text ++ more) header_ok
      have size : passed.length = rest.length + read.length := by
        simp [passed, length]
      rw [size, List.append_assoc] at skipped
      have parts : Code.Parts continuesName (assignedText assigned ++ (text ++ more)) := by
        cases assigned with
        | none => exact (follows.append more).parts
        | some a =>
            rw [Option.all_some, Assignment.isSound, Bool.and_eq_true, Bool.and_eq_true] at valued
            have shape : assignedText (some a) ++ (text ++ more) =
                a.lead ++ '=' :: (a.gap ++ (a.value.text ++ (text ++ more))) := by
              simp [assignedText, Assignment.text]
            rw [shape]
            cases lead : a.lead with
            | nil => exact ⟨'=', _, rfl, rfl⟩
            | cons space gap =>
                rw [lead] at valued
                have blank := List.all_eq_true.mp valued.1.1 space List.mem_cons_self
                simp only [Code.isAsciiSpace, Bool.or_eq_true, beq_iff_eq] at blank
                refine ⟨space, _, rfl, ?_⟩
                rcases blank with (((rfl | rfl) | rfl) | rfl) | rfl <;> decide
      have complete := readHeader_gap spaces
        (readHeader_name starts continues parts assigned_ok skipped)
      have shape : (Spelling.named gap (first :: rest) assigned).text ++ text ++ more =
          gap ++ first :: (rest ++ (assignedText assigned ++ (text ++ more))) := by
        simp [Spelling.text]
      rw [shape]
      exact ⟨_, complete, .named gives others⟩

theorem ReadsParts.spread {parts : List Spelling}
    (sound : (Spelling.spread gap code).isSound = true) (behind : ReadsParts text parts) :
    ReadsParts ((Spelling.spread gap code).text ++ text) (.spread gap code :: parts) := by
  intro scope registry location more
  simp only [Spelling.isSound, Bool.and_eq_true] at sound
  obtain ⟨⟨-, spaces⟩, enclosing⟩ := sound
  have closing := closingFrom_of_isEnclosed enclosing (text ++ more)
  let start := location.advance gap
  obtain ⟨header, header_ok, others⟩ := behind scope registry
    ((start.next '{').advance (code ++ ['}'])) more
  have skipped := readHeader_skip (code ++ ['}']) (text ++ more) header_ok
  rw [List.append_assoc, List.singleton_append, List.length_append, List.length_singleton]
    at skipped
  have braces : readHeader scope registry start 0 ('{' :: (code ++ '}' :: (text ++ more))) =
      .ok ({ header with length := header.length + (code.length + 1) } : Header).later := by
    have other : startsName '{' = false := rfl
    simp [readHeader, other, closing, skipped]
  have shape : (Spelling.spread gap code).text ++ text ++ more =
      gap ++ '{' :: (code ++ '}' :: (text ++ more)) := by
    simp [Spelling.text, enclosed]
  rw [shape]
  exact ⟨_, readHeader_gap spaces braces, .spread others⟩

theorem ReadsParts.parts {parts : List Spelling} (sound : parts.all Spelling.isSound = true)
    (follows : Delimits text) (behind : ReadsParts text []) :
    ReadsParts (partsText parts ++ text) parts := by
  induction parts with
  | nil => exact behind
  | cons part rest induction =>
      rw [List.all_cons, Bool.and_eq_true] at sound
      rw [partsText, List.flatMap_cons, List.append_assoc]
      cases part with
      | named gap name assigned =>
          exact .named sound.1 (.of_parts sound.2 follows) (induction sound.2)
      | spread gap code => exact .spread sound.1 (induction sound.2)

/-- Reading the header of a written tag gives the attributes of its parts. -/
theorem readsParts_opening {opening : Opening} (sound : opening.isSound = true) :
    ReadsParts opening.text opening.parts := by
  rw [Opening.isSound, Bool.and_eq_true] at sound
  exact .parts sound.1 (.of_tagEnd sound.2 _) (readsParts_end sound.2 _)

/-! ## The extent of the tag -/

theorem isTagFiller_of_isGap (spaces : isGap gap = true) : gap.all Code.isTagFiller = true := by
  rw [List.all_eq_true]
  intro c member
  have space := List.all_eq_true.mp spaces c member
  simp only [Code.isAsciiSpace, Bool.or_eq_true, beq_iff_eq] at space
  rcases space with (((rfl | rfl) | rfl) | rfl) | rfl <;> decide

theorem isTagFiller_of_isName (named : isName name = true) :
    name.all Code.isTagFiller = true := by
  have apart : ∀ c, startsName c = true ∨ continuesName c = true → Code.isTagFiller c = true := by
    intro c part
    simp only [Code.isTagFiller, Bool.and_eq_true, bne_iff_ne]
    refine ⟨⟨⟨⟨?_, ?_⟩, ?_⟩, ?_⟩, ?_⟩ <;>
    · rintro rfl
      revert part
      decide
  cases name with
  | nil => rfl
  | cons first rest =>
      rw [isName, Bool.and_eq_true] at named
      rw [List.all_cons, apart first (.inl named.1), Bool.true_and, List.all_eq_true]
      exact fun c member => apart c (.inr (List.all_eq_true.mp named.2 c member))

theorem passes_literal {depth : Nat} {void : Bool} {literal : Literal}
    (sound : literal.isSound = true) :
    Code.Passes (Code.insideTag depth void) literal.text (Code.insideTag depth void) := by
  cases literal with
  | quoted quote text =>
      simp only [Literal.isSound, Bool.and_eq_true, Bool.or_eq_true, beq_iff_eq,
        Bool.not_eq_true', List.contains_eq_mem, decide_eq_false_iff_not] at sound
      exact .quotedBy sound.1 sound.2
  | loose text =>
      rw [Literal.isSound, Bool.and_eq_true] at sound
      refine .filler ?_
      rw [Literal.text, List.all_eq_true]
      intro c member
      have part := List.all_eq_true.mp sound.2 c member
      rw [isLoosePart, Bool.and_eq_true] at part
      exact part.1
  | braced code => exact .tagCode (beq_iff_eq.mp sound)

theorem passes_assignedText {depth : Nat} {void : Bool} {assigned : Option Assignment}
    (sound : assigned.all Assignment.isSound = true) :
    Code.Passes (Code.insideTag depth void) (assignedText assigned)
      (Code.insideTag depth void) := by
  cases assigned with
  | none => exact .nil _
  | some a =>
      rw [Option.all_some, Assignment.isSound, Bool.and_eq_true, Bool.and_eq_true] at sound
      obtain ⟨⟨lead, gap⟩, value⟩ := sound
      have before : Code.Passes (Code.insideTag depth void) a.lead (Code.insideTag depth void) :=
        .filler (isTagFiller_of_isGap lead)
      have equals : Code.Passes (Code.insideTag depth void) ['='] (Code.insideTag depth void) :=
        .filler rfl
      have behind : Code.Passes (Code.insideTag depth void) a.gap (Code.insideTag depth void) :=
        .filler (isTagFiller_of_isGap gap)
      exact before.append (equals.append (behind.append (passes_literal value)))

theorem passes_spelling {depth : Nat} {void : Bool} {part : Spelling}
    (sound : part.isSound = true) :
    Code.Passes (Code.insideTag depth void) part.text (Code.insideTag depth void) := by
  cases part with
  | named gap name assigned =>
      simp only [Spelling.isSound, Bool.and_eq_true] at sound
      obtain ⟨⟨⟨-, spaces⟩, named⟩, valued⟩ := sound
      have before : Code.Passes (Code.insideTag depth void) gap (Code.insideTag depth void) :=
        .filler (isTagFiller_of_isGap spaces)
      have title : Code.Passes (Code.insideTag depth void) name (Code.insideTag depth void) :=
        .filler (isTagFiller_of_isName named)
      exact before.append (title.append (passes_assignedText valued))
  | spread gap code =>
      simp only [Spelling.isSound, Bool.and_eq_true] at sound
      have before : Code.Passes (Code.insideTag depth void) gap (Code.insideTag depth void) :=
        .filler (isTagFiller_of_isGap sound.1.2)
      exact before.append (.tagCode (beq_iff_eq.mp sound.2))

theorem passes_partsText {depth : Nat} {void : Bool} {parts : List Spelling}
    (sound : parts.all Spelling.isSound = true) :
    Code.Passes (Code.insideTag depth void) (partsText parts) (Code.insideTag depth void) := by
  induction parts with
  | nil => exact .nil _
  | cons part rest induction =>
      rw [List.all_cons, Bool.and_eq_true] at sound
      exact (passes_spelling sound.1).append (induction sound.2)

theorem passes_opening (depth : Nat) (void : Bool) {opening : Opening}
    (sound : opening.isSound = true) :
    Code.Passes (Code.insideTag depth void) (partsText opening.parts ++ opening.gap)
      (Code.insideTag depth void) := by
  rw [Opening.isSound, Bool.and_eq_true] at sound
  have before : Code.Passes (Code.insideTag depth void) opening.gap (Code.insideTag depth void) :=
    .filler (isTagFiller_of_isGap sound.2)
  exact (passes_partsText sound.1).append before

/-- Markup that starts with a written tag goes on at least to the end of the tag. -/
theorem Opening.length_le (after : List Char) {tag : List Char} {opening : Opening} {stop : Nat}
    (named : Code.isTagName tag = true) (sound : opening.isSound = true)
    (ends : Code.markupEndFrom {} ('<' :: (tag ++ (opening.text ++ after))) = some stop) :
    tag.length + opening.text.length + 1 ≤ stop := by
  have parts : Code.Parts Code.isTagNamePart (opening.text ++ after) := by
    obtain ⟨gap, c, rest, same, spaces, ends⟩ := Opening.follows sound
    rw [same]
    apply Code.Parts.append
    cases gap with
    | nil =>
        refine ⟨c, rest, rfl, ?_⟩
        rcases ends with rfl | ⟨rfl, -⟩ | ⟨absent, -⟩
        · decide
        · decide
        · exact absurd rfl absent
    | cons space gap =>
        have blank := List.all_eq_true.mp spaces space List.mem_cons_self
        simp only [Code.isAsciiSpace, Bool.or_eq_true, beq_iff_eq] at blank
        refine ⟨space, gap ++ c :: rest, rfl, ?_⟩
        rcases blank with (((rfl | rfl) | rfl) | rfl) | rfl <;> decide
  rw [Code.markupEndFrom_enterTag named parts] at ends
  obtain ⟨before, inner, rfl⟩ := Option.map_eq_some_iff.mp ends
  have passes := passes_opening 0
    (Markup.isVoidElement (String.ofList tag)) sound (tagEnd opening.selfClosing ++ after)
  rw [Opening.text, ← List.append_assoc (partsText _), List.append_assoc, passes] at inner
  obtain ⟨last, final, rfl⟩ := Option.map_eq_some_iff.mp inner
  -- the end of the tag has to be read as well
  have closing : (tagEnd opening.selfClosing).length ≤ last := by
    cases closed : opening.selfClosing with
    | false =>
        rw [closed] at final
        have bounds := Code.markupEndFrom_bounds final
        exact Nat.succ_le_of_lt (Nat.lt_of_le_of_lt (Nat.zero_le _) bounds.1)
    | true =>
        rw [closed] at final
        have step (rest : List Char) :
            (Code.insideTag 0 (Markup.isVoidElement (String.ofList tag))).step '/' ('>' :: rest) =
              .done 1 := by
          simp [Code.insideTag, Code.MarkupState.step]
        have done := Code.markupEndFrom_done rfl (step after)
        change Code.markupEndFrom _ ('/' :: '>' :: after) = some last at final
        rw [done] at final
        exact Nat.le_of_eq (Option.some.inj final)
  simp only [Opening.text, List.length_append] at closing ⊢
  omega

end Fragment
end ReactiveTemplate
