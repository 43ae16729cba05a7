import Mathlib.Data.List.DropRight
import Mathlib.Data.List.Infix
import ReactiveTemplate.Component.Definition
import ReactiveTemplate.Proofs.Fragment.Spelling

/-!
# Tags of slots

The slots that a template places inside expressions are declared by a reader of their code: in the
tag of a slot it takes the first name with a quoted value.  In a written tag it finds the name that
the tag gives the slot, if that is quoted and nothing before it looks like a name or like the end of
the tag.
-/

namespace ReactiveTemplate

open Fragment (Spelling Literal Assignment Opening Delimits isGap isName partsText assignedText
  enclosed tagEnd Gives)

namespace Definition

/-! ## Reading along a text -/

/-- Something holds at every character of a text, given the character before it and what follows. -/
def Along (holds : Char → List Char → Prop) : Char → List Char → List Char → Prop
  | _, [], _ => True
  | previous, c :: rest, after => holds previous (c :: (rest ++ after)) ∧ Along holds c rest after

section Along

variable {holds holds' : Char → List Char → Prop} {previous c : Char}
  {text left right after : List Char}

theorem along_append : Along holds previous (left ++ right) after ↔
    Along holds previous left (right ++ after) ∧ Along holds (left.getLastD previous) right after
    := by
  induction left generalizing previous with
  | nil => simp [Along]
  | cons c rest induction =>
      simp only [List.cons_append, Along, induction, List.append_assoc, and_assoc,
        List.getLastD_cons]

theorem Along.cons {c : Char} (here : Along holds previous [c] (text ++ after))
    (behind : Along holds c text after) : Along holds previous (c :: text) after :=
  ⟨here.1, behind⟩

theorem Along.at (along : Along holds previous text after) {before rest : List Char}
    (same : text = before ++ c :: rest) :
    holds (before.getLastD previous) (c :: (rest ++ after)) := by
  rw [same, along_append] at along
  exact along.2.1

theorem Along.of_at (each : ∀ before c rest, text = before ++ c :: rest →
    holds (before.getLastD previous) (c :: (rest ++ after))) : Along holds previous text after := by
  induction text generalizing previous with
  | nil => trivial
  | cons first rest induction =>
      refine ⟨each [] first rest rfl, induction ?_⟩
      intro before c behind same
      have there := each (first :: before) c behind (by rw [same, List.cons_append])
      rwa [List.getLastD_cons] at there

theorem Along.mono (weaker : ∀ previous text, holds previous text → holds' previous text)
    (along : Along holds previous text after) : Along holds' previous text after :=
  .of_at fun _ _ _ same => weaker _ _ (along.at same)

end Along

/-! ## Where a name is found -/

/-- The start of the tag of a slot. -/
def slotStart : List Char := "<slot".toList

/-- The word that gives a slot its name. -/
def nameWord : List Char := "name".toList

/-- The reader of slot names goes on behind the character: it finds no name there, and the tag does
not end. -/
def Silent (previous : Char) (text : List Char) : Prop :=
  text.head? ≠ some '>' ∧ (Text.isWordChar previous = true ∨ nameValue? text = none)

/-- No tag of a slot starts at the character. -/
def Clear (_ : Char) (text : List Char) : Prop := ¬slotStart <+: text

/-- The reader goes on, and no tag of a slot starts. -/
def Idle (previous : Char) (text : List Char) : Prop := Silent previous text ∧ Clear previous text

variable {previous : Char} {text after : List Char}

/-- The reader passes over a text in which there is nothing for it. -/
theorem slotName?_pass (silent : Along Silent previous text after) :
    slotName? previous (text ++ after) =
      (slotName? (text.getLastD previous) after).map fun found =>
        (found.1, found.2 + text.length) := by
  induction text generalizing previous with
  | nil => simp
  | cons c rest induction =>
      obtain ⟨⟨angle, nothing⟩, behind⟩ := silent
      have open_ : c ≠ '>' := fun same => angle (congrArg some same)
      have unnamed : (if Text.isWordChar previous then none else nameValue? (c :: (rest ++ after)))
          = none := by
        split
        · rfl
        · exact nothing.resolve_left ‹_›
      rw [List.cons_append, slotName?, unnamed]
      dsimp only
      rw [if_neg open_, induction behind, Option.map_map, List.getLastD_cons]
      refine congrArg (Option.map · _) ?_
      funext found
      simp only [Function.comp_apply, List.length_cons]
      rw [Nat.add_assoc]

/-! ## What a name is found by -/

theorem dropWhile_isBlank {blanks rest : List Char} {c : Char}
    (blank : blanks.all Text.isBlank = true) (visible : Text.isBlank c = false) :
    (blanks ++ c :: rest).dropWhile Text.isBlank = c :: rest := by
  rw [List.dropWhile_append_of_pos (List.all_eq_true.mp blank),
    List.dropWhile_cons_of_neg (by simp [visible])]

/-- The white space at the start of a text. -/
theorem exists_blankLead (text : List Char) :
    ∃ blanks, blanks.all Text.isBlank = true ∧
      text = blanks ++ text.drop (Text.blankLead text) := by
  have split : text.takeWhile Text.isBlank ++ text.dropWhile Text.isBlank = text :=
    List.takeWhile_append_dropWhile
  have rest : text.drop (Text.blankLead text) = text.dropWhile Text.isBlank := by
    rw [Text.blankLead]
    nth_rewrite 2 [← split]
    exact List.drop_left
  exact ⟨text.takeWhile Text.isBlank, List.all_takeWhile, by rw [rest, split]⟩

/-- A name that is found is the word, an equals sign and a quote, with white space between them. -/
theorem nameValue?_cases (found : nameValue? text ≠ none) :
    ∃ lead gap quote rest, text = nameWord ++ (lead ++ '=' :: (gap ++ quote :: rest)) ∧
      lead.all Text.isBlank = true ∧ gap.all Text.isBlank = true ∧
      (quote = '"' ∨ quote = '\x27') := by
  unfold nameValue? at found
  dsimp only at found
  split at found
  · rename_i word
    obtain ⟨behind, rfl⟩ := List.isPrefixOf_iff_prefix.mp word
    have cut : ("name".toList ++ behind).drop 4 = behind := rfl
    rw [cut] at found
    obtain ⟨lead, lead_blank, lead_eq⟩ := exists_blankLead behind
    split at found
    · rename_i rest equals
      rw [equals] at lead_eq
      obtain ⟨gap, gap_blank, gap_eq⟩ := exists_blankLead rest
      split at found
      · rename_i quote written opening
        rw [opening] at gap_eq
        split at found
        · rename_i closed
          simp only [Bool.and_eq_true, Bool.or_eq_true, beq_iff_eq] at closed
          exact ⟨lead, gap, quote, written, by rw [← gap_eq, ← lead_eq]; rfl, lead_blank,
            gap_blank, closed.1.1⟩
        · exact absurd rfl found
      · exact absurd rfl found
    · exact absurd rfl found
  · exact absurd rfl found

/-- A name that is written in quotes is found. -/
theorem nameValue?_written {lead gap value : List Char} {quote : Char}
    (lead_blank : lead.all Text.isBlank = true) (gap_blank : gap.all Text.isBlank = true)
    (quotes : quote = '"' ∨ quote = '\x27') (present : value ≠ [])
    (unquoted : ∀ c ∈ value, c ≠ '"' ∧ c ≠ '\x27') (after : List Char) :
    nameValue? (nameWord ++ (lead ++ '=' :: (gap ++ quote :: (value ++ quote :: after)))) =
      some (value, 4 + lead.length + 1 + gap.length + 1 + value.length + 1) := by
  have solid : Text.isBlank quote = false := by
    rcases quotes with rfl | rfl <;> decide
  have before : Text.blankLead (lead ++ '=' :: (gap ++ quote :: (value ++ quote :: after))) =
      lead.length :=
    congrArg List.length (Code.Parts.takeWhile_append ⟨'=', _, rfl, by decide⟩ lead_blank)
  have behind : Text.blankLead (gap ++ quote :: (value ++ quote :: after)) = gap.length :=
    congrArg List.length (Code.Parts.takeWhile_append ⟨quote, _, rfl, solid⟩ gap_blank)
  have closing : (value ++ quote :: after).takeWhile (fun c => !(c == '"' || c == '\x27')) =
      value := by
    refine Code.Parts.takeWhile_append ⟨quote, after, rfl, ?_⟩ ?_
    · rcases quotes with rfl | rfl <;> rfl
    · rw [List.all_eq_true]
      intro c member
      simp [unquoted c member]
  have word : Text.startsWith
      (nameWord ++ (lead ++ '=' :: (gap ++ quote :: (value ++ quote :: after)))) "name" = true :=
    List.isPrefixOf_iff_prefix.mpr (List.prefix_append _ _)
  have cut : (nameWord ++ (lead ++ '=' :: (gap ++ quote :: (value ++ quote :: after)))).drop 4 =
      lead ++ '=' :: (gap ++ quote :: (value ++ quote :: after)) := rfl
  unfold nameValue?
  dsimp only
  rw [if_pos word, cut, before, List.drop_left]
  simp only [behind, List.drop_left, closing]
  rw [if_pos]
  rcases quotes with rfl | rfl <;> simp [present]

/-! ## Parts of a tag without a name -/

/-- A character of an attribute name. -/
def isKeyPart (c : Char) : Bool := Fragment.startsName c || Fragment.continuesName c

/-- The word and an equals sign stand at the start. -/
def givesName (text : List Char) : Bool :=
  nameWord.isPrefixOf text && ((text.drop 4).dropWhile Text.isBlank).head? == some '='

/-- A value in which there is no end of a tag, no tag of a slot and nothing that gives a name. -/
def isQuiet (value : List Char) : Bool :=
  value.all (· != '>') &&
    value.tails.all fun tail => !slotStart.isPrefixOf tail && !givesName tail

/-- The part of a tag gives the slot no fixed name and shows the reader none. -/
def isQuietPart : Spelling → Bool
  | .named _ name none => name != nameWord
  | .named _ name (some ⟨_, _, .quoted _ value⟩) =>
    name.rtakeWhile Text.isWordChar != nameWord && isQuiet value
  | .named _ name (some ⟨_, _, .loose value⟩) => name != nameWord && isQuiet value
  | .named _ _ (some ⟨_, _, .braced code⟩) | .spread _ code => isQuiet code

/-- A value that both readers take for the same name. -/
def isPlainName (value : List Char) : Bool :=
  !value.isEmpty && value.all (fun c => c != '"' && c != '\x27') &&
    value.tails.all (fun tail => !slotStart.isPrefixOf tail) && Markup.decodeValue value == value

/-- The name that a part of a tag gives plainly. -/
def plainName? : Spelling → Option (List Char)
  | .named _ name (some ⟨_, _, .quoted _ value⟩) =>
    if name = nameWord ∧ isPlainName value = true then some value else none
  | _ => none

/-- There is nothing for the reader up to a plain name, or nothing at all. -/
def isPlainTag : List Spelling → Bool
  | [] => true
  | part :: rest => (plainName? part).isSome || isQuietPart part && isPlainTag rest

/-- The first plain name. -/
def firstName? (parts : List Spelling) : Option (List Char) := parts.findSome? plainName?

/-- A prefix that does not have the character behind a text ends in the text. -/
theorem prefix_of_append {word text rest : List Char} {c : Char} (stop : c ∉ word)
    (prefix_ : word <+: text ++ c :: rest) : word <+: text := by
  rcases List.prefix_or_prefix_of_prefix prefix_ (List.prefix_append text (c :: rest)) with
    inside | ⟨more, rfl⟩
  · exact inside
  · rw [List.prefix_append_right_inj] at prefix_
    cases more with
    | nil => simp
    | cons first more =>
        obtain ⟨tail, same⟩ := prefix_
        obtain ⟨rfl, -⟩ := List.cons.inj same
        exact absurd (by simp) stop

theorem isBlank_of_isKeyPart {c : Char} (part : isKeyPart c = true) : Text.isBlank c = false := by
  have range : 33 ≤ c.toNat ∧ c.toNat < 0x80 := by
    have word (word : c.isAlphanum = true) : 33 ≤ c.toNat ∧ c.toNat < 0x80 := by
      have range := Code.toNat_of_isAlphanum word
      omega
    simp only [isKeyPart, Fragment.startsName, Fragment.continuesName, Bool.or_eq_true, beq_iff_eq]
      at part
    rcases part with (((part | rfl) | rfl) | rfl) | (((part | rfl) | rfl) | rfl) | rfl
    · exact word (by simp [Char.isAlphanum, part])
    · decide
    · decide
    · decide
    · exact word part
    all_goals decide
  have space : c ≠ ' ' := by
    rintro rfl
    exact absurd range.1 (by decide)
  rw [Text.isBlank, if_pos range.2]
  simp only [Bool.or_eq_false_iff, beq_eq_false_iff_ne, Bool.and_eq_false_iff,
    decide_eq_false_iff_not]
  exact ⟨space, by omega⟩

/-- Letters, digits and the underscore are word characters. -/
theorem isWordChar_of_ascii {c : Char} (word : (c.isAlphanum || c == '_') = true) :
    Text.isWordChar c = true := by
  have near : c.toNat < 0x80 := by
    have parts := word
    rw [Bool.or_eq_true, beq_iff_eq] at parts
    rcases parts with part | rfl
    · have range := Code.toNat_of_isAlphanum part
      omega
    · decide
  rwa [Text.isWordChar, if_pos near]

/-- What stops a value: neither of the words goes on behind it, and nothing is assigned. -/
structure Halts (after : List Char) : Prop where
  /-- The first character is in neither word. -/
  stops : ∃ c rest, after = c :: rest ∧ c ∉ slotStart ∧ c ∉ nameWord
  /-- There is no equals sign. -/
  unassigned : (after.dropWhile Text.isBlank).head? ≠ some '='

theorem Halts.of_char {c : Char} (stops : c ∉ slotStart ∧ c ∉ nameWord)
    (visible : Text.isBlank c = false) (other : c ≠ '=') (rest : List Char) :
    Halts (c :: rest) := by
  refine ⟨⟨c, rest, rfl, stops⟩, ?_⟩
  rw [List.dropWhile_cons_of_neg (by simp [visible])]
  exact fun same => other (Option.some.inj same)

theorem Halts.of_follows (follows : Delimits after) : Halts after := by
  obtain ⟨gap, c, rest, rfl, spaces, ends⟩ := follows
  have blank : gap.all Text.isBlank = true := by
    rw [List.all_eq_true]
    exact fun c member => Fragment.isBlank_of_isAsciiSpace (List.all_eq_true.mp spaces c member)
  have visible : Text.isBlank c = false := by
    rcases ends with rfl | ⟨rfl, -⟩ | ⟨-, starts | rfl⟩
    · decide
    · decide
    · exact isBlank_of_isKeyPart (by simp [isKeyPart, starts])
    · decide
  refine ⟨?_, ?_⟩
  · cases gap with
    | nil =>
        rcases ends with rfl | ⟨rfl, -⟩ | ⟨absent, -⟩
        · exact ⟨'>', rest, rfl, by decide⟩
        · exact ⟨'/', rest, rfl, by decide⟩
        · exact absurd rfl absent
    | cons space gap =>
        have space_ := List.all_eq_true.mp spaces space List.mem_cons_self
        simp only [Code.isAsciiSpace, Bool.or_eq_true, beq_iff_eq] at space_
        refine ⟨space, gap ++ c :: rest, rfl, ?_⟩
        rcases space_ with (((rfl | rfl) | rfl) | rfl) | rfl <;> decide
  · rw [dropWhile_isBlank blank visible]
    exact fun same => (Fragment.Delimits.next_ne ends).2 (Option.some.inj same)

/-- What follows a name is no part of the word. -/
theorem any_isWordChar_of_follows (follows : Delimits after) :
    after.head?.any Text.isWordChar = false := by
  obtain ⟨gap, c, rest, rfl, spaces, ends⟩ := follows
  cases gap with
  | nil =>
      rcases ends with rfl | ⟨rfl, -⟩ | ⟨absent, -⟩
      · exact rfl
      · exact rfl
      · exact absurd rfl absent
  | cons space gap =>
      have own := List.all_eq_true.mp spaces space List.mem_cons_self
      simp only [Code.isAsciiSpace, Bool.or_eq_true, beq_iff_eq] at own
      rcases own with (((rfl | rfl) | rfl) | rfl) | rfl <;> exact rfl

/-- A text in front of something else gives a name only if it does so alone. -/
theorem givesName_of_nameValue? (halts : Halts after) (found : nameValue? (text ++ after) ≠ none) :
    givesName text = true := by
  obtain ⟨⟨c, more, rfl, -, stop⟩, unassigned⟩ := halts
  obtain ⟨lead, gap, quote, rest, same, lead_blank, -, -⟩ := nameValue?_cases found
  have word : nameWord <+: text := prefix_of_append stop ⟨_, same.symm⟩
  obtain ⟨behind, rfl⟩ := word
  rw [List.append_assoc, List.append_cancel_left_eq] at same
  have cut : (nameWord ++ behind).drop 4 = behind := rfl
  rw [givesName, cut, List.isPrefixOf_iff_prefix.mpr (List.prefix_append _ _), Bool.true_and,
    beq_iff_eq]
  have assigned : ((behind ++ c :: more).dropWhile Text.isBlank).head? = some '=' := by
    rw [same, dropWhile_isBlank lead_blank (by decide)]
    rfl
  rw [List.dropWhile_append] at assigned
  split at assigned
  · exact absurd assigned unassigned
  · rename_i visible
    rwa [List.head?_append_of_ne_nil _ (by simpa using visible)] at assigned

/-- The reader passes over a quiet value. -/
theorem along_idle_of_isQuiet (quiet : isQuiet text = true) (halts : Halts after) :
    Along Idle previous text after := by
  apply Along.of_at
  rintro before c rest rfl
  simp only [isQuiet, Bool.and_eq_true, List.all_eq_true, bne_iff_ne, Bool.not_eq_true'] at quiet
  obtain ⟨open_, tails⟩ := quiet
  obtain ⟨clear, silent⟩ := tails (c :: rest) ((List.mem_tails _ _).mpr (List.suffix_append _ _))
  refine ⟨⟨?_, .inr ?_⟩, ?_⟩
  · exact fun same => open_ c (by simp) (Option.some.inj same)
  · by_contra found
    rw [← List.cons_append] at found
    rw [givesName_of_nameValue? halts found] at silent
    cases silent
  · intro starts
    obtain ⟨⟨stop, more, rfl, other, -⟩, -⟩ := halts
    rw [← List.cons_append] at starts
    rw [List.isPrefixOf_iff_prefix.mpr (prefix_of_append other starts)] at clear
    cases clear

theorem nameValue?_eq_none {c : Char} (other : c ≠ 'n') (rest : List Char) :
    nameValue? (c :: rest) = none := by
  by_contra found
  obtain ⟨lead, gap, quote, more, same, -⟩ := nameValue?_cases found
  exact other (List.cons.inj same).1

theorem clear_of_ne {c : Char} (other : c ≠ '<') (rest : List Char) :
    Clear previous (c :: rest) := by
  rintro ⟨more, same⟩
  exact other (List.cons.inj same).1.symm

/-- The reader passes over characters that have no meaning for it. -/
theorem along_idle_of_ne (other : ∀ c ∈ text, c ≠ '>' ∧ c ≠ 'n' ∧ c ≠ '<') :
    Along Idle previous text after := by
  apply Along.of_at
  rintro before c rest rfl
  obtain ⟨open_, letter, angle⟩ := other c (by simp)
  exact ⟨⟨fun same => open_ (Option.some.inj same), .inr (nameValue?_eq_none letter _)⟩,
    clear_of_ne angle _⟩

theorem along_idle_of_isGap (spaces : isGap text = true) : Along Idle previous text after := by
  apply along_idle_of_ne
  intro c member
  have space := List.all_eq_true.mp spaces c member
  simp only [Code.isAsciiSpace, Bool.or_eq_true, beq_iff_eq] at space
  rcases space with (((rfl | rfl) | rfl) | rfl) | rfl <;> decide

/-! ## Parts of a tag -/

/-- A name that is found at a name, behind which no name goes on, is found at the whole word. -/
theorem eq_nameWord_of_nameValue? (keyed : text.all isKeyPart = true)
    (parts : Code.Parts isKeyPart after) (found : nameValue? (text ++ after) ≠ none) :
    text = nameWord := by
  obtain ⟨lead, gap, quote, rest, same, lead_blank, -⟩ := nameValue?_cases found
  have stops : Code.Parts isKeyPart (lead ++ '=' :: (gap ++ quote :: rest)) := by
    cases lead with
    | nil => exact ⟨'=', _, rfl, by decide⟩
    | cons blank lead =>
        refine ⟨blank, _, rfl, ?_⟩
        by_contra part
        rw [Bool.not_eq_false] at part
        have own := List.all_eq_true.mp lead_blank blank List.mem_cons_self
        rw [isBlank_of_isKeyPart part] at own
        cases own
  calc text = (text ++ after).takeWhile isKeyPart := (parts.takeWhile_append keyed).symm
    _ = nameWord := by rw [same, stops.takeWhile_append (by decide)]

/-- The last word of a name that ends in the word. -/
theorem rtakeWhile_nameWord (previous : Char) (before : List Char)
    (apart : Text.isWordChar (before.getLastD previous) = false ∨ before = []) :
    (before ++ nameWord).rtakeWhile Text.isWordChar = nameWord := by
  have letters : nameWord.all Text.isWordChar = true := by decide
  rw [List.rtakeWhile, List.reverse_append, List.takeWhile_append_of_pos (by
    rw [← List.all_eq_true, List.all_reverse]
    exact letters)]
  have stop : before.reverse.takeWhile Text.isWordChar = [] := by
    rcases List.eq_nil_or_concat before with rfl | ⟨front, last, rfl⟩
    · rfl
    · rcases apart with apart | absent
      · simp only [List.concat_eq_append, List.getLastD_concat] at apart
        simp [apart]
      · simp at absent
  rw [stop, List.append_nil, List.reverse_reverse]

/-- The reader passes over a name that gives no quoted value or does not end in the word. -/
theorem along_idle_of_keyed (keyed : text.all isKeyPart = true)
    (parts : Code.Parts isKeyPart after)
    (unnamed : nameValue? (nameWord ++ after) = none ∨
      text.rtakeWhile Text.isWordChar ≠ nameWord) : Along Idle previous text after := by
  apply Along.of_at
  rintro before c rest rfl
  have tail : (c :: rest).all isKeyPart = true := by
    rw [List.all_append, Bool.and_eq_true] at keyed
    exact keyed.2
  have part := List.all_eq_true.mp tail c List.mem_cons_self
  have angle : c ≠ '>' ∧ c ≠ '<' := by
    refine ⟨?_, ?_⟩ <;>
    · rintro rfl
      cases part
  refine ⟨⟨fun same => angle.1 (Option.some.inj same), ?_⟩, clear_of_ne angle.2 _⟩
  by_contra nothing
  rw [not_or, Bool.not_eq_true] at nothing
  obtain ⟨apart, found⟩ := nothing
  rw [← List.cons_append] at found
  have word := eq_nameWord_of_nameValue? tail parts found
  rw [word] at found unnamed
  exact unnamed.elim found fun other => other (rtakeWhile_nameWord _ _ (.inl apart))

/-- Nothing in quotes is assigned. -/
theorem nameValue?_unquoted (assigned : Option Assignment)
    (sound : assigned.all Assignment.isSound = true) (follows : Delimits after)
    (unquoted : ∀ a, assigned = some a → ∀ quote value, a.value ≠ .quoted quote value) :
    nameValue? (nameWord ++ (assignedText assigned ++ after)) = none := by
  by_contra found
  obtain ⟨lead, gap, quote, rest, same, lead_blank, gap_blank, quotes⟩ := nameValue?_cases found
  rw [List.append_cancel_left_eq] at same
  have solid : Text.isBlank quote = false := by
    rcases quotes with rfl | rfl <;> decide
  have assigned_eq := congrArg (List.dropWhile Text.isBlank) same
  rw [dropWhile_isBlank lead_blank (by decide)] at assigned_eq
  cases assigned with
  | none =>
      refine (Halts.of_follows follows).unassigned ?_
      change (after.dropWhile Text.isBlank) = _ at assigned_eq
      rw [assigned_eq]
      rfl
  | some a =>
      rw [Option.all_some, Assignment.isSound, Bool.and_eq_true, Bool.and_eq_true] at sound
      obtain ⟨⟨before, behind⟩, valued⟩ := sound
      have blank {text : List Char} (spaces : isGap text = true) :
          text.all Text.isBlank = true := by
        rw [List.all_eq_true]
        exact fun c member =>
          Fragment.isBlank_of_isAsciiSpace (List.all_eq_true.mp spaces c member)
      have shape : assignedText (some a) ++ after =
          a.lead ++ '=' :: (a.gap ++ (a.value.text ++ after)) := by
        simp [assignedText, Assignment.text]
      rw [shape, dropWhile_isBlank (blank before) (by decide)] at assigned_eq
      have value_eq := congrArg (List.dropWhile Text.isBlank) (List.cons.inj assigned_eq).2
      rw [dropWhile_isBlank gap_blank solid,
        List.dropWhile_append_of_pos (List.all_eq_true.mp (blank behind))] at value_eq
      cases value : a.value with
      | quoted mark text => exact unquoted a rfl mark text value
      | loose text =>
          rw [value, Literal.isSound, Bool.and_eq_true] at valued
          rw [value, Literal.text] at value_eq
          cases text with
          | nil => exact absurd valued.1 (by decide)
          | cons first text =>
              have part := List.all_eq_true.mp valued.2 first List.mem_cons_self
              simp only [Fragment.isLoosePart, Code.isTagFiller, Bool.and_eq_true, bne_iff_ne,
                Bool.not_eq_true'] at part
              rw [List.cons_append, List.dropWhile_cons_of_neg (by simp [part.2])] at value_eq
              obtain ⟨rfl, -⟩ := List.cons.inj value_eq
              exact quotes.elim part.1.1.1.1.1 part.1.1.1.1.2
      | braced code =>
          rw [value, Literal.text, enclosed, List.cons_append,
            List.dropWhile_cons_of_neg (by decide)] at value_eq
          obtain ⟨rfl, -⟩ := List.cons.inj value_eq
          rcases quotes with same | same <;> cases same

theorem isKeyPart_of_isName {name : List Char} (named : isName name = true) :
    name.all isKeyPart = true := by
  cases name with
  | nil => rfl
  | cons first rest =>
      rw [isName, Bool.and_eq_true] at named
      rw [List.all_cons, isKeyPart, named.1, Bool.true_or, Bool.true_and, List.all_eq_true]
      intro c member
      rw [isKeyPart, List.all_eq_true.mp named.2 c member, Bool.or_true]

theorem parts_assignedText (assigned : Option Assignment)
    (sound : assigned.all Assignment.isSound = true) (follows : Delimits after) :
    Code.Parts isKeyPart (assignedText assigned ++ after) := by
  have apart {c : Char} (blank : Text.isBlank c = true) : isKeyPart c = false := by
    by_contra part
    rw [Bool.not_eq_false] at part
    rw [isBlank_of_isKeyPart part] at blank
    cases blank
  cases assigned with
  | none =>
      obtain ⟨gap, c, rest, rfl, spaces, ends⟩ := follows
      cases gap with
      | nil =>
          refine ⟨c, rest, rfl, ?_⟩
          rcases ends with rfl | ⟨rfl, -⟩ | ⟨absent, -⟩
          · decide
          · decide
          · exact absurd rfl absent
      | cons space gap =>
          exact ⟨space, gap ++ c :: rest, rfl, apart (Fragment.isBlank_of_isAsciiSpace
            (List.all_eq_true.mp spaces space List.mem_cons_self))⟩
  | some a =>
      rw [Option.all_some, Assignment.isSound, Bool.and_eq_true, Bool.and_eq_true] at sound
      have shape : assignedText (some a) ++ after =
          a.lead ++ '=' :: (a.gap ++ (a.value.text ++ after)) := by
        simp [assignedText, Assignment.text]
      rw [shape]
      cases lead : a.lead with
      | nil => exact ⟨'=', _, rfl, by decide⟩
      | cons space gap =>
          rw [lead] at sound
          exact ⟨space, _, rfl, apart (Fragment.isBlank_of_isAsciiSpace
            (List.all_eq_true.mp sound.1.1 space List.mem_cons_self))⟩

/-- The reader passes over a quiet value with its quotes or braces. -/
theorem along_idle_of_literal (literal : Literal) {value : List Char}
    (sound : literal.isSound = true) (follows : Delimits after) (quiet : isQuiet value = true)
    (same : (∃ quote, literal = .quoted quote value) ∨ literal = .loose value ∨
      literal = .braced value) : Along Idle previous literal.text after := by
  rcases same with ⟨quote, rfl⟩ | rfl | rfl
  · simp only [Literal.isSound, Bool.and_eq_true, Bool.or_eq_true, beq_iff_eq] at sound
    have mark (previous : Char) (after : List Char) : Along Idle previous [quote] after := by
      apply along_idle_of_ne
      intro c member
      obtain rfl := List.mem_singleton.mp member
      rcases sound.1 with rfl | rfl <;> decide
    have halts : Halts ([quote] ++ after) := by
      rcases sound.1 with rfl | rfl <;>
      exact .of_char (by decide) (by decide) (by decide) after
    exact (mark _ _).cons (along_append.mpr ⟨along_idle_of_isQuiet quiet halts, mark _ _⟩)
  · exact along_idle_of_isQuiet quiet (.of_follows follows)
  · have opening : Along Idle previous ['{'] (value ++ ['}'] ++ after) :=
      along_idle_of_ne (by simp)
    have halts : Halts (['}'] ++ after) := .of_char (by decide) (by decide) (by decide) after
    have closing : Along Idle (value.getLastD '{') ['}'] after := along_idle_of_ne (by simp)
    exact opening.cons (along_append.mpr ⟨along_idle_of_isQuiet quiet halts, closing⟩)

/-- The reader passes over white space, an equals sign and a quiet value. -/
theorem along_idle_of_assignment {a : Assignment} {value : List Char} (sound : a.isSound = true)
    (follows : Delimits after) (quiet : isQuiet value = true)
    (same : (∃ quote, a.value = .quoted quote value) ∨ a.value = .loose value ∨
      a.value = .braced value) : Along Idle previous (assignedText (some a)) after := by
  rw [Assignment.isSound, Bool.and_eq_true, Bool.and_eq_true] at sound
  obtain ⟨⟨lead, gap⟩, valued⟩ := sound
  refine along_append.mpr ⟨along_idle_of_isGap lead, ?_⟩
  refine Along.cons (along_idle_of_ne (by simp)) ?_
  exact along_append.mpr
    ⟨along_idle_of_isGap gap, along_idle_of_literal _ valued follows quiet same⟩

/-- The reader passes over a quiet part of a tag. -/
theorem along_idle_of_isQuietPart {part : Spelling} (sound : part.isSound = true)
    (quiet : isQuietPart part = true) (follows : Delimits after) :
    Along Idle previous part.text after := by
  cases part with
  | spread gap code =>
      simp only [Spelling.isSound, Bool.and_eq_true] at sound
      exact along_append.mpr ⟨along_idle_of_isGap sound.1.2,
        along_idle_of_literal (.braced code) sound.2 follows quiet (.inr (.inr rfl))⟩
  | named gap name assigned =>
      simp only [Spelling.isSound, Bool.and_eq_true] at sound
      obtain ⟨⟨⟨-, spaces⟩, named⟩, valued⟩ := sound
      have keyed := isKeyPart_of_isName named
      have parts := parts_assignedText _ valued follows
      refine along_append.mpr ⟨along_idle_of_isGap spaces, along_append.mpr ?_⟩
      rcases assigned with _ | ⟨lead, space, ⟨quote, value⟩ | value | code⟩
      · have unnamed := nameValue?_unquoted _ valued follows (by simp)
        exact ⟨along_idle_of_keyed keyed parts (.inl unnamed), trivial⟩
      · rw [isQuietPart, Bool.and_eq_true, bne_iff_ne] at quiet
        exact ⟨along_idle_of_keyed keyed parts (.inr quiet.1),
          along_idle_of_assignment valued follows quiet.2 (.inl ⟨quote, rfl⟩)⟩
      · have unnamed := nameValue?_unquoted _ valued follows (by simp)
        rw [isQuietPart, Bool.and_eq_true] at quiet
        exact ⟨along_idle_of_keyed keyed parts (.inl unnamed),
          along_idle_of_assignment valued follows quiet.2 (.inr (.inl rfl))⟩
      · have unnamed := nameValue?_unquoted _ valued follows (by simp)
        exact ⟨along_idle_of_keyed keyed parts (.inl unnamed),
          along_idle_of_assignment valued follows quiet (.inr (.inr rfl))⟩

/-- The reader finds a plain name at the end of the part that gives it. -/
theorem slotName?_plainName (previous : Char) {part : Spelling} {value : List Char}
    (sound : part.isSound = true)
    (plain : plainName? part = some value) (after : List Char) :
    slotName? previous (part.text ++ after) = some (value, part.text.length) ∧
      Along Clear previous part.text after := by
  unfold plainName? at plain
  split at plain
  · rename_i gap name lead space quote text
    split at plain
    · rename_i named
      obtain rfl := Option.some.inj plain
      obtain ⟨rfl, plain⟩ := named
      simp only [isPlainName, Bool.and_eq_true, Bool.not_eq_true', List.isEmpty_eq_false_iff,
        List.all_eq_true, bne_iff_ne] at plain
      obtain ⟨⟨⟨present, unquoted⟩, clear⟩, -⟩ := plain
      simp only [Spelling.isSound, Option.all_some, Assignment.isSound, Literal.isSound,
        Bool.and_eq_true, Bool.or_eq_true, beq_iff_eq, Bool.not_eq_true',
        List.isEmpty_eq_false_iff] at sound
      obtain ⟨⟨⟨nonempty, spaces⟩, -⟩, ⟨before, behind⟩, quotes, -⟩ := sound
      have blank {text : List Char} (spaces : isGap text = true) :
          text.all Text.isBlank = true := by
        rw [List.all_eq_true]
        exact fun c member =>
          Fragment.isBlank_of_isAsciiSpace (List.all_eq_true.mp spaces c member)
      let assigned : List Char := lead ++ '=' :: (space ++ quote :: (text ++ [quote]))
      have shape : (Spelling.named gap nameWord (some ⟨lead, space, .quoted quote text⟩)).text =
          gap ++ (nameWord ++ assigned) := rfl
      have tail : nameWord ++ assigned ++ after =
          nameWord ++ (lead ++ '=' :: (space ++ quote :: (text ++ quote :: after))) := by
        simp [assigned]
      have found := nameValue?_written (blank before) (blank behind) quotes present unquoted after
      rw [← tail] at found
      rw [shape]
      refine ⟨?_, ?_⟩
      · have quiet : Along Idle previous gap (nameWord ++ assigned ++ after) :=
          along_idle_of_isGap spaces
        have word : Text.isWordChar (gap.getLastD previous) = false := by
          rw [List.getLastD_eq_getLast?, List.getLast?_eq_some_getLast nonempty, Option.getD_some]
          have last := List.all_eq_true.mp spaces _ (List.getLast_mem nonempty)
          simp only [Code.isAsciiSpace, Bool.or_eq_true, beq_iff_eq] at last
          rcases last with (((last | last) | last) | last) | last <;> rw [last] <;> decide
        have here : slotName? (gap.getLastD previous) (nameWord ++ assigned ++ after) =
            some (text, 4 + lead.length + 1 + space.length + 1 + text.length + 1) := by
          change slotName? _ ('n' :: (['a', 'm', 'e'] ++ assigned ++ after)) = _
          have there : nameValue? ('n' :: (['a', 'm', 'e'] ++ assigned ++ after)) = _ := found
          rw [slotName?, word, there]
          rfl
        rw [List.append_assoc, slotName?_pass (quiet.mono fun _ _ idle => idle.1), here,
          Option.map_some]
        refine congrArg some (Prod.ext rfl ?_)
        simp only [assigned, nameWord, List.length_append, List.length_cons, List.length_nil,
          String.reduceToList]
        omega
      · have clear_ne {text after : List Char} {previous : Char} (other : ∀ c ∈ text, c ≠ '<') :
            Along Clear previous text after := by
          apply Along.of_at
          rintro before c rest rfl
          exact clear_of_ne (other c (by simp)) _
        have space_ne {text : List Char} (spaces : isGap text = true) : ∀ c ∈ text, c ≠ '<' := by
          rintro c member rfl
          cases List.all_eq_true.mp spaces _ member
        have quote_ne : ∀ c ∈ [quote], c ≠ '<' := by
          intro c member
          obtain rfl := List.mem_singleton.mp member
          rcases quotes with rfl | rfl <;> decide
        refine along_append.mpr ⟨clear_ne (space_ne spaces), ?_⟩
        refine along_append.mpr ⟨clear_ne (by simp [nameWord]), ?_⟩
        refine along_append.mpr ⟨clear_ne (space_ne before), ?_⟩
        refine Along.cons (clear_ne (by simp)) ?_
        refine along_append.mpr ⟨clear_ne (space_ne behind), ?_⟩
        refine Along.cons (clear_ne quote_ne) ?_
        refine along_append.mpr ⟨?_, clear_ne quote_ne⟩
        apply Along.of_at
        rintro front c rest rfl starts
        have stop : quote ∉ slotStart := by
          rcases quotes with rfl | rfl <;> decide
        have inside : slotStart <+: c :: rest := prefix_of_append stop starts
        have other := clear (c :: rest) ((List.mem_tails _ _).mpr (List.suffix_append _ _))
        rw [List.isPrefixOf_iff_prefix.mpr inside] at other
        cases other
    · cases plain
  · cases plain

/-! ## Tags -/

/-- The reader finds the first plain name of a tag, or it passes over all parts. -/
theorem slotName?_parts (previous : Char) {parts : List Spelling}
    (sound : parts.all Spelling.isSound = true)
    (plain : isPlainTag parts = true) (follows : Delimits after) :
    (firstName? parts = none ∧ Along Idle previous (partsText parts) after) ∨
      ∃ value front back, firstName? parts = some value ∧ partsText parts = front ++ back ∧
        slotName? previous (partsText parts ++ after) = some (value, front.length) ∧
        Along Clear previous front (back ++ after) := by
  induction parts generalizing previous with
  | nil => exact .inl ⟨rfl, trivial⟩
  | cons part rest induction =>
      rw [List.all_cons, Bool.and_eq_true] at sound
      have shape : partsText (part :: rest) = part.text ++ partsText rest := rfl
      cases name : plainName? part with
      | some value =>
          have first : firstName? (part :: rest) = some value := by
            simp [firstName?, name]
          obtain ⟨found, clear⟩ := slotName?_plainName previous sound.1 name
            (partsText rest ++ after)
          refine .inr ⟨value, part.text, partsText rest, first, shape, ?_, clear⟩
          rw [shape, List.append_assoc, found]
      | none =>
          have first : firstName? (part :: rest) = firstName? rest := by
            simp [firstName?, name]
          rw [isPlainTag, name, Option.isSome_none, Bool.false_or, Bool.and_eq_true] at plain
          have idle : Along Idle previous part.text (partsText rest ++ after) :=
            along_idle_of_isQuietPart sound.1 plain.1 (.of_parts sound.2 follows)
          rcases induction (part.text.getLastD previous) sound.2 plain.2 with
            ⟨none, behind⟩ | ⟨value, front, back, some, same, found, clear⟩
          · exact .inl ⟨first.trans none, along_append.mpr ⟨idle, behind⟩⟩
          · refine .inr ⟨value, part.text ++ front, back, first.trans some, ?_, ?_, ?_⟩
            · rw [shape, same, List.append_assoc]
            · have passed := slotName?_pass (idle.mono fun _ _ idle => idle.1)
              rw [shape, List.append_assoc, passed, found, Option.map_some, List.length_append,
                Nat.add_comm]
            · refine along_append.mpr ⟨?_, clear⟩
              rw [← List.append_assoc, ← same]
              exact idle.mono fun _ _ idle => idle.2

/-- The reader finds the first plain name of a tag, or nothing. -/
theorem slotName?_opening (previous : Char) {more : List Char} (rest : List Char)
    {opening : Opening}
    (named : more.all Code.isTagNamePart = true) (sound : opening.isSound = true)
    (plain : isPlainTag opening.parts = true) :
    (firstName? opening.parts = none ∧
        slotName? previous (more ++ (opening.text ++ rest)) = none) ∨
      ∃ value front back, firstName? opening.parts = some value ∧
        more ++ (opening.text ++ rest) = front ++ back ∧
        slotName? previous (more ++ (opening.text ++ rest)) = some (value, front.length) ∧
        Along Clear previous front back := by
  obtain ⟨parts, spaces⟩ := Bool.and_eq_true_iff.mp sound
  have ends : Delimits (opening.gap ++ (tagEnd opening.selfClosing ++ rest)) := by
    rw [← List.append_assoc]
    exact (Delimits.of_tagEnd spaces _).append rest
  have text : opening.text ++ rest =
      partsText opening.parts ++ (opening.gap ++ (tagEnd opening.selfClosing ++ rest)) := by
    simp [Opening.text]
  have follows : Delimits (opening.text ++ rest) := (Opening.follows sound).append rest
  have keyed : more.all isKeyPart = true := by
    rw [List.all_eq_true]
    intro c member
    have part : Fragment.continuesName c = true := by
      have own := List.all_eq_true.mp named c member
      simp only [Code.isTagNamePart, Bool.or_eq_true, beq_iff_eq] at own
      simp only [Fragment.continuesName, Bool.or_eq_true, beq_iff_eq]
      tauto
    rw [isKeyPart, part, Bool.or_true]
  have idle : Along Idle previous more (opening.text ++ rest) :=
    along_idle_of_keyed keyed (parts_assignedText none rfl follows)
      (.inl (nameValue?_unquoted none rfl follows (by simp)))
  have passed := slotName?_pass (idle.mono fun _ _ idle => idle.1)
  rcases slotName?_parts (more.getLastD previous) parts plain ends with
    ⟨none, behind⟩ | ⟨value, front, back, some, same, found, clear⟩
  · refine .inl ⟨none, ?_⟩
    -- the reader comes to the end of the tag
    have gap : Along Idle ((partsText opening.parts).getLastD (more.getLastD previous)) opening.gap
        (tagEnd opening.selfClosing ++ rest) := along_idle_of_isGap spaces
    have closed (previous : Char) :
        slotName? previous (tagEnd opening.selfClosing ++ rest) = Option.none := by
      have angle (previous : Char) : slotName? previous ('>' :: rest) = Option.none := by
        rw [slotName?, nameValue?_eq_none (by decide), ite_self]
        rfl
      cases opening.selfClosing with
      | false => exact angle previous
      | true =>
          change slotName? previous ('/' :: '>' :: rest) = Option.none
          rw [slotName?, nameValue?_eq_none (by decide), ite_self]
          dsimp only
          rw [if_neg (by decide), angle, Option.map_none]
    rw [passed, text, slotName?_pass (behind.mono fun _ _ idle => idle.1),
      slotName?_pass (gap.mono fun _ _ idle => idle.1), closed]
    rfl
  · refine .inr ⟨value, more ++ front,
      back ++ (opening.gap ++ (tagEnd opening.selfClosing ++ rest)), some, ?_, ?_, ?_⟩
    · rw [text, same]
      simp
    · rw [passed, text, found, Option.map_some, List.length_append, Nat.add_comm]
    · refine along_append.mpr ⟨?_, clear⟩
      rw [← List.append_assoc, ← same, ← text]
      exact idle.mono fun _ _ idle => idle.2

end Definition
end ReactiveTemplate
