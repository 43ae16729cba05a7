import ReactiveTemplate.Markup.Decode
import ReactiveTemplate.Proofs.Markup.Document

/-!
# What decoding leaves of a text

A text without ampersands is not decoded; any other is read as markup from the state between tags,
and the characters of text among the tokens are kept.  The two agree on what is not a reference as
long as no markup starts in it, so that such a text stays as it is in front of any other.

Where markup does start, a part of the text is lost.  This is shown by counting: each step of the
tokenizer shows no more characters than it has read, if a reference pays with the characters that it
skips and an angle bracket that may still be shown is owed until it is.  The step that enters markup
shows nothing for what it reads, and this is never made up for.
-/

namespace ReactiveTemplate
namespace Markup

variable {s : TokenizerState} {c : Char} {text rest more : List Char} {tokens : List Token}

/-- The characters of text among tokens. -/
def shownBy (tokens : List Token) : List Char :=
  tokens.flatMap fun
    | .character c => [c]
    | _ => []

@[simp]
theorem shownBy_nil : shownBy [] = [] := rfl

@[simp]
theorem shownBy_character (c : Char) (tokens : List Token) :
    shownBy (.character c :: tokens) = c :: shownBy tokens := rfl

theorem shownBy_append (before after : List Token) :
    shownBy (before ++ after) = shownBy before ++ shownBy after :=
  List.flatMap_append

theorem shownBy_map_character (chars : List Char) : shownBy (chars.map .character) = chars := by
  rw [shownBy, List.flatMap_map]
  exact List.flatMap_singleton' chars

/-- The characters of text that are read from a state on, if all of the text is read as markup. -/
def TokenizerState.shows : TokenizerState → List Char → List Char
  | s, [] => shownBy s.finish
  | s, c :: rest =>
    if 0 < s.skip then { s with skip := s.skip - 1 }.shows rest
    else shownBy (s.step false c rest).2 ++ (s.step false c rest).1.shows rest

section

variable {consumer : Consumer Collected}

theorem takeAll_collected (takes : ∀ collected token,
      consumer.take collected token = (collected.take token, .proceed))
    (tokens : List Token) (s : TokenizerState) (collected : Collected) :
    (consumer.takeAll s collected tokens).1 = s ∧
      (consumer.takeAll s collected tokens).2.text.reverse =
        collected.text.reverse ++ shownBy tokens := by
  induction tokens generalizing collected with
  | nil => simp [Consumer.takeAll]
  | cons token rest induction =>
      obtain ⟨same, text_eq⟩ := induction (collected.take token)
      rw [Consumer.takeAll, takes]
      refine ⟨same, text_eq.trans ?_⟩
      cases token <;> simp [Collected.take, shownBy]

theorem runFrom_collected (takes : ∀ collected token,
      consumer.take collected token = (collected.take token, .proceed))
    (native : ∀ collected, consumer.foreign collected = false) (text : List Char)
    (s : TokenizerState) (collected : Collected) :
    (consumer.runFrom s collected text).text.reverse = collected.text.reverse ++ s.shows text := by
  induction text generalizing s collected with
  | nil =>
      rw [Consumer.runFrom, (takeAll_collected takes _ _ _).2, TokenizerState.shows]
  | cons c rest induction =>
      rw [Consumer.runFrom, TokenizerState.shows]
      split
      · exact induction _ _
      · obtain ⟨same, text_eq⟩ := takeAll_collected takes (s.step false c rest).2
          (s.step false c rest).1 collected
        dsimp only
        rw [native, induction, same, text_eq, List.append_assoc]

end

/-- A character that markup is not read for: no line end of another kind, no null, no mark. -/
def isSteady (c : Char) : Bool := c != '\r' && c != '\x00' && c.toNat != 0xfeff

theorem ne_null_of_isSteady (steady : isSteady c = true) : c ≠ '\x00' := by
  rintro rfl
  cases steady

theorem prepare_steady (steady : text.all isSteady = true) : prepare text = text := by
  have unix : '\r' ∉ text := fun member => by
    have := List.all_eq_true.mp steady _ member
    cases this
  cases text with
  | nil => rfl
  | cons c rest =>
      have first := List.all_eq_true.mp steady c List.mem_cons_self
      simp only [isSteady, Bool.and_eq_true, bne_iff_ne] at first
      rw [prepare, if_neg first.2, normalizeLines_eq unix]

/-- A text with an ampersand is read as markup. -/
theorem decodeText_eq (steady : text.all isSteady = true) (ampersand : '&' ∈ text) :
    decodeText text = ({} : TokenizerState).shows text := by
  rw [decodeText, if_pos (List.contains_iff_mem.mpr ampersand), collect, Consumer.run,
    prepare_steady steady, runFrom_collected (fun _ _ => rfl) fun _ => rfl]
  rfl

theorem decodeText_plain (plain : '&' ∉ text) : decodeText text = text :=
  if_neg (by simpa using plain)

/-! ## Text in front of markup -/

/-- The text behind an angle bracket makes it the start of a tag, a comment or a declaration. -/
def startsMarkup (text : List Char) : Bool :=
  text.head?.any fun c => c.isAlpha || c == '!' || c == '/' || c == '?'

/-- Markup starts in the first text, where the second one follows. -/
def opensIn : List Char → List Char → Bool
  | [], _ => false
  | c :: rest, more => c == '<' && startsMarkup (rest ++ more) || opensIn rest more

theorem shows_cons (angle : c ≠ '<') (ampersand : c ≠ '&') (null : c ≠ '\x00')
    (rest : List Char) :
    ({} : TokenizerState).shows (c :: rest) = c :: ({} : TokenizerState).shows rest := by
  simp [TokenizerState.shows, TokenizerState.step, TokenizerState.readData, TokenizerState.go,
    TokenizerState.dataChar, angle, ampersand, null]

theorem shows_angle_eq (rest : List Char) :
    ({} : TokenizerState).shows ('<' :: rest) =
      ({ reading := .tagOpen } : TokenizerState).shows rest := by
  simp [TokenizerState.shows, TokenizerState.step, TokenizerState.readData, TokenizerState.go]

theorem shows_angle (loose : startsMarkup rest = false) :
    ({} : TokenizerState).shows ('<' :: rest) = '<' :: ({} : TokenizerState).shows rest := by
  rw [shows_angle_eq]
  cases rest with
  | nil => rfl
  | cons c rest =>
      simp only [startsMarkup, List.head?_cons, Option.any_some, Bool.or_eq_false_iff,
        beq_eq_false_iff_ne] at loose
      obtain ⟨⟨⟨letter, bang⟩, slash⟩, question⟩ := loose
      have back : ({ reading := .tagOpen } : TokenizerState).readData c rest =
          ({} : TokenizerState).readData c rest := rfl
      simp [TokenizerState.shows, TokenizerState.step, TokenizerState.readTagOpen, bang, slash,
        question, letter, back]

theorem shows_append (steady : text.all isSteady = true) (plain : '&' ∉ text)
    (loose : opensIn text more = false) :
    ({} : TokenizerState).shows (text ++ more) = text ++ ({} : TokenizerState).shows more := by
  induction text with
  | nil => rfl
  | cons c rest induction =>
      rw [List.all_cons, Bool.and_eq_true] at steady
      rw [List.mem_cons, not_or] at plain
      rw [opensIn, Bool.or_eq_false_iff] at loose
      have behind := induction steady.2 plain.2 loose.2
      rw [List.cons_append, List.cons_append, ← behind]
      rcases eq_or_ne c '<' with rfl | angle
      · exact shows_angle (by simpa using loose.1)
      · exact shows_cons angle (Ne.symm plain.1) (ne_null_of_isSteady steady.1) _

/-! ## What is lost with markup -/

/-- The number of characters that have been read and may still be shown. -/
def Reading.owed : Reading → Nat
  | .tagOpen | .cdataBracket => 1
  | .endTagOpen | .cdataEnd => 2
  | _ => 0

/-- Nothing is shown, and nothing more will be of what has been read. -/
def Quiet (result : Step) : Prop := shownBy result.2 = [] ∧ result.1.reading.owed = 0

/-- Whatever is shown or still may be is paid for, by so many characters and those that are
skipped. -/
def Affords (paid : Nat) (rest : List Char) (result : Step) : Prop :=
  (shownBy result.2).length + result.1.reading.owed ≤ paid + min result.1.skip rest.length

theorem Quiet.affords {result : Step} (quiet : Quiet result) (paid : Nat) (rest : List Char) :
    Affords paid rest result := by
  rw [Affords, quiet.1, quiet.2]
  exact Nat.zero_le _

theorem Affords.mono {paid paid' : Nat} {result : Step} (affords : Affords paid rest result)
    (more : paid ≤ paid') : Affords paid' rest result :=
  Nat.le_trans affords (Nat.add_le_add_right more _)

namespace TokenizerState

theorem quiet_go {reading : Reading} (free : reading.owed = 0) (s : TokenizerState) :
    Quiet (s.go reading []) := ⟨rfl, free⟩

theorem affords_go {reading : Reading} {paid : Nat}
    (enough : (shownBy tokens).length + reading.owed ≤ paid) (s : TokenizerState) :
    Affords paid rest (s.go reading tokens) :=
  Nat.le_trans enough (Nat.le_add_right _ _)

theorem quiet_emitTag (s : TokenizerState) : Quiet s.emitTag := by
  unfold emitTag
  dsimp only
  split <;> exact ⟨rfl, rfl⟩

theorem quiet_startAttribute (s : TokenizerState) (c : Char) : Quiet (s.startAttribute c, []) :=
  ⟨rfl, rfl⟩

theorem quiet_readBeforeAttributeName (s : TokenizerState) (c : Char) :
    Quiet (s.readBeforeAttributeName c) := by
  unfold readBeforeAttributeName
  split
  · exact quiet_go rfl s
  split
  · exact quiet_go rfl s
  split
  · exact quiet_emitTag s
  · exact quiet_startAttribute ..

theorem quiet_readAttributeValue (s : TokenizerState) (quoting : Quoting) (c : Char)
    (rest : List Char) : Quiet (s.readAttributeValue quoting c rest) := by
  fun_cases readAttributeValue s quoting c rest with
  | case4 => exact quiet_emitTag _
  | _ => exact ⟨rfl, rfl⟩

theorem quiet_readTag (free : s.reading.owed = 0) (c : Char) (rest : List Char) :
    Quiet (s.readTag c rest) := by
  fun_cases readTag s c rest with
  | case3 | case9 | case14 | case19 | case24 | case26 => exact quiet_emitTag _
  | case5 | case25 | case27 => exact quiet_readBeforeAttributeName ..
  | case15 => exact quiet_startAttribute ..
  | case20 | case21 => exact quiet_readAttributeValue ..
  | case4 | case10 | case11 | case16 | case28 => exact ⟨rfl, free⟩
  | _ => exact quiet_go rfl s

theorem quiet_readBogusComment (s : TokenizerState) (c : Char) : Quiet (s.readBogusComment c) := by
  unfold readBogusComment
  split <;> exact ⟨rfl, rfl⟩

theorem quiet_readComment (free : s.reading.owed = 0) (c : Char) : Quiet (s.readComment c) := by
  have within (s : TokenizerState) : Quiet (if c = '-' then s.go .commentEndDash []
      else (s.pushComment [replaceNull c]).go .comment []) := by
    split <;> exact quiet_go rfl _
  fun_cases readComment s c with
  | case3 | case6 | case8 | case12 | case15 | case16 => exact within _
  | case11 => exact ⟨rfl, free⟩
  | _ => exact ⟨rfl, rfl⟩

@[simp]
theorem setIdentifier_reading (kind : IdentifierKind) (text : String) :
    (s.setIdentifier kind text).reading = s.reading := by
  cases kind <;> rfl

theorem quiet_readBeforeDoctypeName (s : TokenizerState) (c : Char) :
    Quiet (s.readBeforeDoctypeName c) := by
  unfold readBeforeDoctypeName
  split
  · exact quiet_go rfl s
  split <;> exact ⟨rfl, rfl⟩

theorem quiet_readIdentifierStart (s : TokenizerState) (kind : IdentifierKind) (c : Char) :
    Quiet (s.readIdentifierStart kind c) := by
  unfold readIdentifierStart
  split
  · exact quiet_go rfl _
  split <;> exact ⟨rfl, rfl⟩

theorem quiet_readDoctype (free : s.reading.owed = 0) (c : Char) (rest : List Char) :
    Quiet (s.readDoctype c rest) := by
  fun_cases readDoctype s c rest with
  | case1 | case2 => exact quiet_readBeforeDoctypeName s c
  | case12 | case14 => exact quiet_readIdentifierStart s _ c
  | case17 => exact ⟨rfl, (congrArg Reading.owed (setIdentifier_reading ..)).trans free⟩
  | case5 | case6 | case13 | case26 | case30 => exact ⟨rfl, free⟩
  | _ => exact ⟨rfl, rfl⟩

theorem quiet_readDeclaration (s : TokenizerState) (rest : List Char) :
    Quiet (s.readDeclaration false rest) := by
  unfold readDeclaration
  dsimp only
  split
  · exact ⟨rfl, rfl⟩
  split
  · exact ⟨rfl, rfl⟩
  rw [Bool.false_and, if_neg Bool.false_ne_true]
  exact ⟨rfl, rfl⟩

end TokenizerState

/-! ### References -/

theorem length_numericReference? {base lead length : Nat} {isDigit : Char → Bool}
    {chars : List Char}
    (found : numericReference? base isDigit lead text = some (chars, length)) :
    chars.length = 1 ∧ lead < length ∧ length ≤ lead + text.length := by
  unfold numericReference? at found
  dsimp only at found
  split at found
  · cases found
  · rename_i digits
    cases found
    have positive : 0 < (text.takeWhile isDigit).length :=
      List.length_pos_iff.mpr (by simpa using digits)
    have short := (List.takeWhile_prefix isDigit (l := text)).length_le
    refine ⟨rfl, by omega, ?_⟩
    split
    · rename_i semicolon
      have behind : text.drop (text.takeWhile isDigit).length ≠ [] := by
        rintro nothing
        rw [nothing] at semicolon
        cases semicolon
      have := List.length_pos_iff.mpr behind
      rw [List.length_drop] at this
      omega
    · omega

theorem longestName_spec {names : List (String × List Nat)} {length : Nat} {points : List Nat}
    (found : longestName text names = some (length, points)) :
    length ≤ text.length ∧ ∃ entry ∈ names, entry.2 = points := by
  induction names with
  | nil => cases found
  | cons entry rest induction =>
      have later (found : longestName text rest = some (length, points)) :
          length ≤ text.length ∧ ∃ entry' ∈ entry :: rest, entry'.2 = points := by
        obtain ⟨short, other, member, same⟩ := induction found
        exact ⟨short, other, List.mem_cons_of_mem _ member, same⟩
      rw [longestName] at found
      split at found
      · rename_i starts
        have own (found : some (entry.1.length, entry.2) = some (length, points)) :
            length ≤ text.length ∧ ∃ entry' ∈ entry :: rest, entry'.2 = points := by
          cases found
          exact ⟨List.IsPrefix.length_le (List.isPrefixOf_iff_prefix.mp starts), entry,
            List.mem_cons_self, rfl⟩
        split at found
        · rename_i others
          split at found
          · exact later found
          · exact own found
        · exact own found
      · exact later found

theorem length_points (first : Char) :
    ((namedReferences first).all fun entry => entry.2.length ≤ 2) = true := by
  unfold namedReferences
  split <;> decide +kernel

theorem length_namedReference? {inAttribute : Bool} {length : Nat} {chars : List Char}
    (found : namedReference? inAttribute text = some (chars, length)) :
    chars.length ≤ length + 1 ∧ length ≤ text.length := by
  unfold namedReference? at found
  split at found
  · cases found
  · rename_i first rest
    split at found
    · cases found
    · rename_i count points longest
      obtain ⟨short, entry, member, rfl⟩ := longestName_spec longest
      have few := List.all_eq_true.mp (length_points first) entry member
      dsimp only at found
      split at found
      · cases found
      · cases found
        rw [decide_eq_true_eq] at few
        rw [List.length_map, List.length_cons]
        omega

/-- A reference stands for fewer characters than it takes up. -/
theorem length_reference? {inAttribute : Bool} {length : Nat} {chars : List Char}
    (found : reference? inAttribute text = some (chars, length)) :
    chars.length ≤ length + 1 ∧ length ≤ text.length := by
  unfold reference? at found
  split at found
  · have := length_numericReference? found
    rw [List.length_cons, List.length_cons]
    omega
  · have := length_numericReference? found
    rw [List.length_cons, List.length_cons]
    omega
  · have := length_numericReference? found
    rw [List.length_cons]
    omega
  · exact length_namedReference? found

namespace TokenizerState

theorem affords_dataReference (free : s.reading.owed = 0) (rest : List Char) :
    Affords 1 rest (s.dataReference rest) := by
  unfold dataReference
  split
  · rename_i chars length found
    have := length_reference? found
    rw [Affords, shownBy_map_character]
    dsimp only
    omega
  · rw [Affords]
    exact Nat.le_trans (Nat.le_of_eq (congrArg (1 + ·) free)) (Nat.le_add_right _ _)

theorem length_shownBy_dataChar (c : Char) : (shownBy [dataChar c]).length ≤ 1 := by
  unfold dataChar
  split <;> simp [shownBy]

theorem affords_readData (s : TokenizerState) (c : Char) (rest : List Char) :
    Affords 1 rest (s.readData c rest) := by
  unfold readData
  split
  · exact affords_dataReference rfl rest
  split
  · exact affords_go (Nat.le_refl 1) s
  · exact affords_go (length_shownBy_dataChar c) s

theorem affords_readTagOpen (s : TokenizerState) (c : Char) (rest : List Char) :
    Affords 2 rest (s.readTagOpen false c rest) := by
  unfold readTagOpen
  split
  · exact (quiet_readDeclaration s rest).affords ..
  split
  · exact affords_go (Nat.le_refl 2) s
  split
  · exact (quiet_readBogusComment ..).affords ..
  split
  · exact Quiet.affords ⟨rfl, rfl⟩ ..
  · have := affords_readData s c rest
    rw [Affords] at this ⊢
    dsimp only at this ⊢
    rw [shownBy_character, List.length_cons]
    omega

/-- What makes an angle bracket the start of markup is not shown. -/
theorem quiet_readTagOpen (starts : startsMarkup (c :: rest) = true) (slash : c ≠ '/')
    (s : TokenizerState) : Quiet (s.readTagOpen false c rest) := by
  unfold readTagOpen
  split
  · exact quiet_readDeclaration s rest
  rename_i bang
  split
  · exact quiet_readBogusComment ..
  rename_i question
  have letter : c.isAlpha = true := by
    simpa [startsMarkup, bang, slash, question] using starts
  rw [if_pos letter]
  exact ⟨rfl, rfl⟩

theorem quiet_readEndTagOpen (s : TokenizerState) (c : Char) : Quiet (s.readEndTagOpen c) := by
  unfold readEndTagOpen
  split
  · exact quiet_go rfl s
  split
  · exact ⟨rfl, rfl⟩
  · exact quiet_readBogusComment ..

theorem affords_readRawLess (s : TokenizerState) (kind : RawKind) (rest : List Char) :
    Affords 1 rest (s.readRawLess kind rest) := by
  unfold readRawLess
  split
  · exact affords_go (Nat.le_refl 1) s
  split
  · exact Quiet.affords ⟨rfl, rfl⟩ ..
  split
  · rw [Affords]
    simp [Reading.owed]
  · split
    · exact affords_go (Nat.le_refl 1) _
    · exact affords_go (Nat.le_refl 1) s
  · exact affords_go (Nat.le_refl 1) s

theorem affords_readRaw (s : TokenizerState) (kind : RawKind) (c : Char) (rest : List Char) :
    Affords 1 rest (s.readRaw kind c rest) := by
  unfold readRaw
  split
  · exact affords_readRawLess ..
  split
  · exact affords_dataReference rfl rest
  split
  · exact affords_go (Nat.le_refl 1) s
  split
  · exact affords_go (Nat.le_refl 1) s
  · exact affords_go (Nat.le_refl 1) s

theorem affords_readEscape (free : s.reading.owed = 0) (c : Char) (rest : List Char) :
    Affords 1 rest (s.readEscape c rest) := by
  have stays (word : List Char) : Affords 1 rest ({ s with word }, [.character c]) :=
    Nat.le_trans (Nat.le_of_eq (congrArg (1 + ·) free)) (Nat.le_add_right _ _)
  fun_cases readEscape s c rest with
  | case2 | case4 | case14 | case16 | case19 => exact affords_readRaw ..
  | case6 | case9 => exact affords_readRawLess ..
  | case8 | case13 | case18 => exact stays _
  | case15 => exact Nat.le_add_right 1 _
  | case20 => exact Quiet.affords ⟨rfl, free⟩ ..
  | _ => exact affords_go (Nat.le_refl 1) s

theorem affords_readCdata (s : TokenizerState) (c : Char) (rest : List Char) :
    Affords (s.reading.owed + 1) rest (s.readCdata c) := by
  have plain (before : List Token) :
      Affords ((shownBy before).length + 1) rest (s.go .cdata (before ++ [dataChar c])) := by
    refine affords_go ?_ s
    have := length_shownBy_dataChar c
    rw [shownBy_append, List.length_append]
    exact Nat.add_le_add_left this _
  unfold readCdata
  dsimp only
  split
  · rename_i reading
    rw [reading]
    split
    · exact affords_go (Nat.le_refl 2) s
    · exact plain [.character ']']
  · rename_i reading
    rw [reading]
    split
    · rw [Affords, reading]
      exact Nat.le_add_right 3 _
    split
    · exact (quiet_go rfl s).affords ..
    · exact plain [.character ']', .character ']']
  · refine Affords.mono (?_ : Affords 1 rest _) (Nat.le_add_left 1 _)
    split
    · exact affords_go (Nat.le_refl 1) s
    · exact plain []

/-- What a step shows is paid for by the character that it reads and by what was owed. -/
theorem affords_step (s : TokenizerState) (c : Char) (rest : List Char) :
    Affords (s.reading.owed + 1) rest (s.step false c rest) := by
  unfold step
  cases reading : s.reading with
  | data => exact affords_readData s c rest
  | plaintext =>
      rw [Affords, reading]
      exact Nat.le_add_right 1 _
  | raw kind => exact affords_readRaw s kind c rest
  | tagOpen => exact affords_readTagOpen s c rest
  | endTagOpen => exact (quiet_readEndTagOpen s c).affords ..
  | tagName | beforeAttributeName | attributeName | afterAttributeName | beforeAttributeValue
  | attributeValue | afterAttributeValue | selfClosing =>
      exact (quiet_readTag (congrArg Reading.owed reading) c rest).affords ..
  | bogusComment => exact (quiet_readBogusComment s c).affords ..
  | commentStart | commentStartDash | comment | commentEndDash | commentEnd | commentEndBang =>
      exact (quiet_readComment (congrArg Reading.owed reading) c).affords ..
  | escapeStart | escapeStartDash | escapedDash | escapedDashDash | doubleEscapeStart
  | doubleEscapedLess | doubleEscapeEnd =>
      exact affords_readEscape (congrArg Reading.owed reading) c rest
  | doctype | beforeDoctypeName | doctypeName | afterDoctypeName | afterDoctypeKeyword
  | beforeIdentifier | identifier | afterIdentifier | betweenIdentifiers | bogusDoctype =>
      exact (quiet_readDoctype (congrArg Reading.owed reading) c rest).affords ..
  | cdata | cdataBracket | cdataEnd =>
      have affords := affords_readCdata s c rest
      rwa [reading] at affords

theorem length_finish_le (s : TokenizerState) : (shownBy s.finish).length ≤ s.reading.owed := by
  unfold finish
  cases s.reading <;> simp [shownBy, Reading.owed]

/-- What is shown of a text is no longer than what is owed and what is not skipped of it. -/
theorem length_shows_le (s : TokenizerState) (text : List Char) :
    (s.shows text).length + min s.skip text.length ≤ s.reading.owed + text.length := by
  induction text generalizing s with
  | nil =>
      rw [shows, List.length_nil, Nat.min_zero]
      exact length_finish_le s
  | cons c rest induction =>
      rw [shows, List.length_cons]
      split
      · have behind := induction { s with skip := s.skip - 1 }
        dsimp only at behind
        omega
      · have now := affords_step s c rest
        have behind := induction (s.step false c rest).1
        rw [Affords] at now
        rw [List.length_append]
        omega

end TokenizerState

theorem Quiet.length_shows_le (quiet : Quiet (s.step false c rest)) (fresh : s.skip = 0) :
    (s.shows (c :: rest)).length ≤ rest.length := by
  have behind := TokenizerState.length_shows_le (s.step false c rest).1 rest
  rw [quiet.2] at behind
  rw [TokenizerState.shows, if_neg (by omega), quiet.1, List.nil_append]
  omega

/-- Markup shows less than it takes up. -/
theorem length_shows_markup (opens : startsMarkup rest = true) (ampersand : '&' ∈ rest) :
    (({} : TokenizerState).shows ('<' :: rest)).length ≤ rest.length := by
  rw [shows_angle_eq]
  cases rest with
  | nil => cases opens
  | cons c rest =>
      by_cases slash : c = '/'
      · subst slash
        -- a closing tag is one only if something follows, and an ampersand does
        cases rest with
        | nil => simp at ampersand
        | cons c rest =>
            have enters : ({ reading := .tagOpen } : TokenizerState).shows ('/' :: c :: rest) =
                ({ reading := .endTagOpen } : TokenizerState).shows (c :: rest) := rfl
            have quiet : Quiet (({ reading := .endTagOpen } : TokenizerState).step false c rest) :=
              TokenizerState.quiet_readEndTagOpen _ c
            have short := quiet.length_shows_le rfl
            rw [enters, List.length_cons, List.length_cons]
            omega
      · have quiet : Quiet (({ reading := .tagOpen } : TokenizerState).step false c rest) :=
          TokenizerState.quiet_readTagOpen opens slash _
        exact Nat.le_succ_of_le (quiet.length_shows_le rfl)

/-- A text that markup starts in shows less than it takes up. -/
theorem length_shows_lt (steady : text.all isSteady = true) (plain : '&' ∉ text)
    (opens : opensIn text more = true) (ampersand : '&' ∈ more) :
    (({} : TokenizerState).shows (text ++ more)).length < (text ++ more).length := by
  induction text with
  | nil => cases opens
  | cons c rest induction =>
      rw [List.all_cons, Bool.and_eq_true] at steady
      rw [List.mem_cons, not_or] at plain
      rw [opensIn, Bool.or_eq_true, Bool.and_eq_true, beq_iff_eq] at opens
      rw [List.cons_append, List.length_cons, Nat.lt_succ_iff]
      by_cases here : c = '<' ∧ startsMarkup (rest ++ more) = true
      · obtain ⟨rfl, starts⟩ := here
        exact length_shows_markup starts (List.mem_append_right rest ampersand)
      · have behind := induction steady.2 plain.2 (opens.resolve_left here)
        rcases eq_or_ne c '<' with rfl | angle
        · rw [shows_angle (by simpa using here)]
          exact behind
        · rw [shows_cons angle (Ne.symm plain.1) (ne_null_of_isSteady steady.1)]
          exact behind

/-- Decoding leaves a text without ampersands as it is in front of any other text, if no markup
starts in it.  If some does, and an ampersand follows, a part of it is lost: in front of a text that
decoding leaves as it is, the outcome is another one. -/
theorem decodeText_append (plain : '&' ∉ text) (steady : (text ++ more).all isSteady = true) :
    (('&' ∈ more → opensIn text more = false) →
      decodeText (text ++ more) = text ++ decodeText more) ∧
    (opensIn text more = true → '&' ∈ more → decodeText more = more →
      decodeText (text ++ more) ≠ text ++ decodeText more) := by
  have parts := steady
  rw [List.all_append, Bool.and_eq_true] at parts
  constructor
  · intro loose
    by_cases ampersand : '&' ∈ more
    · rw [decodeText_eq steady (List.mem_append_right text ampersand),
        decodeText_eq parts.2 ampersand, shows_append parts.1 plain (loose ampersand)]
    · rw [decodeText_plain ampersand, decodeText_plain]
      exact fun member => (List.mem_append.mp member).elim plain ampersand
  · intro opens ampersand same equal
    have shorter := length_shows_lt parts.1 plain opens ampersand
    rw [← decodeText_eq steady (List.mem_append_right text ampersand), equal, same] at shorter
    exact Nat.lt_irrefl _ shorter

theorem decodeText_append_comparison :
    '&' ∉ "1 < 2".toList ∧ ("1 < 2".toList ++ " &amp; 3".toList).all isSteady = true ∧
      decodeText ("1 < 2".toList ++ " &amp; 3".toList) = "1 < 2 & 3".toList ∧
      '&' ∉ "x <!y> ".toList ∧ ("x <!y> ".toList ++ "& z".toList).all isSteady = true ∧
      decodeText ("x <!y> ".toList ++ "& z".toList) ≠
        "x <!y> ".toList ++ decodeText "& z".toList := by
  have comparison : '&' ∉ "1 < 2".toList := by decide
  have steady : ("1 < 2".toList ++ " &amp; 3".toList).all isSteady = true := by decide
  have kept := (decodeText_append comparison steady).1 fun _ => by decide
  have declaration : '&' ∉ "x <!y> ".toList := by decide
  have steady' : ("x <!y> ".toList ++ "& z".toList).all isSteady = true := by decide
  have lost := (decodeText_append declaration steady').2 (by decide) (by decide)
    (by decide +kernel)
  exact ⟨comparison, steady, kept.trans (by decide +kernel), declaration, steady', lost⟩

end Markup
end ReactiveTemplate
