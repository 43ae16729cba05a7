import ReactiveTemplate.Proofs.Markup.Delivery
import ReactiveTemplate.Proofs.Text.Bytes

/-!
# Text up to a tag

A text without angle brackets is read as characters, whether it stands between tags or in an element
that holds text alone; character references in it end before the next angle bracket.  An element that
holds text alone is closed by the tag of its name.
-/

namespace ReactiveTemplate
namespace Markup

variable {σ : Type} {consumer : Consumer σ} {state : σ} {s : TokenizerState} {c : Char}
  {text rest more : List Char} {tokens : List Token}

/-- The kind of text that an element starts with. -/
def RawKind.isFirst : RawKind → Bool
  | references | plain | script => true
  | escaped | doubleEscaped => false

/-- Text without angle brackets is text here. -/
def Reading.takesText : Reading → Bool
  | data => true
  | raw kind => kind.isFirst
  | _ => false

/-- The token is a character. -/
def Token.isText : Token → Bool
  | character _ | null => true
  | _ => false

/-! ## References -/

theorem length_prefix_le {name : List Char} (starts : name <+: text ++ '<' :: more)
    (free : '<' ∉ name) : name.length ≤ text.length := by
  have angle : text ++ ['<'] <+: text ++ '<' :: more := ⟨more, by simp⟩
  rcases List.prefix_or_prefix_of_prefix starts angle with short | long
  · rcases List.prefix_concat_iff.mp short with same | inside
    · exact (free (same ▸ by simp)).elim
    · exact inside.length_le
  · exact (free (long.subset (by simp))).elim

/-- No name of a reference has an angle bracket, which is seen at its bytes. -/
theorem namedReferences_free (first : Char) :
    ∀ entry ∈ namedReferences first, '<' ∉ entry.1.toList := by
  have bytes_free : ((namedReferences first).all fun entry =>
      !(Text.bytes entry.1).contains '<') = true := by
    unfold namedReferences
    split <;> decide +kernel
  intro entry listed member
  have found : '<' ∈ Text.bytes entry.1 := by
    rw [Text.bytes_eq_encode]
    refine List.mem_flatMap.mpr ⟨'<', member, ?_⟩
    rw [Text.encodeChar_of_ascii (by decide)]
    exact List.mem_singleton_self _
  have free := List.all_eq_true.mp bytes_free entry listed
  rw [List.contains_iff_mem.mpr found] at free
  cases free

theorem longestName_inside {names : List (String × List Nat)} {length : Nat} {points : List Nat}
    (free : ∀ entry ∈ names, '<' ∉ entry.1.toList)
    (found : longestName (text ++ '<' :: more) names = some (length, points)) :
    length ≤ text.length := by
  induction names with
  | nil => cases found
  | cons entry rest induction =>
      rw [List.forall_mem_cons] at free
      rw [longestName] at found
      split at found
      · rename_i starts
        have short := length_prefix_le (List.isPrefixOf_iff_prefix.mp starts) free.1
        rw [String.length_toList] at short
        split at found
        · split at found
          · exact induction free.2 found
          · cases found
            exact short
        · cases found
          exact short
      · exact induction free.2 found

theorem numericReference?_inside {base lead length : Nat} {isDigit : Char → Bool}
    {chars : List Char} (angle : isDigit '<' = false)
    (found : numericReference? base isDigit lead (text ++ '<' :: more) = some (chars, length)) :
    length ≤ lead + text.length := by
  have digits : (text ++ '<' :: more).takeWhile isDigit = text.takeWhile isDigit := by
    rw [List.takeWhile_append, List.takeWhile_cons, angle]
    split
    · rename_i whole
      rw [(List.takeWhile_prefix isDigit).eq_of_length whole]
      exact List.append_nil text
    · rfl
  unfold numericReference? at found
  dsimp only at found
  rw [digits] at found
  split at found
  · cases found
  · cases found
    have short := (List.takeWhile_prefix isDigit (l := text)).length_le
    split
    · rename_i semicolon
      rw [List.drop_append_of_le_length short] at semicolon
      have behind : text.drop (text.takeWhile isDigit).length ≠ [] := by
        intro nothing
        rw [nothing] at semicolon
        cases semicolon
      have := List.length_pos_iff.mpr behind
      rw [List.length_drop] at this
      omega
    · omega

theorem exists_of_append_eq_cons (split : text ++ '<' :: more = c :: rest) (other : c ≠ '<') :
    ∃ inside, text = c :: inside ∧ inside ++ '<' :: more = rest := by
  cases text with
  | nil => exact (other (List.cons.inj split).1.symm).elim
  | cons first inside =>
      obtain ⟨rfl, same⟩ := List.cons.inj split
      exact ⟨inside, rfl, same⟩

/-- A reference in a text ends before the angle bracket behind the text. -/
theorem reference?_inside {length : Nat} {chars : List Char}
    (found : reference? false (text ++ '<' :: more) = some (chars, length)) :
    length ≤ text.length := by
  have hexadecimal {marker : Char} {rest : List Char}
      (split : text ++ '<' :: more = '#' :: marker :: rest) (other : marker ≠ '<')
      (found : numericReference? 16 isHexadecimal 2 rest = some (chars, length)) :
      length ≤ text.length := by
    obtain ⟨numbered, rfl, behind⟩ := exists_of_append_eq_cons split (by decide)
    obtain ⟨digits, rfl, rfl⟩ := exists_of_append_eq_cons behind other
    have short := numericReference?_inside rfl found
    simp only [List.length_cons]
    omega
  unfold reference? at found
  split at found
  · rename_i rest split
    exact hexadecimal split (by decide) found
  · rename_i rest split
    exact hexadecimal split (by decide) found
  · rename_i rest other split
    obtain ⟨digits, rfl, rfl⟩ := exists_of_append_eq_cons split (by decide)
    have short := numericReference?_inside rfl found
    simp only [List.length_cons]
    omega
  · cases text with
    | nil => cases found
    | cons first inside =>
        rw [List.cons_append, namedReference?] at found
        split at found
        · cases found
        · rename_i count points longest
          have short := longestName_inside (namedReferences_free first) longest
          simp only [Bool.false_and] at found
          cases found
          rw [List.length_cons]
          omega

/-! ## Characters of a text -/

namespace TokenizerState

/-- A step of the tokenizer has read text: characters, and what of the rest belongs to them. -/
def ReadsText (s : TokenizerState) (rest : List Char) (result : Step) : Prop :=
  ∃ tokens length, result = ({ s with skip := length }, tokens) ∧ tokens.all Token.isText = true ∧
    length ≤ rest.length

theorem readsText_one (fresh : s.skip = 0) {token : Token} (isText : token.isText = true)
    (rest : List Char) : s.ReadsText rest (s, [token]) := by
  refine ⟨[token], 0, ?_, by simp [isText], Nat.zero_le _⟩
  rw [← fresh]

theorem readsText_dataReference (fresh : s.skip = 0) (rest more : List Char) :
    s.ReadsText rest (s.dataReference (rest ++ '<' :: more)) := by
  unfold dataReference
  split
  · rename_i chars length found
    have texts : (chars.map Token.character).all Token.isText = true := by
      rw [List.all_map, List.all_eq_true]
      exact fun _ _ => rfl
    exact ⟨chars.map .character, length, rfl, texts, reference?_inside found⟩
  · exact readsText_one fresh rfl rest

theorem isText_dataChar (c : Char) : (dataChar c).isText = true := by
  unfold dataChar
  split <;> rfl

theorem readsText_step (takes : s.reading.takesText = true) (fresh : s.skip = 0) (angle : c ≠ '<')
    (foreign : Bool) (rest more : List Char) :
    s.ReadsText rest (s.step foreign c (rest ++ '<' :: more)) := by
  have reference := readsText_dataReference fresh rest more
  have same {reading : Reading} (reading_eq : s.reading = reading) : { s with reading } = s := by
    rw [← reading_eq]
  unfold step
  cases reading_eq : s.reading with
  | data =>
      dsimp only
      rw [readData, same reading_eq]
      split
      · exact reference
      · rw [go, same reading_eq]
        exact readsText_one fresh (isText_dataChar c) rest
  | raw kind =>
      rw [reading_eq] at takes
      dsimp only
      rw [readRaw, if_neg angle]
      simp only [go, same reading_eq]
      split
      · exact reference
      · have first : kind ≠ .escaped ∧ kind ≠ .doubleEscaped := by
          constructor <;> rintro rfl <;> cases takes
        rw [if_neg (fun dash => first.1 dash.2), if_neg (fun dash => first.2 dash.2)]
        exact readsText_one fresh rfl rest
  | _ =>
      rw [reading_eq] at takes
      cases takes

end TokenizerState

/-- Whoever takes characters without losing something has taken them all. -/
theorem takeAll_text (kept : σ → Prop)
    (takes : ∀ state token, token.isText = true → kept state →
      ∃ next, consumer.take state token = (next, .proceed) ∧ kept next)
    (s : TokenizerState) (texts : tokens.all Token.isText = true) (holds : kept state) :
    ∃ next, consumer.takeAll s state tokens = (s, next) ∧ kept next := by
  induction tokens generalizing state with
  | nil => exact ⟨state, rfl, holds⟩
  | cons token rest induction =>
      rw [List.all_cons, Bool.and_eq_true] at texts
      obtain ⟨middle, taken, holds'⟩ := takes state token texts.1 holds
      obtain ⟨next, others, holds''⟩ := induction texts.2 holds'
      refine ⟨next, ?_, holds''⟩
      simp only [Consumer.takeAll, taken]
      exact others

/-- A text without angle brackets is read up to the bracket behind it. -/
theorem runFrom_plainText (kept : σ → Prop)
    (takes : ∀ state token, token.isText = true → kept state →
      ∃ next, consumer.take state token = (next, .proceed) ∧ kept next)
    (reading : s.reading.takesText = true) (skipped : s.skip ≤ text.length) (plain : '<' ∉ text)
    (holds : kept state) (more : List Char) :
    ∃ next, kept next ∧ consumer.runFrom s state (text ++ '<' :: more) =
      consumer.runFrom { s with skip := 0 } next ('<' :: more) := by
  induction text generalizing s state with
  | nil =>
      have fresh : s.skip = 0 := Nat.le_zero.mp skipped
      refine ⟨state, holds, ?_⟩
      rw [← fresh]
      rfl
  | cons c rest induction =>
      rw [List.mem_cons, not_or] at plain
      rw [List.length_cons] at skipped
      rw [List.cons_append, Consumer.runFrom]
      split
      · exact induction reading (Nat.sub_le_iff_le_add.mpr skipped) plain.2 holds
      · rename_i none
        have fresh : s.skip = 0 := by omega
        obtain ⟨tokens, length, step_eq, texts, inside⟩ := TokenizerState.readsText_step reading fresh
          (Ne.symm plain.1) (consumer.foreign state) rest more
        obtain ⟨middle, taken, holds'⟩ := takeAll_text kept takes { s with skip := length } texts holds
        obtain ⟨next, holds'', others⟩ := induction (s := { s with skip := length }) reading inside
          plain.2 holds'
        refine ⟨next, holds'', ?_⟩
        rw [step_eq]
        dsimp only
        rw [taken]
        exact others

/-! ## Closing tags -/

namespace TokenizerState

theorem closesRaw_closing {tag : List Char} (nonempty : tag ≠ [])
    (letters : tag.all Char.isAlpha = true) (started : s.lastStart = String.ofList (lowered tag))
    (more : List Char) : s.closesRaw ('/' :: (tag ++ '>' :: more)) = true := by
  have name_eq : (tag ++ '>' :: more).takeWhile Char.isAlpha = tag := by
    rw [List.takeWhile_append_of_pos (List.all_eq_true.mp letters)]
    exact List.append_nil tag
  have named : String.ofList (tag.map Char.toLower) = s.lastStart := started.symm
  simp [closesRaw, name_eq, named, nonempty, isSpace]

theorem isTagName_of_letters {tag : List Char} (nonempty : tag ≠ [])
    (letters : tag.all Char.isAlpha = true) : isTagName tag = true := by
  obtain ⟨letter, rest, rfl⟩ := List.exists_cons_of_ne_nil nonempty
  rw [List.all_cons, Bool.and_eq_true] at letters
  rw [isTagName, letters.1, Bool.true_and, List.all_eq_true]
  intro c member
  have alpha := List.all_eq_true.mp letters.2 c member
  have other (special : Char) (symbol : special.isAlpha = false) : c ≠ special :=
    ne_of_isAlpha alpha symbol
  simp [isNamePart, isSpace, other ' ' rfl, other '\t' rfl, other '\n' rfl, other '\x0c' rfl,
    other '/' rfl, other '=' rfl, other '>' rfl, other '\x00' rfl]

/-- An element that holds text alone is closed by the tag of its name. -/
theorem closingRaw {kind : RawKind} {tag : List Char} (reading : s.reading = .raw kind)
    (first : kind.isFirst = true) (fresh : s.skip = 0) (nonempty : tag ≠ [])
    (letters : tag.all Char.isAlpha = true) (started : s.lastStart = String.ofList (lowered tag)) :
    ∃ s', s'.Ready ∧ Yields s ('<' :: '/' :: (tag ++ ['>']))
      (.endTag ⟨String.ofList (lowered tag), [], false⟩) s' := by
  let named : TokenizerState := s.startTag true s.lastStart.toList.reverse
  have inside : named.InTag true (lowered tag) [] := by
    refine ⟨.inl rfl, fresh, rfl, rfl, ?_, rfl⟩
    show s.lastStart.toList.reverse = _
    rw [started, String.toList_ofList]
  obtain ⟨s', ready, -, last⟩ := inside.close List.all_nil
  refine ⟨s', ready, ?_⟩
  intro σ consumer state next feedback more taken
  have other : kind ≠ .doubleEscaped := by
    rintro rfl
    cases first
  have length_eq : s.lastStart.length + 1 = ('/' :: tag).length := by
    rw [started, String.length_ofList, lowered, List.length_map, List.length_cons]
  have step (foreign : Bool) : s.step foreign '<' ('/' :: (tag ++ '>' :: more)) = s.closeRaw := by
    simp [TokenizerState.step, reading, readRaw, readRawLess, other,
      closesRaw_closing nonempty letters started]
  have passed := runFrom_skip (s := { named with skip := s.lastStart.length + 1 }) consumer state
    ('/' :: tag) ('>' :: more) length_eq
  have whole := last σ consumer state next feedback more taken
  rw [List.nil_append] at whole
  have fresh' : named.skip = 0 := fresh
  rw [List.cons_append, List.cons_append, List.append_assoc, Consumer.runFrom,
    if_neg (by rw [fresh]; exact Nat.lt_irrefl 0), List.singleton_append, step]
  rw [← whole, List.singleton_append]
  have same : { named with skip := 0 } = named := by rw [← fresh']
  exact passed.trans (by rw [same])

end TokenizerState

end Markup
end ReactiveTemplate
