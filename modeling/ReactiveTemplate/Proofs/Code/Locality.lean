import Mathlib.Data.List.TakeWhile
import ReactiveTemplate.Code.Lexer

/-!
# What the lexer does not look at

The place of a closing bracket and the end of markup are decided by what stands before them: once
they are found, any text may follow.  The lexer does look ahead, at words, flags, tag names and
calls, but never past the bracket or the angle bracket that it stops at.
-/

namespace ReactiveTemplate
namespace Code

variable {more text rest : List Char} {c : Char}

/-- The character is a closing bracket. -/
def isClosing (c : Char) : Bool := c == ')' || c == ']' || c == '}'

/-- A closing bracket stands in the text. -/
def Fenced (text : List Char) : Prop := ∃ c ∈ text, isClosing c = true

theorem Fenced.tail (fenced : Fenced (c :: rest)) (other : isClosing c = false) : Fenced rest := by
  obtain ⟨bracket, member, closing⟩ := fenced
  rcases List.mem_cons.mp member with rfl | member
  · rw [closing] at other
    cases other
  · exact ⟨bracket, member, closing⟩

theorem Fenced.ne_nil (fenced : Fenced text) : text ≠ [] := by
  rintro rfl
  obtain ⟨bracket, member, -⟩ := fenced
  cases member

/-- The first character of a text with a bracket is its own, whatever follows. -/
theorem Fenced.eq_cons (fenced : Fenced text) (same : text ++ more = c :: rest) :
    ∃ own, text = c :: own ∧ own ++ more = rest := by
  cases text with
  | nil => exact absurd rfl fenced.ne_nil
  | cons first own =>
      obtain ⟨rfl, behind⟩ := List.cons.inj same
      exact ⟨own, rfl, behind⟩

/-! ## Looking ahead -/

/-- The codes of digits and of letters. -/
theorem toNat_of_isAlphanum (part : c.isAlphanum = true) :
    (48 ≤ c.toNat ∧ c.toNat ≤ 57) ∨ (65 ≤ c.toNat ∧ c.toNat ≤ 90) ∨
      (97 ≤ c.toNat ∧ c.toNat ≤ 122) := by
  have same : c.val.toNat = c.toNat := rfl
  unfold Char.isAlphanum Char.isAlpha Char.isUpper Char.isLower Char.isDigit at part
  simp only [Bool.or_eq_true, Bool.and_eq_true, decide_eq_true_eq, ge_iff_le,
    UInt32.le_iff_toNat_le, same, Char.reduceVal, UInt32.reduceToNat] at part
  omega

/-- Where not all characters are of a kind, those before the first other one are found early. -/
theorem takeWhile_append_of_lt {kind : Char → Bool}
    (short : (text.takeWhile kind).length < text.length) (more : List Char) :
    (text ++ more).takeWhile kind = text.takeWhile kind := by
  rw [List.takeWhile_append, if_neg (Nat.ne_of_lt short)]

theorem Fenced.takeWhile_lt (fenced : Fenced text) {kind : Char → Bool}
    (apart : ∀ c, isClosing c = true → kind c = false) :
    (text.takeWhile kind).length < text.length := by
  obtain ⟨bracket, member, closing⟩ := fenced
  by_contra long
  have all : text.takeWhile kind = text :=
    (List.takeWhile_prefix kind).eq_of_length (Nat.le_antisymm
      (List.takeWhile_prefix kind).length_le (Nat.le_of_not_lt long))
  have holds := List.takeWhile_eq_self_iff.mp all bracket member
  rw [apart bracket closing] at holds
  cases holds

theorem isClosing_cases (closing : isClosing c = true) : c = ')' ∨ c = ']' ∨ c = '}' := by
  simpa [isClosing, or_assoc] using closing

theorem isWordPart_of_isClosing (closing : isClosing c = true) : isWordPart c = false := by
  rcases isClosing_cases closing with rfl | rfl | rfl <;> decide

theorem isAsciiSpace_of_isClosing (closing : isClosing c = true) : isAsciiSpace c = false := by
  rcases isClosing_cases closing with rfl | rfl | rfl <;> decide

theorem Fenced.head?_append (fenced : Fenced text) (more : List Char) :
    (text ++ more).head? = text.head? := by
  cases text with
  | nil => exact absurd rfl fenced.ne_nil
  | cons first rest => rfl

theorem Fenced.startsMapCall_append (fenced : Fenced text) (more : List Char) :
    startsMapCall (text ++ more) = startsMapCall text := by
  fun_cases startsMapCall text with
  | case1 after =>
      have behind : Fenced after := ((fenced.tail rfl).tail rfl).tail rfl
      obtain ⟨bracket, member, closing⟩ := behind
      -- the bracket is no white space, so that the search ends at it or before
      have found : (after.find? fun c => !isAsciiSpace c).isSome := by
        rw [List.find?_isSome]
        exact ⟨bracket, member, by rw [isAsciiSpace_of_isClosing closing]; rfl⟩
      obtain ⟨visible, found⟩ := Option.isSome_iff_exists.mp found
      cases after with
      | nil => cases member
      | cons first rest =>
          simp only [List.cons_append, startsMapCall]
          rw [← List.cons_append, List.find?_append, found, Option.some_or]
  | case2 _ plain =>
      rw [startsMapCall]
      intro after same
      obtain ⟨second, rfl, same₂⟩ := fenced.eq_cons same
      obtain ⟨third, rfl, same₃⟩ := (fenced.tail rfl).eq_cons same₂
      obtain ⟨fourth, rfl, -⟩ := ((fenced.tail rfl).tail rfl).eq_cons same₃
      exact plain fourth rfl

theorem flagsLength_append (short : flagsLength text < text.length) (more : List Char) :
    flagsLength (text ++ more) = flagsLength text := by
  rw [flagsLength, takeWhile_append_of_lt short, flagsLength]

theorem regexLength_cons {inClass : Bool} (unescaped : c ≠ '\\') (opening : c ≠ '[')
    (closing : c ≠ ']') (rest : List Char) :
    regexLength inClass (c :: rest) =
      if c = '/' ∧ inClass = false then flagsLength rest + 1
      else if c = '\n' then 0
      else regexLength inClass rest + 1 := by
  rw [regexLength]
  · exact fun same => absurd same unescaped
  · exact fun _ _ same => absurd same unescaped
  · exact opening
  · exact closing

/-- A character that is not the start of an escape, whether or not another one follows. -/
theorem ne_backslash (lone : c = '\\' → rest = [] → False)
    (escape : ∀ escaped after, c = '\\' → rest = escaped :: after → False) : c ≠ '\\' := by
  intro same
  cases rest with
  | nil => exact lone same rfl
  | cons escaped after => exact escape escaped after same rfl

/-- A regular expression that ends before the text does ends there. -/
theorem regexLength_append {inClass : Bool} (short : regexLength inClass text < text.length)
    (more : List Char) : regexLength inClass (text ++ more) = regexLength inClass text := by
  fun_induction regexLength inClass text with
  | case1 => exact absurd short (Nat.lt_irrefl 0)
  | case2 => exact absurd short (Nat.lt_irrefl 1)
  | case3 inClass escaped rest induction =>
      simp only [List.length_cons, Nat.add_lt_add_iff_right] at short
      rw [List.cons_append, List.cons_append, regexLength, induction short]
  | case4 _ rest induction | case5 _ rest induction =>
      simp only [List.length_cons, Nat.add_lt_add_iff_right] at short
      rw [List.cons_append, regexLength, induction short]
  | case6 inClass c rest lone escape opening closing slash =>
      have unescaped : c ≠ '\\' := ne_backslash lone escape
      simp only [List.length_cons, Nat.add_lt_add_iff_right] at short
      rw [List.cons_append, regexLength_cons unescaped opening closing, if_pos slash,
        flagsLength_append short]
  | case7 inClass rest =>
      rw [List.cons_append, regexLength_cons (by decide) (by decide) (by decide), if_neg (by simp),
        if_pos rfl]
  | case8 inClass c rest lone escape opening closing slash line induction =>
      have unescaped : c ≠ '\\' := ne_backslash lone escape
      simp only [List.length_cons, Nat.add_lt_add_iff_right] at short
      rw [List.cons_append, regexLength_cons unescaped opening closing, if_neg slash, if_neg line,
        induction short]

/-! ## Code -/

theorem kind_of_assignable {state : LexState} {kind : TokenKind} {token : Emission}
    (emitted : (state.assignable kind text).2 = some token) : token.kind = kind := by
  unfold LexState.assignable at emitted
  split at emitted <;> cases emitted <;> rfl

theorem isClosing_of_stepCode {state : LexState} {markupLength length depth : Nat}
    (emitted : (state.stepCode c rest markupLength).2 = some ⟨.closing, length, depth⟩) :
    isClosing c = true := by
  revert emitted
  fun_cases LexState.stepCode state c rest markupLength with
  | case8 =>
      rename_i bracket _ _
      intro _
      simpa [isClosing, or_assoc] using bracket
  | case9 | case19 | case20 => exact fun emitted => nomatch kind_of_assignable emitted
  | _ => rintro ⟨⟩

/-- Only a closing bracket closes. -/
theorem isClosing_of_step {state : LexState} {markupLength length depth : Nat}
    (emitted : (state.step c rest markupLength).2 = some ⟨.closing, length, depth⟩) :
    isClosing c = true := by
  revert emitted
  fun_cases LexState.step state c rest markupLength with
  | case11 => exact isClosing_of_stepCode
  | _ => rintro ⟨⟩

/-- A regular expression starts at the character. -/
def LexState.AtRegex (state : LexState) (c : Char) (rest : List Char) : Prop :=
  state.mode = .code ∧ c = '/' ∧ rest.head? ≠ some '/' ∧ rest.head? ≠ some '*' ∧
    state.previous ≠ .value

theorem LexState.AtRegex.step_eq {state : LexState} (regex : state.AtRegex c rest)
    (markupLength : Nat) :
    state.step c rest markupLength = state.pass .value (regexLength false rest) := by
  obtain ⟨mode, rfl, line, block, previous⟩ := regex
  simp [LexState.step, LexState.stepCode, mode, line, block, previous]

theorem startsTag_append (nonempty : text ≠ []) (more : List Char) :
    startsTag (text ++ more) = startsTag text := by
  cases text with
  | nil => exact absurd rfl nonempty
  | cons first rest => rfl

theorem Fenced.assignable_append (fenced : Fenced text) (state : LexState) (kind : TokenKind)
    (more : List Char) : state.assignable kind (text ++ more) = state.assignable kind text := by
  cases text with
  | nil => exact absurd rfl fenced.ne_nil
  | cons first rest =>
      unfold LexState.assignable
      split
      · rename_i same
        obtain ⟨rfl, -⟩ := List.cons.inj same
        rfl
      · rename_i other
        split
        · rename_i same
          cases same
          exact absurd rfl (other _)
        · rfl

theorem Fenced.tail_of_head? (fenced : Fenced text) (head : text.head? = some c)
    (other : isClosing c = false) : ∃ own, text = c :: own ∧ Fenced own := by
  cases text with
  | nil => cases head
  | cons first own =>
      cases head
      exact ⟨own, rfl, fenced.tail other⟩

/-- One step looks at nothing behind a closing bracket, regular expressions apart. -/
theorem step_append {state : LexState} {markupLength : Nat} (fenced : Fenced rest)
    (regex : state.AtRegex c rest → regexLength false (rest ++ more) = regexLength false rest) :
    state.step c (rest ++ more) markupLength = state.step c rest markupLength := by
  have head := fenced.head?_append more
  have tags : startsTag (rest ++ more) = startsTag rest := startsTag_append fenced.ne_nil more
  have words : (rest ++ more).takeWhile isWordPart = rest.takeWhile isWordPart :=
    takeWhile_append_of_lt (fenced.takeWhile_lt fun _ => isWordPart_of_isClosing) more
  have calls := fenced.startsMapCall_append more
  have markup : state.opensMarkup c (rest ++ more) = state.opensMarkup c rest := by
    rw [LexState.opensMarkup, tags, LexState.opensMarkup]
  unfold LexState.step
  cases mode : state.mode with
  | lineComment | crashed => rfl
  | blockComment =>
      dsimp only
      rw [head]
  | string quote => rfl
  | template =>
      dsimp only
      rw [head]
  | code =>
      dsimp only
      unfold LexState.stepCode
      rw [head, words, calls, markup]
      refine ite_congr rfl (fun _ => rfl) fun _ => ?_
      refine ite_congr rfl (fun _ => rfl) fun line => ?_
      refine ite_congr rfl (fun _ => rfl) fun block => ?_
      refine ite_congr rfl (fun slash => ?_) fun _ => ?_
      · have starts : state.AtRegex c rest :=
          ⟨mode, slash.1, fun same => line ⟨slash.1, same⟩, fun same => block ⟨slash.1, same⟩,
            slash.2⟩
        rw [regex starts]
      refine ite_congr rfl (fun _ => rfl) fun _ => ?_
      refine ite_congr rfl (fun _ => rfl) fun _ => ?_
      refine ite_congr rfl (fun _ => rfl) fun _ => ?_
      refine ite_congr rfl (fun _ => rfl) fun _ => ?_
      refine ite_congr rfl (fun _ => ?_) fun _ => ?_
      · cases rest with
        | nil => exact absurd rfl fenced.ne_nil
        | cons first own =>
            rw [List.cons_append]
            split
            · rename_i after same
              obtain ⟨rfl, rfl⟩ := List.cons.inj same
              exact (fenced.tail rfl).assignable_append state .nullish more
            · rename_i after same
              obtain ⟨rfl, rfl⟩ := List.cons.inj same
              have behind := fenced.tail rfl
              rw [behind.head?_append, behind.startsMapCall_append]
              rfl
            · rename_i double dot
              split
              · rename_i same
                exact (double _ (congrArg (· ++ more) same)).elim
              · rename_i same
                exact (dot _ (congrArg (· ++ more) same)).elim
              · rfl
      refine ite_congr rfl (fun _ => rfl) fun _ => ?_
      refine ite_congr rfl (fun _ => rfl) fun _ => ?_
      refine ite_congr rfl (fun _ => rfl) fun _ => ?_
      refine ite_congr rfl (fun double => ?_) fun _ => ?_
      · obtain ⟨after, rfl, behind⟩ := fenced.tail_of_head? double.2 rfl
        exact behind.assignable_append state .andAnd more
      refine ite_congr rfl (fun double => ?_) fun _ => rfl
      obtain ⟨after, rfl, behind⟩ := fenced.tail_of_head? double.2 rfl
      exact behind.assignable_append state .orOr more

/-- What a closing bracket does does not depend on what follows. -/
theorem step_of_isClosing {state : LexState} (closing : isClosing c = true) (rest rest' : List Char)
    (markupLength markupLength' : Nat) :
    state.step c rest markupLength = state.step c rest' markupLength' := by
  unfold LexState.step
  cases state.mode with
  | lineComment | string | crashed => rfl
  | blockComment | template | code =>
      rcases isClosing_cases closing with rfl | rfl | rfl <;> simp [LexState.stepCode]

/-- Markup counts as an operand. -/
theorem step_of_opensMarkup {state : LexState} (opens : state.opensMarkup c rest = true)
    (markupLength : Nat) :
    (state.step c rest markupLength).1 =
      { state with previous := .value, skip := markupLength - 1 } := by
  have parts := opens
  simp only [LexState.opensMarkup, Bool.and_eq_true, beq_iff_eq] at parts
  obtain ⟨⟨⟨mode, rfl⟩, -⟩, -⟩ := parts
  simp [LexState.step, LexState.stepCode, mode, opens]

theorem closingFrom_skip {state : LexState} (skipped : 0 < state.skip) (c : Char)
    (rest : List Char) :
    closingFrom state (c :: rest) = (closingFrom state.tick rest).map (· + 1) := by
  rw [closingFrom, if_pos skipped]

theorem closingFrom_step {state : LexState} (fresh : state.skip = 0) (c : Char)
    (rest : List Char) :
    closingFrom state (c :: rest) =
      if (state.step c rest (state.markupLength c rest)).2 = some ⟨.closing, 1, 0⟩ then some 0
      else (closingFrom (state.step c rest (state.markupLength c rest)).1 rest).map (· + 1) := by
  rw [closingFrom, if_neg (by omega)]
  rfl

/-- The place of a closing bracket, behind what has been read already. -/
theorem closingFrom_place {state : LexState} {length : Nat}
    (found : closingFrom state text = some length) :
    state.skip ≤ length ∧ ∃ bracket, text[length]? = some bracket ∧ isClosing bracket = true := by
  induction text generalizing state length with
  | nil => cases found
  | cons c rest induction =>
      rcases Nat.eq_zero_or_pos state.skip with fresh | skipped
      · rw [closingFrom_step fresh] at found
        split at found
        · rename_i emitted
          cases found
          exact ⟨Nat.le_of_eq fresh, c, rfl, isClosing_of_step emitted⟩
        · obtain ⟨before, inner, rfl⟩ := Option.map_eq_some_iff.mp found
          obtain ⟨-, bracket, place, closing⟩ := induction inner
          exact ⟨by omega, bracket, place, closing⟩
      · rw [closingFrom_skip skipped] at found
        obtain ⟨before, inner, rfl⟩ := Option.map_eq_some_iff.mp found
        obtain ⟨passed, bracket, place, closing⟩ := induction inner
        rw [LexState.tick] at passed
        dsimp only at passed
        exact ⟨by omega, bracket, place, closing⟩

theorem closingFrom_lt {state : LexState} {length : Nat}
    (found : closingFrom state text = some length) : length < text.length := by
  obtain ⟨-, bracket, place, -⟩ := closingFrom_place found
  exact (List.getElem?_eq_some_iff.mp place).1

theorem closingFrom_fenced {state : LexState} {length : Nat}
    (found : closingFrom state text = some length) : Fenced text := by
  obtain ⟨-, bracket, place, closing⟩ := closingFrom_place found
  exact ⟨bracket, List.mem_of_getElem? place, closing⟩

/-! ## Markup -/

theorem markupEndFrom_skip {state : MarkupState} (skipped : 0 < state.skip) (c : Char)
    (rest : List Char) :
    markupEndFrom state (c :: rest) = (markupEndFrom state.tick rest).map (· + 1) := by
  rw [markupEndFrom, if_pos skipped]

theorem markupEndFrom_next {state next : MarkupState} (fresh : state.skip = 0)
    (step : state.step c rest = .next next) :
    markupEndFrom state (c :: rest) = (markupEndFrom next rest).map (· + 1) := by
  rw [markupEndFrom, if_neg (by omega), step]

theorem markupEndFrom_done {state : MarkupState} {more : Nat} (fresh : state.skip = 0)
    (step : state.step c rest = .done more) :
    markupEndFrom state (c :: rest) = some (more + 1) := by
  rw [markupEndFrom, if_neg (by omega), step]

theorem markupEndFrom_code {state : MarkupState} {length : Nat} (fresh : state.skip = 0)
    (step : state.step c rest = .code)
    (closing : closingFrom .afterOpening rest = some length) :
    markupEndFrom state (c :: rest) =
      (markupEndFrom { state with skip := length + 1 } rest).map (· + 1) := by
  rw [markupEndFrom, if_neg (by omega), step]
  dsimp only
  rw [closing]

/-- What the end of markup was found by. -/
theorem markupEndFrom_cases {state : MarkupState} {length : Nat} (fresh : state.skip = 0)
    (found : markupEndFrom state (c :: rest) = some length) :
    (∃ next before, state.step c rest = .next next ∧ markupEndFrom next rest = some before ∧
        length = before + 1) ∨
      (∃ more, state.step c rest = .done more ∧ length = more + 1) ∨
      ∃ inner before, state.step c rest = .code ∧ closingFrom .afterOpening rest = some inner ∧
        markupEndFrom { state with skip := inner + 1 } rest = some before ∧
        length = before + 1 := by
  cases step : state.step c rest with
  | next next =>
      rw [markupEndFrom_next fresh step] at found
      obtain ⟨before, inner, rfl⟩ := Option.map_eq_some_iff.mp found
      exact .inl ⟨next, before, rfl, inner, rfl⟩
  | done more =>
      rw [markupEndFrom_done fresh step] at found
      cases found
      exact .inr (.inl ⟨more, rfl, rfl⟩)
  | code =>
      cases closing : closingFrom .afterOpening rest with
      | none =>
          rw [markupEndFrom, if_neg (by omega), step] at found
          dsimp only at found
          rw [closing] at found
          cases found
      | some inner =>
          rw [markupEndFrom_code fresh step closing] at found
          obtain ⟨before, behind, rfl⟩ := Option.map_eq_some_iff.mp found
          exact .inr (.inr ⟨inner, before, rfl, rfl, behind, rfl⟩)

/-- What belongs to the end of markup is there. -/
theorem MarkupState.more_le_of_step {state : MarkupState} {more : Nat}
    (step : state.step c rest = .done more) : more ≤ rest.length := by
  revert step
  fun_cases MarkupState.step state c rest with
  | case5 | case14 =>
      rintro ⟨⟩
      exact Nat.zero_le _
  | case12 =>
      rename_i slash _
      rintro ⟨⟩
      cases rest with
      | nil => cases slash.2
      | cons first rest => exact Nat.succ_le_succ (Nat.zero_le _)
  | _ => rintro ⟨⟩

/-- The end of markup, behind what has been read already. -/
theorem markupEndFrom_bounds {state : MarkupState} {length : Nat}
    (found : markupEndFrom state text = some length) :
    state.skip < length ∧ length ≤ text.length := by
  induction text generalizing state length with
  | nil => cases found
  | cons c rest induction =>
      rw [List.length_cons]
      rcases Nat.eq_zero_or_pos state.skip with fresh | skipped
      · rcases markupEndFrom_cases fresh found with ⟨next, before, -, inner, rfl⟩ |
          ⟨more, step, rfl⟩ | ⟨code, before, -, -, inner, rfl⟩
        · have := induction inner
          omega
        · have := MarkupState.more_le_of_step step
          omega
        · have := induction inner
          omega
      · rw [markupEndFrom_skip skipped] at found
        obtain ⟨before, inner, rfl⟩ := Option.map_eq_some_iff.mp found
        have bounds := induction inner
        rw [MarkupState.tick] at bounds
        dsimp only at bounds
        omega

/-- One step of the reader looks at the next character and at tag names only. -/
theorem MarkupState.step_append {state : MarkupState} (nonempty : rest ≠ []) (more : List Char) :
    state.step c (rest ++ more) = state.step c rest ∨
      (state.step c rest = .next (enterTag state.depth rest) ∧
        state.step c (rest ++ more) = .next (enterTag state.depth (rest ++ more))) := by
  have head : (rest ++ more).head? = rest.head? := by
    cases rest with
    | nil => exact absurd rfl nonempty
    | cons first rest => rfl
  have tags := startsTag_append nonempty more
  unfold MarkupState.step
  rw [head, tags]
  split
  · by_cases closing : c = '<' ∧ rest.head? = some '/'
    · rw [if_pos closing, if_pos closing]
      exact .inl rfl
    · rw [if_neg closing, if_neg closing]
      by_cases opening : c = '<' ∧ startsTag rest
      · rw [if_pos opening, if_pos opening]
        exact .inr ⟨rfl, rfl⟩
      · rw [if_neg opening, if_neg opening]
        exact .inl rfl
  · exact .inl rfl
  · exact .inl rfl
  · exact .inl rfl

/-- A tag name that ends before the text does ends there. -/
theorem MarkupState.enterTag_append {depth length : Nat}
    (bounds : (enterTag depth rest).skip < length ∧ length ≤ rest.length) (more : List Char) :
    enterTag depth (rest ++ more) = enterTag depth rest := by
  have short : (rest.takeWhile isTagNamePart).length < rest.length :=
    Nat.lt_of_lt_of_le bounds.1 bounds.2
  rw [enterTag, takeWhile_append_of_lt short, enterTag]

/-- A step that ends the markup does so whatever follows. -/
theorem MarkupState.step_done_append {state : MarkupState} {extra : Nat}
    (step : state.step c rest = .done extra) (more : List Char) :
    state.step c (rest ++ more) = .done extra := by
  rcases eq_or_ne rest [] with rfl | nonempty
  · revert step
    fun_cases MarkupState.step state c [] with
    | case5 mode angle outer =>
        rintro ⟨⟩
        simp [MarkupState.step, mode, angle, outer]
    | case12 void _ _ _ slash => cases slash.2
    | case14 _ _ _ angle outer mode =>
        rintro ⟨⟩
        simp [MarkupState.step, mode, angle, outer]
    | _ => rintro ⟨⟩
  · rcases MarkupState.step_append nonempty more with same | ⟨tag, -⟩
    · exact same.trans step
    · rw [tag] at step
      cases step

mutual

/-- A closing bracket that was found stays where it is, whatever follows. -/
theorem closingFrom_append (more : List Char) :
    ∀ (text : List Char) {state : LexState} {length : Nat},
      closingFrom state text = some length → closingFrom state (text ++ more) = some length
  | [], _, _, found => by cases found
  | c :: rest, state, length, found => by
      rw [List.cons_append]
      rcases Nat.eq_zero_or_pos state.skip with fresh | skipped
      · rw [closingFrom_step fresh] at found ⊢
        split at found
        · rename_i emitted
          rw [step_of_isClosing (isClosing_of_step emitted) (rest ++ more) rest _
            (state.markupLength c rest), if_pos emitted]
          exact found
        · rename_i silent
          obtain ⟨before, inner, rfl⟩ := Option.map_eq_some_iff.mp found
          have fenced := closingFrom_fenced inner
          have short : (state.step c rest (state.markupLength c rest)).1.skip < rest.length :=
            Nat.lt_of_le_of_lt (closingFrom_place inner).1 (closingFrom_lt inner)
          have markup : state.markupLength c (rest ++ more) = state.markupLength c rest := by
            have opens : state.opensMarkup c (rest ++ more) = state.opensMarkup c rest := by
              rw [LexState.opensMarkup, startsTag_append fenced.ne_nil, LexState.opensMarkup]
            rw [LexState.markupLength, LexState.markupLength, opens]
            refine ite_congr rfl (fun starts => ?_) fun _ => rfl
            -- markup without an end would have passed over the bracket
            rw [step_of_opensMarkup starts, LexState.markupLength, if_pos starts] at short
            cases ends : markupEndFrom (.enterTag 0 rest) rest with
            | none => simp [ends] at short
            | some stop =>
                rw [MarkupState.enterTag_append (markupEndFrom_bounds ends),
                  markupEndFrom_append more rest ends]
                rfl
          have regex : state.AtRegex c rest →
              regexLength false (rest ++ more) = regexLength false rest := by
            intro starts
            rw [starts.step_eq] at short
            exact regexLength_append short more
          rw [markup, step_append fenced regex, if_neg silent, closingFrom_append more rest inner,
            Option.map_some]
      · rw [closingFrom_skip skipped] at found ⊢
        obtain ⟨before, inner, rfl⟩ := Option.map_eq_some_iff.mp found
        rw [closingFrom_append more rest inner, Option.map_some]

/-- Markup that was found to end ends there, whatever follows. -/
theorem markupEndFrom_append (more : List Char) :
    ∀ (text : List Char) {state : MarkupState} {length : Nat},
      markupEndFrom state text = some length → markupEndFrom state (text ++ more) = some length
  | [], _, _, found => by cases found
  | c :: rest, state, length, found => by
      rw [List.cons_append]
      rcases Nat.eq_zero_or_pos state.skip with fresh | skipped
      · rcases markupEndFrom_cases fresh found with ⟨next, before, step, inner, rfl⟩ |
          ⟨extra, step, rfl⟩ | ⟨code, before, step, closing, inner, rfl⟩
        · have nonempty : rest ≠ [] := by
            rintro rfl
            cases inner
          have onwards : state.step c (rest ++ more) = .next next := by
            rcases MarkupState.step_append nonempty more with same | ⟨tag, tag'⟩
            · exact same.trans step
            · rw [tag] at step
              cases step
              rw [tag', MarkupState.enterTag_append (markupEndFrom_bounds inner)]
          rw [markupEndFrom_next fresh onwards, markupEndFrom_append more rest inner,
            Option.map_some]
        · rw [markupEndFrom_done fresh (MarkupState.step_done_append step more)]
        · have onwards : state.step c (rest ++ more) = .code := by
            rcases MarkupState.step_append (closingFrom_fenced closing).ne_nil more with
              same | ⟨tag, -⟩
            · exact same.trans step
            · rw [tag] at step
              cases step
          rw [markupEndFrom_code fresh onwards (closingFrom_append more rest closing),
            markupEndFrom_append more rest inner, Option.map_some]
      · rw [markupEndFrom_skip skipped] at found ⊢
        obtain ⟨before, inner, rfl⟩ := Option.map_eq_some_iff.mp found
        rw [markupEndFrom_append more rest inner, Option.map_some]

end

end Code
end ReactiveTemplate
