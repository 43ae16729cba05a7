import ReactiveTemplate.Proofs.Code.Cut

/-!
# Code between brackets

What the lexer keeps to between an opening bracket and the one that closes it, and how far it looks:
a step reads ahead only what is there, and in front of a closing bracket, with blank characters in
between or not, it does the same whatever the bracket is.  Only a word and a regular expression can
reach up to the bracket, and a regular expression that is not closed needs the end of a line to stop
in front of it.
-/

namespace ReactiveTemplate
namespace Code

variable {text rest tail blanks : List Char} {c : Char} {state : LexState}

/-! ## Invariants of code in brackets -/

/-- Between an opening bracket and the one that closes it. -/
structure LexState.Inner (state : LexState) : Prop where
  /-- The opening bracket is open. -/
  depth : 1 ≤ state.depth
  /-- The lexer has not crashed. -/
  runs : state.mode ≠ .crashed
  /-- All interpolations have been opened behind it. -/
  interpolations : ∀ depth ∈ state.interpolations, 1 ≤ depth
  /-- Strings stand in quotes. -/
  quote : ∀ quote, state.mode = .string quote → quote = '"' ∨ quote = '\x27'

/-- Another state at the same depth, in the same kind of text. -/
theorem LexState.Inner.keep (inner : state.Inner) {next : LexState}
    (depth : next.depth = state.depth) (interpolations : next.interpolations = state.interpolations)
    (mode : next.mode = state.mode) : next.Inner :=
  ⟨depth ▸ inner.depth, mode ▸ inner.runs, interpolations ▸ inner.interpolations,
    mode ▸ inner.quote⟩

theorem LexState.Inner.tick (inner : state.Inner) : state.tick.Inner := inner.keep rfl rfl rfl

/-- Another state at the same depth, in no string. -/
theorem LexState.Inner.leave (inner : state.Inner) {next : LexState}
    (depth : next.depth = state.depth) (interpolations : next.interpolations = state.interpolations)
    (runs : next.mode ≠ .crashed) (mode : ∀ quote, next.mode ≠ .string quote) : next.Inner :=
  ⟨depth ▸ inner.depth, runs, interpolations ▸ inner.interpolations, fun quote same =>
    absurd same (mode quote)⟩

theorem LexState.Inner.pass (inner : state.Inner) (previous : Previous) (skip : Nat) :
    (state.pass previous skip).1.Inner :=
  inner.keep rfl rfl rfl

/-- Above depth zero a brace leads back to the text of the template. -/
theorem endInterpolation_of_pos (depth : 1 ≤ state.depth) :
    state.endInterpolation =
      { state with
        interpolations := state.interpolations.tail
        depth := state.depth - 1
        mode := .template } :=
  if_neg (by omega)

theorem LexState.Inner.close (inner : state.Inner)
    (silent : (state.close c).2 ≠ some ⟨.closing, 1, 0⟩) : (state.close c).1.Inner := by
  have depth := inner.depth
  unfold LexState.close LexState.closedDepth at silent ⊢
  split
  · rename_i ends
    have outer : 1 ≤ state.depth - 1 := inner.interpolations _ (List.mem_of_head? ends.2)
    rw [endInterpolation_of_pos depth]
    exact ⟨outer, by simp, fun depth mem => inner.interpolations depth (List.mem_of_mem_tail mem),
      by simp⟩
  · rename_i ends
    rw [if_neg ends] at silent
    have apart : state.depth - 1 ≠ 0 := by
      intro zero
      exact silent (by rw [zero])
    exact ⟨by dsimp only; omega, inner.runs, inner.interpolations, inner.quote⟩

theorem LexState.Inner.assignable (inner : state.Inner) (kind : TokenKind) (text : List Char) :
    (state.assignable kind text).1.Inner := by
  unfold LexState.assignable
  split <;> exact inner.keep rfl rfl rfl

theorem LexState.Inner.stepCode (inner : state.Inner) {markupLength : Nat}
    (silent : (state.stepCode c rest markupLength).2 ≠ some ⟨.closing, 1, 0⟩) :
    (state.stepCode c rest markupLength).1.Inner := by
  revert silent
  fun_cases LexState.stepCode state c rest markupLength with
  | case5 _ _ _ _ _ quotes =>
      exact fun _ => ⟨inner.depth, by simp, inner.interpolations, by rintro _ ⟨⟩; exact quotes⟩
  | case7 =>
      exact fun _ => ⟨Nat.le_add_right_of_le inner.depth, inner.runs, inner.interpolations,
        inner.quote⟩
  | case8 => exact inner.close
  | case9 | case19 | case20 => exact fun _ => inner.assignable ..
  | case2 | case3 | case6 => exact fun _ => inner.leave rfl rfl (by simp) (by simp)
  | _ => exact fun _ => inner.keep rfl rfl rfl

/-- What is read leads out of the brackets only at their closing one, and the lexer does not crash
before. -/
theorem LexState.Inner.read (inner : state.Inner)
    (silent : (state.read c rest).2 ≠ some ⟨.closing, 1, 0⟩) : (state.read c rest).1.Inner := by
  revert silent
  unfold LexState.read
  fun_cases LexState.step state c rest (state.markupLength c rest) with
  | case1 =>
      intro _
      split
      · exact inner.leave rfl rfl (by simp) (by simp)
      · exact inner
  | case9 =>
      refine fun _ => ⟨Nat.le_add_right_of_le inner.depth, by simp, ?_, by simp⟩
      exact List.forall_mem_cons.mpr ⟨inner.depth, inner.interpolations⟩
  | case3 | case6 | case10 | case12 => exact fun _ => inner
  | case4 | case7 => exact fun _ => inner.keep rfl rfl rfl
  | case11 => exact inner.stepCode
  | _ => exact fun _ => inner.leave rfl rfl (by simp) (by simp)

/-! ## What a step reads ahead -/

theorem regexLength_le (inClass : Bool) (text : List Char) :
    regexLength inClass text ≤ text.length := by
  fun_induction regexLength inClass text with
  | case1 | case7 => exact Nat.zero_le _
  | case2 => exact Nat.le_refl 1
  | case3 _ _ _ induction => exact Nat.add_le_add_right induction 2
  | case4 _ _ induction | case5 _ _ induction | case8 _ _ _ _ _ _ _ _ _ induction =>
      exact Nat.add_le_add_right induction 1
  | case6 => exact Nat.add_le_add_right (List.takeWhile_prefix _).length_le 1

theorem length_of_startsMapCall (starts : startsMapCall text = true) : 3 ≤ text.length := by
  unfold startsMapCall at starts
  split at starts
  · simp
  · cases starts

theorem length_tail_of_head? (head : text.head? = some c) : text.tail.length + 1 = text.length := by
  cases text with
  | nil => cases head
  | cons => rfl

theorem one_le_length (head : text.head? = some c) : 1 ≤ text.length :=
  length_tail_of_head? head ▸ Nat.le_add_left 1 _

theorem skip_assignable_le (kind : TokenKind) (text : List Char) :
    (state.assignable kind text).1.skip ≤ text.length + 1 := by
  unfold LexState.assignable
  split <;> simp [LexState.operator]

theorem skip_stepCode_le (fresh : state.skip = 0) {markupLength : Nat}
    (length : markupLength ≤ rest.length + 1)
    (mode : (state.stepCode c rest markupLength).1.mode = .code) :
    (state.stepCode c rest markupLength).1.skip ≤ rest.length := by
  revert mode
  fun_cases LexState.stepCode state c rest markupLength with
  | case2 | case3 => rintro ⟨⟩
  | case4 => exact fun _ => regexLength_le ..
  | case8 =>
      intro _
      rw [skip_close, fresh]
      exact Nat.zero_le _
  | case9 => exact fun _ => skip_assignable_le ..
  | case11 => exact fun _ => Nat.succ_le_succ (length_of_startsMapCall ‹_›)
  | case12 => exact fun _ => Nat.succ_le_succ (Nat.zero_le _)
  | case14 => exact fun _ => length_of_startsMapCall ‹_›
  | case19 | case20 =>
      rename_i double
      exact fun _ => length_tail_of_head? double.2 ▸ skip_assignable_le ..
  | case21 =>
      rename_i arrow
      exact fun _ => one_le_length arrow.2
  | case22 => exact fun _ => Nat.sub_le_of_le_add length
  | case23 => exact fun _ => (List.takeWhile_prefix _).length_le
  | case10 | case13 | case16 | case17 | case18 | case24 => exact fun _ => Nat.zero_le _
  | case1 | case5 | case6 | case7 | case15 => exact fun _ => fresh ▸ Nat.zero_le _

theorem markupLength_le (state : LexState) (c : Char) (rest : List Char) :
    state.markupLength c rest ≤ rest.length + 1 := by
  unfold LexState.markupLength
  split
  · cases ends : markupEndFrom (.enterTag 0 rest) rest with
    | none => exact Nat.le_refl _
    | some stop => exact Nat.succ_le_succ (markupEndFrom_bounds ends).2
  · exact Nat.zero_le _

/-- In code nothing is read ahead that is not there. -/
theorem skip_read_le (fresh : state.skip = 0) (mode : (state.read c rest).1.mode = .code) :
    (state.read c rest).1.skip ≤ rest.length := by
  revert mode
  unfold LexState.read
  fun_cases LexState.step state c rest (state.markupLength c rest) with
  | case1 =>
      intro _
      split <;> exact fresh ▸ Nat.zero_le _
  | case2 _ ends => exact fun _ => one_le_length ends.2
  | case4 _ mode =>
      intro own
      cases mode.symm.trans own
  | case7 mode =>
      intro own
      cases mode.symm.trans own
  | case9 _ _ _ opens => exact fun _ => one_le_length opens.2
  | case11 => exact skip_stepCode_le fresh (markupLength_le ..)
  | _ => exact fun _ => fresh ▸ Nat.zero_le _

/-! ## In front of a bracket -/

/-- The text begins with the blank characters and a closing bracket. -/
def Closes (blanks tail : List Char) : Prop :=
  blanks.all Text.isBlank = true ∧
    ∃ bracket more, tail = blanks ++ bracket :: more ∧ isClosing bracket = true

theorem Closes.gap (closes : Closes blanks tail) : Gap blanks.length tail := by
  obtain ⟨blank, bracket, more, rfl, closing⟩ := closes
  exact ⟨blanks, bracket, more, rfl, blank, by rw [isStop, closing, Bool.or_true], rfl⟩

theorem isAlpha_of_isSeparator (separates : isSeparator c = true) : c.isAlpha = false := by
  have word := isAlphanum_of_isSeparator separates
  rw [Char.isAlphanum, Bool.or_eq_false_iff] at word
  exact word.1

theorem Gap.flagsLength_append {width : Nat} (gap : Gap width tail) (text : List Char) :
    flagsLength (text ++ tail) = flagsLength text := by
  obtain ⟨separator, more, rfl, separates, -⟩ := gap.head
  rw [flagsLength, flagsLength, List.takeWhile_append, List.takeWhile_cons_of_neg
    (by simp [isAlpha_of_isSeparator separates]), List.append_nil]
  split
  · rename_i all
    exact all.symm
  · rfl

/-- Blank characters and closing brackets belong to a regular expression, up to the end of the
line. -/
theorem Closes.lt_regexLength (closes : Closes blanks tail) (line : '\n' ∉ blanks)
    (inClass : Bool) : blanks.length < regexLength inClass tail := by
  obtain ⟨blank, bracket, more, rfl, closing⟩ := closes
  induction blanks with
  | nil => rcases isClosing_cases closing with rfl | rfl | rfl <;> simp [regexLength]
  | cons first blanks induction =>
      rw [List.all_cons, Bool.and_eq_true] at blank
      rw [List.mem_cons, not_or] at line
      have apart (other : Char) (visible : Text.isBlank other = false) : first ≠ other := by
        rintro rfl
        rw [blank.1] at visible
        cases visible
      rw [List.cons_append, regexLength_cons (apart _ rfl) (apart _ rfl) (apart _ rfl),
        if_neg fun slash => apart _ rfl slash.1, if_neg fun same => line.1 same.symm]
      exact Nat.succ_lt_succ (induction line.2 blank.2)

/-- A regular expression at the end of code is the same in front of another bracket, or the end of
the line belongs to what stands in front of the first one. -/
theorem Closes.regexLength_cases {tail' : List Char} {inClass : Bool} (closes : Closes blanks tail)
    (closes' : Closes [] tail')
    (inside : regexLength inClass (text ++ tail) ≤ text.length + blanks.length) :
    (regexLength inClass (text ++ tail) = regexLength inClass (text ++ tail') ∧
      regexLength inClass (text ++ tail) ≤ text.length) ∨
    text.length ≤ regexLength inClass (text ++ tail) ∧
      text.length ≤ regexLength inClass (text ++ tail') ∧ '\n' ∈ blanks := by
  fun_induction regexLength inClass text with
  | case1 inClass =>
      by_cases line : '\n' ∈ blanks
      · exact .inr ⟨Nat.zero_le _, Nat.zero_le _, line⟩
      · have long := closes.lt_regexLength line inClass
        rw [List.nil_append, List.length_nil] at inside
        omega
  | case2 inClass =>
      -- the escape takes the first character behind the code
      obtain ⟨blank, bracket, more, rfl, closing⟩ := closes
      obtain ⟨-, bracket', more', rfl, -⟩ := closes'
      right
      cases blanks with
      | nil =>
          simp only [List.cons_append, List.nil_append, regexLength, List.length_cons,
            List.length_nil] at inside
          omega
      | cons first blanks =>
          rw [List.all_cons, Bool.and_eq_true] at blank
          simp only [List.cons_append, List.nil_append, regexLength, List.length_cons,
            List.length_nil] at inside ⊢
          refine ⟨by omega, by omega, List.mem_cons_of_mem _ ?_⟩
          by_contra line
          have behind : Closes blanks (blanks ++ bracket :: more) :=
            ⟨blank.2, bracket, more, rfl, closing⟩
          have long := behind.lt_regexLength line inClass
          omega
  | case3 inClass escaped rest induction =>
      simp only [List.length_cons, List.cons_append, regexLength] at inside ⊢
      have := induction (by omega)
      grind
  | case4 _ rest induction | case5 _ rest induction =>
      simp only [List.length_cons, List.cons_append, regexLength] at inside ⊢
      have := induction (by omega)
      grind
  | case6 inClass c rest lone escape opening closing slash =>
      have unescaped : c ≠ '\\' := ne_backslash lone escape
      left
      rw [List.cons_append, List.cons_append, regexLength_cons unescaped opening closing,
        regexLength_cons unescaped opening closing, if_pos slash, if_pos slash,
        closes.gap.flagsLength_append, closes'.gap.flagsLength_append]
      exact ⟨rfl, Nat.succ_le_succ (List.takeWhile_prefix _).length_le⟩
  | case7 inClass rest =>
      left
      rw [List.cons_append, List.cons_append, regexLength_cons (by decide) (by decide) (by decide),
        if_neg (by simp), if_pos rfl, regexLength_cons (by decide) (by decide) (by decide),
        if_neg (by simp), if_pos rfl]
      exact ⟨rfl, Nat.zero_le _⟩
  | case8 inClass c rest lone escape opening closing slash line induction =>
      have unescaped : c ≠ '\\' := ne_backslash lone escape
      simp only [List.length_cons, List.cons_append, regexLength_cons unescaped opening closing,
        if_neg slash, if_neg line] at inside ⊢
      have := induction (by omega)
      grind

/-- Markup ends with an angle bracket. -/
theorem angle_of_markupEndFrom {state : MarkupState} {length : Nat}
    (found : markupEndFrom state text = some length) : text[length - 1]? = some '>' := by
  induction text generalizing state length with
  | nil => cases found
  | cons c rest induction =>
      have behind {next : MarkupState} {before : Nat}
          (inner : markupEndFrom next rest = some before) :
          (c :: rest)[before + 1 - 1]? = some '>' := by
        have positive : 0 < before := Nat.zero_lt_of_lt (markupEndFrom_bounds inner).1
        obtain ⟨before, rfl⟩ := Nat.exists_eq_add_of_le' positive
        exact induction inner
      rcases Nat.eq_zero_or_pos state.skip with fresh | skipped
      · rcases markupEndFrom_cases fresh found with ⟨next, before, -, inner, rfl⟩ |
          ⟨more, step, rfl⟩ | ⟨code, before, -, -, inner, rfl⟩
        · exact behind inner
        · revert step
          fun_cases MarkupState.step state c rest with
          | case5 _ angle =>
              rintro ⟨⟩
              exact congrArg some angle
          | case14 _ _ _ angle =>
              rintro ⟨⟩
              exact congrArg some angle
          | case12 _ _ _ _ slash =>
              rintro ⟨⟩
              obtain ⟨after, rfl⟩ := List.head?_eq_some_iff.mp slash.2
              rfl
          | _ => rintro ⟨⟩
        · exact behind inner
      · rw [markupEndFrom_skip skipped] at found
        obtain ⟨before, inner, rfl⟩ := Option.map_eq_some_iff.mp found
        exact behind inner

/-- Markup that ends in front of the bracket ends in front of the blank characters. -/
theorem Closes.markupEndFrom_le (closes : Closes blanks tail) {state : MarkupState} {length : Nat}
    (found : markupEndFrom state (rest ++ tail) = some length)
    (inside : length ≤ rest.length + blanks.length) : length ≤ rest.length := by
  by_contra long
  obtain ⟨blank, bracket, more, rfl, -⟩ := closes
  have angle := angle_of_markupEndFrom found
  rw [List.getElem?_append_right (by omega), List.getElem?_append_left (by omega)] at angle
  cases List.all_eq_true.mp blank _ (List.mem_of_getElem? angle)

/-- Markup that ends in front of the bracket is the same whatever follows. -/
theorem Closes.markupRest_eq (closes : Closes blanks tail)
    (inside : markupRest (rest ++ tail) ≤ rest.length + blanks.length) (more : List Char) :
    markupRest (rest ++ tail) = markupRest (rest ++ more) ∧
      markupRest (rest ++ tail) ≤ rest.length := by
  cases ends : markupEndFrom (.enterTag 0 (rest ++ tail)) (rest ++ tail) with
  | none =>
      obtain ⟨-, bracket, more, rfl, -⟩ := closes
      rw [markupRest, ends, Option.getD_none, List.length_append, List.length_append,
        List.length_cons] at inside
      omega
  | some stop =>
      rw [markupRest, ends, Option.getD_some] at inside ⊢
      have short := closes.markupEndFrom_le ends inside
      have name := MarkupState.enterTag_of_append
        (Nat.lt_of_lt_of_le (markupEndFrom_bounds ends).1 short)
      rw [← name] at ends
      have cut := markupEndFrom_of_append tail rest ends short
      rw [markupRest, MarkupState.enterTag_append (markupEndFrom_bounds cut),
        markupEndFrom_append more rest cut]
      exact ⟨rfl, short⟩

theorem Closes.head? (closes : Closes blanks tail) : tail.head?.any isSign = false := by
  obtain ⟨blank, bracket, more, rfl, closing⟩ := closes
  cases blanks with
  | nil => rcases isClosing_cases closing with rfl | rfl | rfl <;> rfl
  | cons first blanks =>
      rw [List.all_cons, Bool.and_eq_true] at blank
      rw [List.cons_append, List.head?_cons, Option.any_some, Bool.eq_false_iff]
      intro sign
      rw [isSign] at sign
      simp only [Bool.or_eq_true, beq_iff_eq] at sign
      rcases sign with (rfl | rfl) | rfl <;> cases blank.1

/-- Where a word reaches up to the end of the code, all of the rest belongs to it. -/
theorem length_takeWhile_append {kind : Char → Bool}
    (long : rest.length ≤ (rest.takeWhile kind).length) (more : List Char) :
    ((rest ++ more).takeWhile kind).length = rest.length + (more.takeWhile kind).length := by
  have whole : rest.takeWhile kind = rest :=
    (List.takeWhile_prefix kind).eq_of_length_le long
  rw [List.takeWhile_append, if_pos (congrArg List.length whole), List.length_append]

/-- A step in front of blank characters and a bracket is the same in front of another bracket, or it
reads a word or a regular expression that reaches up to them. -/
theorem Closes.read_cases {tail' : List Char} (closes : Closes blanks tail)
    (closes' : Closes [] tail') (fresh : state.skip = 0)
    (inside : (state.read c (rest ++ tail)).1.skip ≤ rest.length + blanks.length) :
    state.read c (rest ++ tail) = state.read c (rest ++ tail') ∧
      ((state.read c (rest ++ tail)).1.mode = .code →
        (state.read c (rest ++ tail)).1.skip ≤ rest.length) ∨
    state.mode = .code ∧ ∃ previous skip previous' skip',
      state.read c (rest ++ tail) = state.pass previous skip ∧
      state.read c (rest ++ tail') = state.pass previous' skip' ∧
      rest.length ≤ skip ∧ rest.length ≤ skip' ∧ ('\n' ∈ blanks ∨ skip' = rest.length) := by
  have gap := closes.gap
  have gap' := closes'.gap
  by_cases regex : state.AtRegex c rest
  · rw [(regex.append gap).read_eq] at inside ⊢
    rw [(regex.append gap').read_eq]
    rcases closes.regexLength_cases closes' inside with ⟨same, short⟩ | ⟨long, long', line⟩
    · exact .inl ⟨congrArg _ same, fun _ => short⟩
    · exact .inr ⟨regex.1, _, _, _, _, rfl, rfl, long, long', .inl line⟩
  by_cases opens : state.opensMarkup c rest = true
  · rw [read_of_opensMarkup ((gap.opensMarkup_append ..).trans opens)] at inside ⊢
    rw [read_of_opensMarkup ((gap'.opensMarkup_append ..).trans opens)]
    obtain ⟨same, short⟩ := closes.markupRest_eq inside tail'
    exact .inl ⟨by rw [same], fun _ => short⟩
  by_cases word : state.mode = .code ∧ isWordPart c = true
  · unfold LexState.read
    rw [step_of_isWordPart word.1 word.2, step_of_isWordPart word.1 word.2]
    rcases Nat.lt_or_ge (rest.takeWhile isWordPart).length rest.length with short | long
    · rw [takeWhile_append_of_lt short, takeWhile_append_of_lt short]
      exact .inl ⟨rfl, fun _ => Nat.le_of_lt short⟩
    · have lengths := length_takeWhile_append long
      obtain ⟨-, bracket, more, rfl, closing⟩ := closes'
      refine .inr ⟨word.1, _, _, _, _, rfl, rfl, ?_, ?_, .inr ?_⟩
      · exact lengths tail ▸ Nat.le_add_right _ _
      · exact lengths _ ▸ Nat.le_add_right _ _
      · rw [lengths, List.nil_append,
          List.takeWhile_cons_of_neg (by simp [isWordPart_of_isClosing closing])]
        rfl
  · have plain : state.opensMarkup c rest = false := by simpa using opens
    have other : state.mode = .code → isWordPart c = false := by
      simpa using fun mode part => word ⟨mode, part⟩
    have same {blanks tail : List Char} (closes : Closes blanks tail) :
        state.read c rest = state.read c (rest ++ tail) :=
      step_gap closes.gap regex plain other fun sign => by
        rw [closes.head?] at sign
        cases sign
    rw [← same closes, ← same closes']
    exact .inl ⟨rfl, skip_read_le fresh⟩

end Code
end ReactiveTemplate
