import ReactiveTemplate.Proofs.Code.Bytes
import ReactiveTemplate.Proofs.Code.Cut

/-!
# Steps through bytes

In the bytes of a text, each state of the lexer is that of the text with what has been read ahead
counted in bytes.  Only behind a backslash it differs: one byte of the character is passed over, and
the others are read as part of the string or the template, where nothing beyond ASCII matters.  The
first byte of a character is read as the character is.
-/

namespace ReactiveTemplate
namespace Code

open Text

variable {rest : List Char} {b c : Char} {state : LexState}

/-! ## States between bytes -/

/-- A backslash passes over what stands behind it. -/
def Mode.escapes : Mode → Bool
  | .string _ | .template => true
  | _ => false

/-- The same state between the bytes of a text.  What has been read ahead is counted in bytes, but
behind a backslash it is one byte of the character. -/
def LexState.inBytes (state : LexState) (ahead : List Char) : LexState :=
  { state with skip := if state.mode.escapes then state.skip else byteOffset ahead state.skip }

/-- The same token in the bytes of a text. -/
def Emission.inBytes (text : List Char) (e : Emission) : Emission :=
  { e with length := byteOffset text e.length }

/-- The outcome of a step, counted in bytes. -/
def countBytes (c : Char) (rest : List Char) (outcome : LexState × Option Emission) :
    LexState × Option Emission :=
  (outcome.1.inBytes rest, outcome.2.map (.inBytes (c :: rest)))

/-- Strings stand in quotes of ASCII, and a backslash passes over one character. -/
structure LexState.Proper (state : LexState) : Prop where
  /-- The quote of a string is a character of ASCII. -/
  quote : ∀ quote, state.mode = .string quote → quote.toNat < 0x80
  /-- In strings and templates, no more than one character has been read ahead. -/
  skip : state.mode.escapes = true → state.skip ≤ 1

namespace LexState.Proper

theorem of_code {next : LexState} (mode : next.mode.escapes = false) : next.Proper := by
  refine ⟨fun quote string => ?_, fun escapes => ?_⟩
  · rw [string] at mode
    cases mode
  · rw [mode] at escapes
    cases escapes

theorem tick (proper : state.Proper) : state.tick.Proper :=
  ⟨proper.quote, fun escapes => Nat.le_trans (Nat.sub_le _ _) (proper.skip escapes)⟩

theorem inBytes (proper : state.Proper) {ahead : List Char} : (state.inBytes ahead).Proper := by
  refine ⟨proper.quote, fun escapes => ?_⟩
  have single := proper.skip escapes
  rw [LexState.inBytes] at escapes ⊢
  dsimp only at escapes ⊢
  rwa [if_pos escapes]

theorem stepCode (proper : state.Proper) (fresh : state.skip = 0) (mode : state.mode = .code)
    {markupLength : Nat} : (state.stepCode c rest markupLength).1.Proper := by
  have plain : state.mode.escapes = false := by rw [mode]; rfl
  have template (next : LexState) (mode : next.mode = .template) (skip : next.skip = state.skip) :
      next.Proper := by
    refine ⟨fun quote string => ?_, fun _ => by omega⟩
    rw [mode] at string
    cases string
  fun_cases LexState.stepCode state c rest markupLength with
  | case5 _ _ _ _ _ quotes =>
      -- the quote that opens a string
      refine ⟨?_, fun _ => by dsimp only; omega⟩
      rintro _ ⟨⟩
      rcases quotes with rfl | rfl <;> decide
  | case6 => exact template _ rfl rfl
  | case8 =>
      -- a brace may lead back to the template around an interpolation
      unfold LexState.close LexState.endInterpolation
      split_ifs
      · exact of_code rfl
      · exact template _ rfl rfl
      · exact of_code plain
  | case9 | case19 | case20 =>
      unfold LexState.assignable
      split <;> exact of_code plain
  | case1 => exact proper
  | case2 | case3 => exact of_code rfl
  | _ => exact of_code plain

theorem read (proper : state.Proper) (fresh : state.skip = 0) : (state.read c rest).1.Proper := by
  unfold LexState.read
  fun_cases LexState.step state c rest (state.markupLength c rest) with
  | case1 =>
      split
      · exact of_code rfl
      · exact proper
  | case3 | case6 | case10 | case12 => exact proper
  -- a backslash
  | case4 | case7 => exact ⟨proper.quote, fun _ => Nat.le_refl 1⟩
  | case11 mode => exact proper.stepCode fresh mode
  | _ => exact of_code rfl

theorem of_read (proper : state.Proper) (fresh : state.skip = 0) {next : LexState}
    {emitted : Option Emission} (read : state.read c rest = (next, emitted)) : next.Proper := by
  have after : (state.read c rest).1.Proper := proper.read fresh
  rwa [read] at after

end LexState.Proper

/-- Outside of code, nothing beyond ASCII matters. -/
theorem LexState.Proper.read_of_beyond (proper : state.Proper) (mode : state.mode ≠ .code)
    (beyond : 0x80 ≤ c.toNat) (rest : List Char) : state.read c rest = (state, none) := by
  have apart := ne_of_beyond beyond
  unfold LexState.read LexState.step
  cases kind : state.mode with
  | code => exact absurd kind mode
  | crashed => rfl
  | lineComment => simp [apart '\n']
  | blockComment => simp [apart '*']
  | template => simp [apart '\\', apart '\x60', apart '$']
  | string quote => simp [apart '\\', apart quote (proper.quote quote kind), apart '\n']

/-! ## Steps -/

/-- Two choices between the same cases, one of them under a function. -/
theorem ite_eq_map {α β : Type} {f : α → β} {p q : Prop} [Decidable p] [Decidable q] {yes no : α}
    {yes' no' : β} (same : p ↔ q) (left : q → yes' = f yes) (right : ¬ q → no' = f no) :
    (if p then yes' else no') = f (if q then yes else no) := by
  rw [apply_ite f]
  exact ite_congr (propext same) left right

section

theorem LexState.inBytes_of_fresh (fresh : state.skip = 0) (ahead : List Char) :
    state.inBytes ahead = state := by
  obtain ⟨mode, depth, interpolations, previous, _⟩ := state
  cases fresh
  rw [LexState.inBytes, byteOffset_zero, ite_self]

/-- Where what is read ahead and the token are of ASCII, bytes count like characters. -/
theorem eq_countBytes {next : LexState} {emitted : Option Emission}
    (ahead : next.mode.escapes = false → byteOffset rest next.skip = next.skip)
    (token : ∀ e, emitted = some e → byteOffset (c :: rest) e.length = e.length) :
    (next, emitted) = countBytes c rest (next, emitted) := by
  have state : next.inBytes rest = next := by
    rw [LexState.inBytes]
    split
    · rfl
    · rename_i plain
      rw [ahead (by simpa using plain)]
  have whole : emitted.map (Emission.inBytes (c :: rest)) = emitted := by
    cases emitted with
    | none => rfl
    | some e => rw [Option.map_some, Emission.inBytes, token e rfl]
  rw [countBytes, state, whole]

theorem eq_countBytes_of_ahead {next : LexState} (ahead : byteOffset rest next.skip = next.skip) :
    (next, none) = countBytes c rest (next, none) := by
  refine eq_countBytes (fun _ => ahead) ?_
  rintro _ ⟨⟩

theorem eq_countBytes_of_fresh {next : LexState} (fresh : next.skip = 0) :
    (next, none) = countBytes c rest (next, none) :=
  eq_countBytes_of_ahead (by rw [fresh, byteOffset_zero])

theorem eq_countBytes_of_escapes {next : LexState} (escapes : next.mode.escapes = true) :
    (next, none) = countBytes c rest (next, none) := by
  refine eq_countBytes (fun plain => ?_) ?_
  · rw [escapes] at plain
    cases plain
  · rintro _ ⟨⟩

theorem byteOffset_one (head : rest.head? = some c) (ascii : c.toNat < 0x80) :
    byteOffset rest 1 = 1 := by
  obtain ⟨behind, rfl⟩ := List.head?_eq_some_iff.mp head
  rw [byteOffset_cons, byteOffset_zero, utf8Size_of_ascii ascii]

variable (ascii : c.toNat < 0x80)
include ascii

theorem operator_countBytes (state : LexState) (kind : TokenKind) {skip : Nat}
    (ahead : byteOffset rest skip = skip) :
    state.operator kind (skip + 1) = countBytes c rest (state.operator kind (skip + 1)) := by
  refine eq_countBytes (fun _ => ahead) ?_
  rintro _ ⟨⟩
  dsimp only
  rw [byteOffset_cons, ahead, utf8Size_of_ascii ascii, Nat.add_comm]

theorem assignable_countBytes {sign : Char} (small : sign.toNat < 0x80) (state : LexState)
    (kind : TokenKind) (after : List Char) :
    state.assignable kind (encode after) =
      countBytes c (sign :: after) (state.assignable kind after) := by
  rw [assignable_encode]
  unfold LexState.assignable
  split
  · exact operator_countBytes ascii state kind
      (byteOffset_of_ascii [sign, '='] (by simp [small]) ⟨_, rfl⟩)
  · exact operator_countBytes ascii state kind (byteOffset_one rfl small)

omit ascii in
/-- The name in a call is of ASCII. -/
theorem byteOffset_mapCall (starts : startsMapCall text = true) : byteOffset text 3 = 3 := by
  unfold startsMapCall at starts
  split at starts
  · exact byteOffset_of_ascii ['m', 'a', 'p'] (by simp) ⟨_, rfl⟩
  · cases starts

omit ascii in
theorem readQuestion_other (double : rest.head? ≠ some '?') (dot : rest.head? ≠ some '.') :
    state.readQuestion rest = state.operator .question 1 := by
  unfold LexState.readQuestion
  split
  · exact absurd rfl double
  · exact absurd rfl dot
  · rfl

theorem readQuestion_countBytes (state : LexState) (rest : List Char) :
    state.readQuestion (encode rest) = countBytes c rest (state.readQuestion rest) := by
  by_cases double : rest.head? = some '?'
  · obtain ⟨after, rfl⟩ := List.head?_eq_some_iff.mp double
    rw [encode_cons_of_ascii (by decide)]
    exact assignable_countBytes ascii (by decide) state .nullish after
  by_cases dot : rest.head? = some '.'
  · obtain ⟨after, rfl⟩ := List.head?_eq_some_iff.mp dot
    rw [encode_cons_of_ascii (by decide)]
    simp only [LexState.readQuestion, any_head?_encode isDigit_of_beyond, startsMapCall_encode]
    refine ite_eq_map .rfl (fun _ => ?_) fun _ => ite_eq_map .rfl (fun call => ?_) fun _ => ?_
    · exact operator_countBytes ascii state .question (byteOffset_zero _)
    · have name : byteOffset ('.' :: after) 4 = 4 := by
        rw [byteOffset_cons, byteOffset_mapCall call, utf8Size_of_ascii (by decide)]
      exact operator_countBytes ascii state .mapCall name
    · exact eq_countBytes_of_ahead (byteOffset_one rfl (by decide))
  · rw [readQuestion_other double dot, readQuestion_other]
    · exact operator_countBytes ascii state .question (byteOffset_zero _)
    · rwa [ne_eq, head?_encode (by decide)]
    · rwa [ne_eq, head?_encode (by decide)]

theorem close_countBytes (state : LexState) (fresh : state.skip = 0) :
    state.close c = countBytes c rest (state.close c) := by
  unfold LexState.close
  split
  · exact eq_countBytes_of_fresh ((skip_endInterpolation state).trans fresh)
  · refine eq_countBytes (fun _ => by rw [fresh, byteOffset_zero]) ?_
    rintro _ ⟨⟩
    rw [byteOffset_cons, byteOffset_zero, utf8Size_of_ascii ascii]

/-- A step that reads no word, no regular expression and no markup. -/
theorem step_countBytes (fresh : state.skip = 0) (regex : ¬ state.AtRegex c rest)
    (plain : state.opensMarkup c rest = false) (word : state.mode = .code → isWordPart c = false)
    (markupLength markupLength' : Nat) :
    state.step c (encode rest) markupLength' =
      countBytes c rest (state.step c rest markupLength) := by
  have head (sign : Char) (small : sign.toNat < 0x80) :
      (encode rest).head? = some sign ↔ rest.head? = some sign := head?_encode small rest
  have start : byteOffset rest 0 = 0 := byteOffset_zero rest
  cases mode : state.mode with
  | crashed =>
      simp only [LexState.step, mode]
      exact eq_countBytes_of_fresh fresh
  | lineComment =>
      simp only [LexState.step, mode]
      split
      · exact eq_countBytes_of_fresh fresh
      · exact eq_countBytes_of_fresh fresh
  | blockComment =>
      simp only [LexState.step, mode]
      refine ite_eq_map (and_congr_right' (head '/' (by decide))) (fun ends => ?_) fun _ => ?_
      · exact eq_countBytes_of_ahead (byteOffset_one ends.2 (by decide))
      · exact eq_countBytes_of_fresh fresh
  | string quote =>
      simp only [LexState.step, mode]
      refine ite_eq_map .rfl (fun _ => ?_) fun _ => ite_eq_map .rfl (fun _ => ?_) fun _ => ?_
      · exact eq_countBytes_of_escapes rfl
      · exact eq_countBytes_of_fresh fresh
      · exact eq_countBytes_of_fresh fresh
  | template =>
      simp only [LexState.step, mode]
      refine ite_eq_map .rfl (fun _ => ?_) fun _ => ite_eq_map .rfl (fun _ => ?_) fun _ =>
        ite_eq_map (and_congr_right' (head '{' (by decide))) (fun opens => ?_) fun _ => ?_
      · exact eq_countBytes_of_escapes rfl
      · exact eq_countBytes_of_fresh fresh
      · exact eq_countBytes_of_ahead (byteOffset_one opens.2 (by decide))
      · exact eq_countBytes_of_fresh fresh
  | code =>
      rcases eq_or_ne c '?' with rfl | question
      · rw [step_question mode, step_question mode]
        exact readQuestion_countBytes ascii state rest
      have markup : state.opensMarkup c (encode rest) = false := by
        rw [LexState.opensMarkup, startsTag_encode]
        exact plain
      simp only [LexState.step, mode]
      unfold LexState.stepCode
      rw [plain, markup, startsMapCall_encode, any_head?_encode isDigit_of_beyond]
      have single (kind : TokenKind) := operator_countBytes ascii state kind start
      refine ite_eq_map .rfl (fun _ => eq_countBytes_of_fresh fresh) fun _ => ?_
      refine ite_eq_map (and_congr_right' (head '/' (by decide))) (fun line => ?_) fun line => ?_
      · exact eq_countBytes_of_ahead (byteOffset_one line.2 (by decide))
      refine ite_eq_map (and_congr_right' (head '*' (by decide))) (fun block => ?_) fun block => ?_
      · exact eq_countBytes_of_ahead (byteOffset_one block.2 (by decide))
      refine ite_eq_map .rfl (fun slash => ?_) fun _ => ?_
      · exact absurd ⟨mode, slash.1, fun same => line ⟨slash.1, same⟩,
          fun same => block ⟨slash.1, same⟩, slash.2⟩ regex
      refine ite_eq_map .rfl (fun _ => eq_countBytes_of_fresh fresh) fun _ => ?_
      refine ite_eq_map .rfl (fun _ => eq_countBytes_of_fresh fresh) fun _ => ?_
      refine ite_eq_map .rfl (fun _ => ?_) fun _ => ?_
      · refine eq_countBytes (fun _ => by rw [fresh, start]) ?_
        rintro _ ⟨⟩
        rw [byteOffset_cons, start, utf8Size_of_ascii ascii]
      refine ite_eq_map .rfl (fun _ => close_countBytes ascii state fresh) fun _ => ?_
      rw [if_neg question, if_neg question]
      refine ite_eq_map .rfl (fun dot => ?_) fun _ => ?_
      · refine ite_eq_map .rfl (fun call => ?_) fun _ =>
          ite_eq_map .rfl (fun _ => eq_countBytes_of_fresh fresh) fun _ => ?_
        · exact operator_countBytes ascii state .mapCall (byteOffset_mapCall call)
        · exact eq_countBytes_of_ahead start
      refine ite_eq_map .rfl (fun _ => single .colon) fun _ => ?_
      refine ite_eq_map .rfl (fun _ => single .comma) fun _ => ?_
      refine ite_eq_map (and_congr_right' (head '&' (by decide))) (fun double => ?_) fun _ => ?_
      · obtain ⟨after, rfl⟩ := List.head?_eq_some_iff.mp double.2
        rw [encode_cons_of_ascii (by decide)]
        exact assignable_countBytes ascii (by decide) state .andAnd after
      refine ite_eq_map (and_congr_right' (head '|' (by decide))) (fun double => ?_) fun _ => ?_
      · obtain ⟨after, rfl⟩ := List.head?_eq_some_iff.mp double.2
        rw [encode_cons_of_ascii (by decide)]
        exact assignable_countBytes ascii (by decide) state .orOr after
      refine ite_eq_map (and_congr_right' (head '>' (by decide))) (fun arrow => ?_) fun _ => ?_
      · exact operator_countBytes ascii state .arrow (byteOffset_one arrow.2 (by decide))
      rw [if_neg Bool.false_ne_true, if_neg Bool.false_ne_true, word mode]
      exact eq_countBytes_of_ahead start

end

/-- The state after so many characters that nothing is read in. -/
def LexState.passing (state : LexState) (count : Nat) : LexState :=
  { state with skip := state.skip - count }

/-- Nothing is read in the text: it has been read already, or it lies beyond ASCII and is no code. -/
def LexState.Ignores (state : LexState) (text : List Char) : Prop :=
  text.length ≤ state.skip ∨ state.mode ≠ .code ∧ ∀ b ∈ text, 0x80 ≤ b.toNat

theorem isWordPart_of_beyond (c : Char) (beyond : 0x80 ≤ c.toNat) : isWordPart c = true := by
  simp [isWordPart, beyond]

/-- The first byte of the character is read as the character is, and nothing is read in the others. -/
def LexState.Spells (state : LexState) (c : Char) (rest : List Char) : Prop :=
  ∃ b others next, encodeChar c = b :: others ∧
    state.read b (others ++ encode rest) =
      (next, (state.read c rest).2.map (.inBytes (c :: rest))) ∧
    next.Ignores others ∧ next.passing others.length = (state.read c rest).1.inBytes rest

theorem LexState.spells_of_ascii (ascii : c.toNat < 0x80)
    (same : state.read c (encode rest) = countBytes c rest (state.read c rest)) :
    state.Spells c rest :=
  ⟨c, [], _, encodeChar_of_ascii ascii, same, .inl (Nat.zero_le _), rfl⟩

theorem LexState.inBytes_of_code (mode : state.mode = .code) (text : List Char) :
    state.inBytes text = { state with skip := byteOffset text state.skip } := by
  rw [LexState.inBytes, mode]
  rfl

theorem pass_countBytes (mode : state.mode = .code) (previous : Previous) (skip : Nat) :
    state.pass previous (byteOffset rest skip) = countBytes c rest (state.pass previous skip) := by
  rw [countBytes, LexState.pass, LexState.pass, LexState.inBytes_of_code]
  · rfl
  · exact mode

/-- A word goes on through the bytes of its characters. -/
theorem LexState.spells_of_isWordPart (mode : state.mode = .code) (word : isWordPart c = true)
    (rest : List Char) : state.Spells c rest := by
  obtain ⟨b, others, same⟩ := exists_encodeChar c
  have beyond := le_of_mem_others same
  have starts : isWordPart b = true := by
    rcases Nat.lt_or_ge c.toNat 0x80 with ascii | high
    · rw [encodeChar_of_ascii ascii] at same
      cases same
      exact word
    · exact isWordPart_of_beyond b (le_of_mem_encodeChar high (same ▸ List.mem_cons_self))
  have taken : (others ++ encode rest).takeWhile isWordPart =
      others ++ encode (rest.takeWhile isWordPart) := by
    rw [List.takeWhile_append_of_pos fun b member => isWordPart_of_beyond b (beyond b member),
      takeWhile_encode_of_beyond isWordPart_of_beyond]
  have spelled : b :: (others ++ encode (rest.takeWhile isWordPart)) =
      encode (c :: rest.takeWhile isWordPart) := by
    rw [encode_cons, same, List.cons_append]
  unfold LexState.Spells LexState.read
  rw [step_of_isWordPart mode word]
  refine ⟨b, others, _, same, step_of_isWordPart mode starts _ _, ?_, ?_⟩
  · rw [taken, List.length_append]
    exact .inl (Nat.le_add_right _ _)
  · rw [taken, spelled, operatorWords_encode]
    have size := byteOffset_length_of_isPrefix (List.takeWhile_prefix isWordPart : _ <+: rest)
    simp only [LexState.pass, LexState.passing]
    rw [LexState.inBytes_of_code, List.length_append, Nat.add_sub_cancel_left, length_encode, ← size]
    exact mode

/-- Markup is as long in its bytes as in the text. -/
theorem LexState.spells_of_opensMarkup (opens : state.opensMarkup c rest = true)
    (markup : markupRest (encode rest) = byteOffset rest (markupRest rest)) :
    state.Spells c rest := by
  have opens' : state.opensMarkup c (encode rest) = true := by
    rwa [LexState.opensMarkup, startsTag_encode]
  have parts := opens
  simp only [LexState.opensMarkup, Bool.and_eq_true, beq_iff_eq] at parts
  obtain ⟨⟨⟨mode, rfl⟩, -⟩, -⟩ := parts
  refine LexState.spells_of_ascii (by decide) ?_
  rw [read_of_opensMarkup opens, read_of_opensMarkup opens', markup, countBytes, Option.map_some,
    LexState.inBytes_of_code, Emission.inBytes]
  · dsimp only
    rw [byteOffset_cons, utf8Size_of_ascii (by decide), Nat.add_comm 1]
  · exact mode

theorem LexState.Proper.spells (proper : state.Proper) (fresh : state.skip = 0) (c : Char)
    (rest : List Char) (markup : markupRest (encode rest) = byteOffset rest (markupRest rest)) :
    state.Spells c rest := by
  by_cases regex : state.AtRegex c rest
  · obtain ⟨mode, rfl, line, block, previous⟩ := regex
    have regex' : state.AtRegex '/' (encode rest) :=
      ⟨mode, rfl, by rwa [ne_eq, head?_encode (by decide)], by rwa [ne_eq, head?_encode (by decide)],
        previous⟩
    refine LexState.spells_of_ascii (by decide) ?_
    rw [regex'.read_eq, LexState.AtRegex.read_eq ⟨mode, rfl, line, block, previous⟩,
      regexLength_encode]
    exact pass_countBytes mode _ _
  by_cases opens : state.opensMarkup c rest = true
  · exact LexState.spells_of_opensMarkup opens markup
  by_cases word : state.mode = .code ∧ isWordPart c = true
  · exact LexState.spells_of_isWordPart word.1 word.2 rest
  have other : state.mode = .code → isWordPart c = false := by
    simpa using fun mode part => word ⟨mode, part⟩
  rcases Nat.lt_or_ge c.toNat 0x80 with ascii | beyond
  · exact LexState.spells_of_ascii ascii
      (step_countBytes ascii fresh regex (by simpa using opens) other _ _)
  · have mode : state.mode ≠ .code := fun mode => word ⟨mode, isWordPart_of_beyond c beyond⟩
    obtain ⟨b, others, same⟩ := exists_encodeChar c
    have high := le_of_mem_encodeChar beyond (same ▸ List.mem_cons_self (a := b))
    refine ⟨b, others, state, same, ?_, .inr ⟨mode, le_of_mem_others same⟩, ?_⟩
    · rw [proper.read_of_beyond mode high, proper.read_of_beyond mode beyond]
      rfl
    · rw [proper.read_of_beyond mode beyond, LexState.inBytes_of_fresh fresh, LexState.passing, fresh,
        Nat.zero_sub, ← fresh]

/-! ## Markup -/

/-- The same state between the bytes of a text. -/
def MarkupState.inBytes (state : MarkupState) (ahead : List Char) : MarkupState :=
  { state with skip := byteOffset ahead state.skip }

/-- The same step, where what is read ahead is counted in bytes. -/
def MarkupState.Step.inBytes (rest : List Char) : MarkupState.Step → MarkupState.Step
  | .next state => .next (state.inBytes rest)
  | .done more => .done (byteOffset rest more)
  | .code => .code

/-- Values stand in quotes of ASCII. -/
def MarkupState.Proper (state : MarkupState) : Prop :=
  ∀ quote void, state.mode = .quoted quote void → quote.toNat < 0x80

theorem enterTag_encode (depth : Nat) (text : List Char) :
    MarkupState.enterTag depth (encode text) = (MarkupState.enterTag depth text).inBytes text := by
  rw [MarkupState.enterTag, MarkupState.enterTag, MarkupState.inBytes]
  dsimp only
  rw [byteOffset_takeWhile isTagNamePart_of_beyond, takeWhile_encode isTagNamePart_of_beyond]

namespace MarkupState

theorem Proper.of_mode {state : MarkupState} (mode : ∀ quote void, state.mode ≠ .quoted quote void) :
    state.Proper :=
  fun quote void same => absurd same (mode quote void)

theorem Proper.tick {state : MarkupState} (proper : state.Proper) : state.tick.Proper :=
  proper

theorem Proper.step {state next : MarkupState} (proper : state.Proper)
    (step : state.step c rest = .next next) : next.Proper := by
  revert step
  fun_cases MarkupState.step state c rest with
  | case4 | case7 | case9 | case17 =>
      rintro ⟨⟩
      exact proper
  | case10 _ _ quotes =>
      rintro ⟨⟩
      have ascii : c.toNat < 0x80 := by rcases quotes with rfl | rfl <;> decide
      rintro _ _ ⟨⟩
      exact ascii
  | case1 | case2 | case6 | case8 | case13 | case15 | case16 =>
      rintro ⟨⟩
      refine .of_mode ?_
      rintro _ _ ⟨⟩
  | _ => rintro ⟨⟩

theorem inBytes_of_fresh {state : MarkupState} (fresh : state.skip = 0) (ahead : List Char) :
    state.inBytes ahead = state := by
  obtain ⟨mode, depth, _⟩ := state
  cases fresh
  rw [MarkupState.inBytes, byteOffset_zero]

/-- Nothing beyond ASCII matters in markup. -/
theorem Proper.step_of_beyond {state : MarkupState} (proper : state.Proper)
    (beyond : 0x80 ≤ c.toNat) (rest : List Char) : state.step c rest = .next state := by
  have apart := ne_of_beyond beyond
  unfold MarkupState.step
  cases mode : state.mode with
  | content => simp [apart '<', apart '{']
  | closeTag => simp [apart '>']
  | quoted quote void => simp [apart quote (proper quote void mode)]
  | tag void => simp [apart '"', apart '\x27', apart '{', apart '/', apart '>']

theorem step_encode {state : MarkupState} (fresh : state.skip = 0) (c : Char) (rest : List Char) :
    state.step c (encode rest) = (state.step c rest).inBytes rest := by
  have head (sign : Char) (small : sign.toNat < 0x80) :
      (encode rest).head? = some sign ↔ rest.head? = some sign := head?_encode small rest
  have still {next : MarkupState} (same : next.skip = 0) :
      Step.next next = (Step.next next).inBytes rest := by
    rw [Step.inBytes, inBytes_of_fresh same]
  have last : Step.done 0 = (Step.done 0).inBytes rest := by
    rw [Step.inBytes, byteOffset_zero]
  cases mode : state.mode with
  | content =>
      simp only [MarkupState.step, mode, startsTag_encode]
      refine ite_eq_map (and_congr_right' (head '/' (by decide))) (fun _ => still fresh) fun _ => ?_
      refine ite_eq_map .rfl (fun _ => ?_) fun _ => ?_
      · rw [enterTag_encode]
        rfl
      · exact ite_eq_map .rfl (fun _ => rfl) fun _ => still fresh
  | closeTag =>
      simp only [MarkupState.step, mode]
      refine ite_eq_map .rfl (fun _ => ?_) fun _ => still fresh
      exact ite_eq_map .rfl (fun _ => last) fun _ => still fresh
  | quoted quote void =>
      simp only [MarkupState.step, mode]
      exact ite_eq_map .rfl (fun _ => still fresh) fun _ => still fresh
  | tag void =>
      simp only [MarkupState.step, mode]
      refine ite_eq_map .rfl (fun _ => still fresh) fun _ => ?_
      refine ite_eq_map .rfl (fun _ => rfl) fun _ => ?_
      refine ite_eq_map (and_congr_right' (head '>' (by decide))) (fun angle => ?_) fun _ => ?_
      · have one := byteOffset_one angle.2 (by decide)
        refine ite_eq_map .rfl (fun _ => ?_) fun _ => ?_
        · rw [Step.inBytes, one]
        · rw [Step.inBytes, MarkupState.inBytes, one]
      refine ite_eq_map .rfl (fun _ => ?_) fun _ => still fresh
      refine ite_eq_map .rfl (fun _ => ?_) fun _ => still fresh
      exact ite_eq_map .rfl (fun _ => last) fun _ => still fresh

end MarkupState

end Code
end ReactiveTemplate
