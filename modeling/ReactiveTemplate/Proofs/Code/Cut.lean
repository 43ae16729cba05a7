import ReactiveTemplate.Proofs.Code.Truncation
import ReactiveTemplate.Text.Blank

/-!
# Code in front of an operator or a bracket

Code that ends in front of an operator, but for blank characters, is read by itself as it is read
with the operator behind it, as far as markup is concerned: the same elements start in it.  A step of
the lexer looks ahead into the gap only where it passes over all that is left of the code, or reaches
the operator itself.  In front of a closing bracket it does not even do the latter.
-/

namespace ReactiveTemplate
namespace Code

variable {text rest tail : List Char} {c : Char} {width : Nat}

/-! ## Tokens and their places -/

theorem tokensFrom_skip {state : LexState} (skipped : 0 < state.skip) (index : Nat) (c : Char)
    (rest : List Char) :
    tokensFrom state index (c :: rest) = tokensFrom state.tick (index + 1) rest := by
  rw [tokensFrom, if_pos skipped]

/-- The token that a step produces. -/
def Emission.token (index : Nat) (e : Emission) : Token :=
  ⟨e.kind, index, index + e.length, e.depth⟩

theorem tokensFrom_step {state : LexState} (fresh : state.skip = 0) (index : Nat) (c : Char)
    (rest : List Char) :
    tokensFrom state index (c :: rest) =
      (state.read c rest).2.toList.map (Emission.token index) ++
        tokensFrom (state.read c rest).1 (index + 1) rest := by
  rw [tokensFrom, if_neg (by omega)]
  obtain ⟨next, emitted⟩ := state.read c rest
  cases emitted <;> rfl

/-- A token starts at a character that a step has produced it from, behind what has been read
already. -/
theorem mem_tokensFrom {state : LexState} {index : Nat} {token : Token}
    (member : token ∈ tokensFrom state index text) :
    ∃ place, token.start = index + place ∧ state.skip ≤ place ∧
      ∃ before c rest e, text[place]? = some c ∧ (LexState.read before c rest).2 = some e ∧
        e.kind = token.kind := by
  induction text generalizing state index with
  | nil => cases member
  | cons c rest induction =>
      rcases Nat.eq_zero_or_pos state.skip with fresh | skipped
      · rw [tokensFrom_step fresh, List.mem_append, List.mem_map] at member
        rcases member with ⟨e, emitted, rfl⟩ | later
        · exact ⟨0, rfl, Nat.le_of_eq fresh, state, c, rest, e, rfl, by simpa using emitted, rfl⟩
        · obtain ⟨place, start, -, source⟩ := induction later
          exact ⟨place + 1, by omega, by omega, source⟩
      · rw [tokensFrom_skip skipped] at member
        obtain ⟨place, start, passed, source⟩ := induction member
        rw [LexState.tick] at passed
        dsimp only at passed
        exact ⟨place + 1, by omega, by omega, source⟩

theorem start_bounds {state : LexState} {index : Nat} {token : Token}
    (member : token ∈ tokensFrom state index text) :
    index + state.skip ≤ token.start ∧ token.start < index + text.length := by
  obtain ⟨place, start, passed, -, c, -, -, here, -⟩ := mem_tokensFrom member
  have inside := (List.getElem?_eq_some_iff.mp here).1
  omega

/-- Nothing is left to read. -/
theorem tokensFrom_passed {state : LexState} (passed : text.length ≤ state.skip) (index : Nat) :
    tokensFrom state index text = [] := by
  rw [List.eq_nil_iff_forall_not_mem]
  intro token member
  have bounds := start_bounds member
  omega

/-! ## Gaps -/

/-- The operators that decide the shape of code start with the character. -/
def isSign (c : Char) : Bool := c == '?' || c == '.' || c == '&'

/-- Code ends in front of the character: an operator that decides its shape, or a closing bracket. -/
def isStop (c : Char) : Bool := isSign c || isClosing c

/-- The text begins with so many blank characters and a character that code ends in front of. -/
def Gap (width : Nat) (tail : List Char) : Prop :=
  ∃ blanks stop more, tail = blanks ++ stop :: more ∧ blanks.all Text.isBlank = true ∧
    isStop stop = true ∧ blanks.length = width

/-- The character may stand in a gap. -/
def isSeparator (c : Char) : Bool := Text.isBlank c || isStop c

theorem isStop_cases (stops : isStop c = true) :
    c = '?' ∨ c = '.' ∨ c = '&' ∨ c = ')' ∨ c = ']' ∨ c = '}' := by
  simpa [isStop, isSign, isClosing, or_assoc] using stops

theorem toNat_of_isSeparator (separates : isSeparator c = true) :
    c.toNat ≤ 0x20 ∨ c.toNat = 0x26 ∨ c.toNat = 0x29 ∨ c.toNat = 0x2e ∨ c.toNat = 0x3f ∨
      c.toNat = 0x5d ∨ 0x7d ≤ c.toNat := by
  rw [isSeparator, Bool.or_eq_true] at separates
  rcases separates with blank | stops
  · rw [Text.isBlank] at blank
    split at blank
    · simp only [Bool.or_eq_true, beq_iff_eq, Bool.and_eq_true, decide_eq_true_eq] at blank
      rcases blank with rfl | ⟨-, low⟩
      · decide
      · omega
    · omega
  · rcases isStop_cases stops with rfl | rfl | rfl | rfl | rfl | rfl <;> decide

theorem isAlphanum_of_isSeparator (separates : isSeparator c = true) : c.isAlphanum = false := by
  have code := toNat_of_isSeparator separates
  rw [Bool.eq_false_iff]
  intro word
  have range := toNat_of_isAlphanum word
  omega

/-- A gap starts with a separator; an operator stands there only if the gap has no width. -/
theorem Gap.head (gap : Gap width tail) :
    ∃ separator more, tail = separator :: more ∧ isSeparator separator = true ∧
      (isSign separator = true → width = 0) := by
  obtain ⟨blanks, stop, more, rfl, blank, stops, rfl⟩ := gap
  cases blanks with
  | nil => exact ⟨stop, more, rfl, by rw [isSeparator, stops, Bool.or_true], fun _ => rfl⟩
  | cons first rest =>
      rw [List.all_cons, Bool.and_eq_true] at blank
      refine ⟨first, rest ++ stop :: more, rfl, by rw [isSeparator, blank.1, Bool.true_or], ?_⟩
      intro signs
      simp only [isSign, Bool.or_eq_true, beq_iff_eq] at signs
      rcases signs with (rfl | rfl) | rfl <;> cases blank.1

/-- What does not stand in gaps is not found by looking ahead into one. -/
theorem Gap.head?_append (gap : Gap width tail) (other : isSeparator c = false) :
    (rest ++ tail).head? = some c ↔ rest.head? = some c := by
  cases rest with
  | nil =>
      obtain ⟨separator, more, rfl, separates, -⟩ := gap.head
      simp only [List.nil_append, List.head?_cons, Option.some_inj, List.head?_nil, reduceCtorEq,
        iff_false]
      rintro rfl
      rw [other] at separates
      cases separates
  | cons first rest => rfl

theorem Gap.any_append (gap : Gap width tail) {kind : Char → Bool}
    (apart : ∀ c, isSeparator c = true → kind c = false) (rest : List Char) :
    (rest ++ tail).head?.any kind = rest.head?.any kind := by
  cases rest with
  | nil =>
      obtain ⟨separator, more, rfl, separates, -⟩ := gap.head
      exact apart separator separates
  | cons first rest => rfl

theorem isDigit_of_isSeparator (c : Char) (separates : isSeparator c = true) :
    c.isDigit = false := by
  have word := isAlphanum_of_isSeparator separates
  rw [Char.isAlphanum, Bool.or_eq_false_iff] at word
  exact word.2

theorem Gap.startsTag_append (gap : Gap width tail) (rest : List Char) :
    startsTag (rest ++ tail) = startsTag rest := by
  cases rest with
  | nil =>
      obtain ⟨separator, more, rfl, separates, -⟩ := gap.head
      have word := isAlphanum_of_isSeparator separates
      rw [Char.isAlphanum, Bool.or_eq_false_iff] at word
      rw [List.nil_append, startsTag, startsTag, word.1, Bool.false_or, beq_eq_false_iff_ne]
      rintro rfl
      cases separates
  | cons first rest => rfl

theorem Gap.assignable_append (gap : Gap width tail) (state : LexState) (kind : TokenKind)
    (rest : List Char) : state.assignable kind (rest ++ tail) = state.assignable kind rest := by
  have equals : (rest ++ tail).head? = some '=' ↔ rest.head? = some '=' :=
    gap.head?_append (by decide)
  have cases (text : List Char) : state.assignable kind text =
      if text.head? = some '=' then state.operator kind 3 else state.operator kind 2 := by
    unfold LexState.assignable
    split
    · exact (if_pos rfl).symm
    · rename_i other
      rw [if_neg]
      intro head
      obtain ⟨after, rfl⟩ := List.head?_eq_some_iff.mp head
      exact other after rfl
  rw [cases, cases]
  exact ite_congr (propext equals) (fun _ => rfl) fun _ => rfl

/-- The first visible character of a gap opens no call. -/
theorem Gap.opens_no_call (gap : Gap width tail) :
    (match tail.find? (fun c => !isAsciiSpace c) with
      | some c => c == '('
      | none => false) = false := by
  obtain ⟨blanks, stop, more, rfl, blank, stops, -⟩ := gap
  rw [List.find?_append]
  cases found : blanks.find? fun c => !isAsciiSpace c with
  | some c =>
      have member := List.all_eq_true.mp blank c (List.mem_of_find?_eq_some found)
      rw [Option.some_or]
      dsimp only
      rw [beq_eq_false_iff_ne]
      rintro rfl
      cases member
  | none =>
      rw [Option.none_or]
      rcases isStop_cases stops with rfl | rfl | rfl | rfl | rfl | rfl <;> rfl

/-- A letter in front of a gap belongs to the text before it. -/
theorem Gap.eq_cons (gap : Gap width tail) (letter : c.isAlphanum = true) {own : List Char}
    (same : rest ++ tail = c :: own) : ∃ before, rest = c :: before ∧ before ++ tail = own := by
  cases rest with
  | nil =>
      obtain ⟨separator, more, rfl, separates, -⟩ := gap.head
      obtain ⟨rfl, -⟩ := List.cons.inj same
      rw [isAlphanum_of_isSeparator separates] at letter
      cases letter
  | cons first before =>
      obtain ⟨rfl, behind⟩ := List.cons.inj same
      exact ⟨before, rfl, behind⟩

theorem Gap.startsMapCall_append (gap : Gap width tail) (rest : List Char) :
    startsMapCall (rest ++ tail) = startsMapCall rest := by
  fun_cases startsMapCall rest with
  | case1 after =>
      simp only [List.cons_append, startsMapCall]
      congr 1
      · cases after with
        | nil =>
            obtain ⟨separator, more, rfl, separates, -⟩ := gap.head
            have word := isAlphanum_of_isSeparator separates
            simp only [List.nil_append, word, Bool.false_or, Bool.not_eq_true', Bool.or_eq_false_iff,
              beq_eq_false_iff_ne]
            constructor <;> rintro rfl <;> cases separates
        | cons first rest => rfl
      · rw [List.find?_append]
        cases found : after.find? fun c => !isAsciiSpace c with
        | some c => rfl
        | none => exact gap.opens_no_call
  | case2 _ plain =>
      rw [startsMapCall]
      intro after same
      obtain ⟨second, rfl, same₂⟩ := gap.eq_cons (by decide) same
      obtain ⟨third, rfl, same₃⟩ := gap.eq_cons (by decide) same₂
      obtain ⟨fourth, rfl, -⟩ := gap.eq_cons (by decide) same₃
      exact plain fourth rfl

/-! ## Steps in front of a gap -/

section

variable {state : LexState}

/-- A word is passed over as a whole. -/
theorem step_of_isWordPart (mode : state.mode = .code) (word : isWordPart c = true)
    (rest : List Char) (markupLength : Nat) :
    state.step c rest markupLength =
      state.pass (if operatorWords.contains (String.ofList (c :: rest.takeWhile isWordPart))
        then .operator else .value) (rest.takeWhile isWordPart).length := by
  have other (sign : Char) (apart : isWordPart sign = false) : c ≠ sign := by
    rintro rfl
    rw [word] at apart
    cases apart
  unfold LexState.step
  rw [mode]
  dsimp only
  unfold LexState.stepCode
  rw [if_neg (by simp [other ' ' rfl, other '\t' rfl, other '\n' rfl, other '\r' rfl]),
    if_neg (by simp [other '/' rfl]), if_neg (by simp [other '/' rfl]),
    if_neg (by simp [other '/' rfl]), if_neg (by simp [other '"' rfl, other '\x27' rfl]),
    if_neg (other '\x60' rfl), if_neg (by simp [other '(' rfl, other '[' rfl, other '{' rfl]),
    if_neg (by simp [other ')' rfl, other ']' rfl, other '}' rfl]), if_neg (other '?' rfl),
    if_neg (other '.' rfl), if_neg (other ':' rfl), if_neg (other ',' rfl),
    if_neg (by simp [other '&' rfl]), if_neg (by simp [other '|' rfl]),
    if_neg (by simp [other '=' rfl]), if_neg (by simp [LexState.opensMarkup, other '<' rfl]),
    if_pos word]
  rfl

/-- Markup is a token, and is passed over as a whole. -/
theorem step_markup (opens : state.opensMarkup c rest = true) (markupLength : Nat) :
    state.step c rest markupLength =
      ({ state with previous := .value, skip := markupLength - 1 },
        some ⟨.markup, markupLength, state.depth⟩) := by
  have parts := opens
  simp only [LexState.opensMarkup, Bool.and_eq_true, beq_iff_eq] at parts
  obtain ⟨⟨⟨mode, rfl⟩, -⟩, -⟩ := parts
  simp [LexState.step, LexState.stepCode, mode, opens]

/-- What a question mark in code is read as. -/
def LexState.readQuestion (state : LexState) : List Char → LexState × Option Emission
  | '?' :: after => state.assignable .nullish after
  | '.' :: after =>
    if (after.head?.any Char.isDigit) then state.operator .question 1
    else if startsMapCall after then state.operator .mapCall 5
    else state.pass .operator 1
  | _ => state.operator .question 1

theorem step_question (mode : state.mode = .code) (rest : List Char) (markupLength : Nat) :
    state.step '?' rest markupLength = state.readQuestion rest := by
  simp [LexState.step, LexState.stepCode, mode]
  rfl

theorem step_ampersand (mode : state.mode = .code) (rest : List Char) (markupLength : Nat) :
    state.step '&' rest markupLength =
      if rest.head? = some '&' then state.assignable .andAnd rest.tail
      else state.pass .operator 0 := by
  have word : isWordPart '&' = false := by decide
  simp [LexState.step, LexState.stepCode, LexState.opensMarkup, mode, word]

theorem skip_assignable (state : LexState) (kind : TokenKind) (rest : List Char) :
    0 < (state.assignable kind rest).1.skip := by
  unfold LexState.assignable
  split
  · exact (Nat.zero_lt_two : 0 < 3 - 1)
  · exact (Nat.zero_lt_one : 0 < 2 - 1)

/-- A question mark in front of a gap is one by itself, or the operator in the gap belongs to it. -/
theorem readQuestion_gap (gap : Gap width tail)
    (passed : tail.head?.any isSign = true →
      (state.readQuestion (rest ++ tail)).1.skip ≤ rest.length + width) :
    state.readQuestion rest = state.readQuestion (rest ++ tail) := by
  cases rest with
  | nil =>
      obtain ⟨separator, more, rfl, -, lone⟩ := gap.head
      rw [List.nil_append] at passed ⊢
      rw [List.length_nil, Nat.zero_add] at passed
      by_cases double : separator = '?'
      · subst double
        have skipped := skip_assignable state .nullish more
        have passed := passed rfl
        rw [LexState.readQuestion, lone rfl] at passed
        omega
      · by_cases dot : separator = '.'
        · subst dot
          have passed := passed rfl
          rw [LexState.readQuestion, lone rfl] at passed
          change state.operator .question 1 = state.readQuestion ('.' :: more)
          rw [LexState.readQuestion]
          split at passed
          · rename_i digit
            rw [if_pos digit]
          · split at passed
            · exact absurd passed (Nat.not_succ_le_zero 3)
            · exact absurd passed (Nat.not_succ_le_zero 0)
        · simp [LexState.readQuestion, double, dot]
  | cons first own =>
      rw [List.cons_append]
      by_cases double : first = '?'
      · subst double
        rw [LexState.readQuestion, LexState.readQuestion, gap.assignable_append]
      · by_cases dot : first = '.'
        · subst dot
          rw [LexState.readQuestion, LexState.readQuestion,
            gap.any_append isDigit_of_isSeparator, gap.startsMapCall_append]
        · simp [LexState.readQuestion, double, dot]

/-- An ampersand in front of a gap is one by itself, or the operator in the gap belongs to it. -/
theorem readAmpersand_gap (gap : Gap width tail) (mode : state.mode = .code)
    {markupLength markupLength' : Nat}
    (passed : tail.head?.any isSign = true →
      (state.step '&' (rest ++ tail) markupLength').1.skip ≤ rest.length + width) :
    state.step '&' rest markupLength = state.step '&' (rest ++ tail) markupLength' := by
  rw [step_ampersand mode] at passed ⊢
  rw [step_ampersand mode]
  cases rest with
  | nil =>
      obtain ⟨separator, more, rfl, -, lone⟩ := gap.head
      rw [List.nil_append] at passed ⊢
      rw [List.length_nil, Nat.zero_add] at passed
      by_cases double : separator = '&'
      · subst double
        have skipped := skip_assignable state .andAnd more
        have passed := passed rfl
        rw [List.head?_cons, if_pos rfl, List.tail_cons, lone rfl] at passed
        omega
      · simp [double]
  | cons first own =>
      rw [List.cons_append, List.head?_cons, List.head?_cons, List.tail_cons, List.tail_cons,
        gap.assignable_append]

/-- A step that is neither at a regular expression nor at markup nor at a word looks only at
characters in front of the gap, or passes over the operator behind it. -/
theorem step_gap (gap : Gap width tail) (regex : ¬ state.AtRegex c rest)
    (plain : state.opensMarkup c rest = false) (word : state.mode = .code → isWordPart c = false)
    {markupLength markupLength' : Nat}
    (passed : tail.head?.any isSign = true →
      (state.step c (rest ++ tail) markupLength').1.skip ≤ rest.length + width) :
    state.step c rest markupLength = state.step c (rest ++ tail) markupLength' := by
  have head (sign : Char) (other : isSeparator sign = false) :
      ((rest ++ tail).head? = some sign) = (rest.head? = some sign) :=
    propext (gap.head?_append other)
  cases mode : state.mode with
  | lineComment | string quote | crashed => simp only [LexState.step, mode]
  | blockComment => simp only [LexState.step, mode, head '/' (by decide)]
  | template => simp only [LexState.step, mode, head '{' (by decide)]
  | code =>
      rcases eq_or_ne c '?' with rfl | question
      · rw [step_question mode] at passed ⊢
        rw [step_question mode]
        exact readQuestion_gap gap passed
      rcases eq_or_ne c '&' with rfl | ampersand
      · exact readAmpersand_gap gap mode passed
      have markup : state.opensMarkup c (rest ++ tail) = false := by
        rw [LexState.opensMarkup, gap.startsTag_append]
        exact plain
      simp only [LexState.step, mode]
      unfold LexState.stepCode
      rw [plain, markup, gap.startsMapCall_append, gap.any_append isDigit_of_isSeparator]
      refine ite_congr rfl (fun _ => rfl) fun _ => ?_
      refine ite_congr (congrArg (c = '/' ∧ ·) (head '/' (by decide)).symm) (fun _ => rfl)
        fun line => ?_
      refine ite_congr (congrArg (c = '/' ∧ ·) (head '*' (by decide)).symm) (fun _ => rfl)
        fun block => ?_
      refine ite_congr rfl (fun slash => ?_) fun _ => ?_
      · rw [head '/' (by decide)] at line
        rw [head '*' (by decide)] at block
        exact absurd ⟨mode, slash.1, fun same => line ⟨slash.1, same⟩,
          fun same => block ⟨slash.1, same⟩, slash.2⟩ regex
      refine ite_congr rfl (fun _ => rfl) fun _ => ?_
      refine ite_congr rfl (fun _ => rfl) fun _ => ?_
      refine ite_congr rfl (fun _ => rfl) fun _ => ?_
      refine ite_congr rfl (fun _ => rfl) fun _ => ?_
      rw [if_neg question, if_neg question]
      refine ite_congr rfl (fun _ => rfl) fun _ => ?_
      refine ite_congr rfl (fun _ => rfl) fun _ => ?_
      refine ite_congr rfl (fun _ => rfl) fun _ => ?_
      have single (next : Prop) : ¬ (c = '&' ∧ next) := fun double => ampersand double.1
      rw [if_neg (single _), if_neg (single _)]
      refine ite_congr (congrArg (c = '|' ∧ ·) (head '|' (by decide)).symm) (fun double => ?_)
        fun _ => ?_
      · rw [head '|' (by decide)] at double
        obtain ⟨own, rfl⟩ := List.head?_eq_some_iff.mp double.2
        exact (gap.assignable_append state .orOr own).symm
      refine ite_congr (congrArg (c = '=' ∧ ·) (head '>' (by decide)).symm) (fun _ => rfl)
        fun _ => ?_
      rw [if_neg Bool.false_ne_true, if_neg Bool.false_ne_true, word mode]
      rfl

/-- A word or a regular expression: what belongs to it is the same with and without the gap, or is
all that is left. -/
theorem passed_cut {length length' : Nat} (shorter : length' < rest.length → length = length')
    (longer : length < rest.length → length = length') :
    length = length' ∨ rest.length ≤ length ∧ rest.length ≤ length' := by
  rcases Nat.lt_or_ge length' rest.length with short | long
  · exact .inl (shorter short)
  · rcases Nat.lt_or_ge length rest.length with short | long'
    · exact .inl (longer short)
    · exact .inr ⟨long', long⟩

/-- The number of characters of the markup that has just been opened, or of all that is left. -/
def markupRest (text : List Char) : Nat :=
  (markupEndFrom (.enterTag 0 text) text).getD text.length

theorem markupRest_cut (rest tail : List Char) :
    markupRest rest = markupRest (rest ++ tail) ∨
      rest.length ≤ markupRest rest ∧ rest.length ≤ markupRest (rest ++ tail) := by
  refine passed_cut (fun shorter => ?_) fun longer => ?_
  · cases ends : markupEndFrom (.enterTag 0 (rest ++ tail)) (rest ++ tail) with
    | none =>
        rw [markupRest, ends, Option.getD_none, List.length_append] at shorter
        omega
    | some stop =>
        rw [markupRest, ends, Option.getD_some] at shorter
        have bounds := markupEndFrom_bounds ends
        have name := MarkupState.enterTag_of_append (Nat.lt_trans bounds.1 shorter)
        have cut := ends
        rw [← name] at cut
        rw [markupRest, markupRest, ends,
          markupEndFrom_of_append tail rest cut (Nat.le_of_lt shorter)]
        rfl
  · cases ends : markupEndFrom (.enterTag 0 rest) rest with
    | none =>
        rw [markupRest, ends, Option.getD_none] at longer
        omega
    | some stop =>
        rw [markupRest, markupRest, MarkupState.enterTag_append (markupEndFrom_bounds ends),
          markupEndFrom_append tail rest ends, ends]
        rfl

theorem LexState.AtRegex.append (regex : state.AtRegex c rest) (gap : Gap width tail) :
    state.AtRegex c (rest ++ tail) := by
  obtain ⟨mode, slash, line, block, previous⟩ := regex
  exact ⟨mode, slash, by rwa [ne_eq, gap.head?_append (by decide)],
    by rwa [ne_eq, gap.head?_append (by decide)], previous⟩

theorem LexState.AtRegex.read_eq (regex : state.AtRegex c rest) :
    state.read c rest = state.pass .value (regexLength false rest) :=
  regex.step_eq _

theorem Gap.opensMarkup_append (gap : Gap width tail) (state : LexState) (c : Char)
    (rest : List Char) : state.opensMarkup c (rest ++ tail) = state.opensMarkup c rest := by
  rw [LexState.opensMarkup, gap.startsTag_append, LexState.opensMarkup]

theorem read_of_opensMarkup (opens : state.opensMarkup c rest = true) :
    state.read c rest =
      ({ state with previous := .value, skip := markupRest rest },
        some ⟨.markup, markupRest rest + 1, state.depth⟩) := by
  rw [LexState.read, step_markup opens, LexState.markupLength, if_pos opens, ← markupRest,
    Nat.add_sub_cancel]

/-- A step in front of a gap is the same with and without the gap, or it passes over all that is left
both times and produces tokens of one kind. -/
theorem read_cut (gap : Gap width tail)
    (passed : (state.read c (rest ++ tail)).1.skip ≤ rest.length + width) :
    state.read c rest = state.read c (rest ++ tail) ∨
      rest.length ≤ (state.read c rest).1.skip ∧
        rest.length ≤ (state.read c (rest ++ tail)).1.skip ∧
        (state.read c rest).2.map Emission.kind =
          (state.read c (rest ++ tail)).2.map Emission.kind := by
  by_cases regex : state.AtRegex c rest
  · rw [regex.read_eq, (regex.append gap).read_eq]
    have cut : regexLength false rest = regexLength false (rest ++ tail) ∨
        rest.length ≤ regexLength false rest ∧ rest.length ≤ regexLength false (rest ++ tail) :=
      passed_cut regexLength_of_append fun short => (regexLength_append short tail).symm
    rcases cut with same | ⟨long, long'⟩
    · exact .inl (congrArg _ same)
    · exact .inr ⟨long, long', rfl⟩
  by_cases opens : state.opensMarkup c rest = true
  · rw [read_of_opensMarkup opens, read_of_opensMarkup ((gap.opensMarkup_append ..).trans opens)]
    rcases markupRest_cut rest tail with same | ⟨long, long'⟩
    · exact .inl (by rw [same])
    · exact .inr ⟨long, long', rfl⟩
  unfold LexState.read at passed ⊢
  by_cases word : state.mode = .code ∧ isWordPart c = true
  · rw [step_of_isWordPart word.1 word.2, step_of_isWordPart word.1 word.2]
    rcases Nat.lt_or_ge (rest.takeWhile isWordPart).length rest.length with short | long
    · exact .inl (by rw [takeWhile_append_of_lt short])
    · refine .inr ⟨long, Nat.le_of_not_lt fun short => ?_, rfl⟩
      exact Nat.not_lt.mpr long (takeWhile_lt_of_append short)
  · refine .inl (step_gap gap regex ?_ (fun mode => ?_) fun _ => passed)
    · simpa using opens
    · simpa using fun part => word ⟨mode, part⟩

end

/-! ## Runs in front of a gap -/

/-- Where the elements among the tokens start. -/
def markupStarts (tokens : List Token) : List Nat :=
  (tokens.filter (·.kind == .markup)).map (·.start)

theorem markupStarts_append (first later : List Token) :
    markupStarts (first ++ later) = markupStarts first ++ markupStarts later := by
  rw [markupStarts, List.filter_append, List.map_append, markupStarts, markupStarts]

theorem mem_markupStarts {tokens : List Token} {start : Nat} :
    start ∈ markupStarts tokens ↔ ∃ token ∈ tokens, token.kind = .markup ∧ token.start = start := by
  simp [markupStarts, and_assoc]

theorem hasMarkup_iff_markupStarts {tokens : List Token} :
    hasMarkup tokens = true ↔ markupStarts tokens ≠ [] := by
  simp [hasMarkup, markupStarts]

theorem filter_markupStarts_eq_nil {tokens : List Token} {bound : Nat}
    (late : ∀ token ∈ tokens, bound ≤ token.start) :
    (markupStarts tokens).filter (· < bound) = [] := by
  refine List.filter_eq_nil_iff.mpr fun start member => ?_
  obtain ⟨token, listed, -, rfl⟩ := mem_markupStarts.mp member
  rw [decide_eq_true_eq, Nat.not_lt]
  exact late token listed

theorem filter_markupStarts_eq_self {tokens : List Token} {bound : Nat}
    (early : ∀ token ∈ tokens, token.start < bound) :
    (markupStarts tokens).filter (· < bound) = markupStarts tokens := by
  refine List.filter_eq_self.mpr fun start member => ?_
  obtain ⟨token, listed, -, rfl⟩ := mem_markupStarts.mp member
  rw [decide_eq_true_eq]
  exact early token listed

/-- Of one token, only the kind matters. -/
theorem markupStarts_emitted {emitted emitted' : Option Emission} (index : Nat)
    (same : emitted.map Emission.kind = emitted'.map Emission.kind) :
    markupStarts (emitted.toList.map (Emission.token index)) =
      markupStarts (emitted'.toList.map (Emission.token index)) := by
  cases emitted with
  | none =>
      cases emitted' with
      | none => rfl
      | some e' => cases same
  | some e =>
      cases emitted' with
      | none => cases same
      | some e' =>
          have kinds : e.kind = e'.kind := Option.some_inj.mp same
          cases markup : e'.kind == .markup <;>
            simp [markupStarts, Emission.token, kinds, markup]

/-- The elements that start in the code in front of a gap are those that start in it when it is read
by itself, if a token starts behind the gap. -/
theorem markupStarts_cut (gap : Gap width tail) (text : List Char) (state : LexState) (index : Nat)
    (operator : ∃ token ∈ tokensFrom state index (text ++ tail),
      token.start = index + text.length + width) :
    markupStarts (tokensFrom state index text) =
      (markupStarts (tokensFrom state index (text ++ tail))).filter (· < index + text.length) := by
  induction text generalizing state index with
  | nil =>
      refine (filter_markupStarts_eq_nil fun token member => ?_).symm
      exact Nat.le_trans (Nat.le_add_right index _) (start_bounds member).1
  | cons c rest induction =>
      obtain ⟨token, member, start⟩ := operator
      rw [List.length_cons] at start
      rw [List.cons_append] at member ⊢
      have length : index + (c :: rest).length = index + 1 + rest.length := by
        rw [List.length_cons]
        omega
      rw [length]
      rcases Nat.eq_zero_or_pos state.skip with fresh | skipped
      · rw [tokensFrom_step fresh, List.mem_append] at member
        have later :
            token ∈ tokensFrom (state.read c (rest ++ tail)).1 (index + 1) (rest ++ tail) := by
          refine member.resolve_left fun own => ?_
          obtain ⟨e, -, rfl⟩ := List.mem_map.mp own
          rw [Emission.token] at start
          dsimp only at start
          omega
        have passed := (start_bounds later).1
        have next := induction (state.read c (rest ++ tail)).1 (index + 1) ⟨token, later, by omega⟩
        rw [tokensFrom_step fresh, tokensFrom_step fresh, markupStarts_append, markupStarts_append,
          List.filter_append]
        have own : ∀ token ∈ (state.read c (rest ++ tail)).2.toList.map (Emission.token index),
            token.start < index + 1 + rest.length := by
          intro token member
          obtain ⟨e, -, rfl⟩ := List.mem_map.mp member
          rw [Emission.token]
          dsimp only
          omega
        rw [filter_markupStarts_eq_self own]
        have passed' : (state.read c (rest ++ tail)).1.skip ≤ rest.length + width := by omega
        rcases read_cut gap passed' with same | ⟨short, long, kinds⟩
        · rw [same, next]
        · -- both runs have come to the end of the code
          rw [tokensFrom_passed short, markupStarts_emitted index kinds,
            filter_markupStarts_eq_nil fun token member => ?_]
          · rfl
          · have bounds := start_bounds member
            omega
      · rw [tokensFrom_skip skipped] at member ⊢
        rw [tokensFrom_skip skipped]
        exact induction state.tick (index + 1) ⟨token, member, by omega⟩

/-- Code in front of a gap contains markup if an element of the whole starts in it. -/
theorem containsMarkup_cut (gap : Gap width tail) (text : List Char)
    (operator : ∃ token ∈ tokens (text ++ tail), token.start = text.length + width) :
    containsMarkup text = true ↔
      ∃ token ∈ tokens (text ++ tail), token.kind = .markup ∧ token.start < text.length := by
  obtain ⟨token, member, start⟩ := operator
  have starts := markupStarts_cut gap text {} 0 ⟨token, member, by omega⟩
  rw [containsMarkup, hasMarkup_iff_markupStarts, tokens, starts, ne_eq, List.filter_eq_nil_iff]
  simp only [Nat.zero_add, decide_eq_true_eq, mem_markupStarts, tokens]
  constructor
  · intro some
    by_contra none
    refine some ?_
    rintro _ ⟨token, listed, markup, rfl⟩ before
    exact none ⟨token, listed, markup, before⟩
  · rintro ⟨token, listed, markup, before⟩ none
    exact none _ ⟨token, listed, markup, rfl⟩ before

@[simp] theorem skip_endInterpolation (state : LexState) :
    state.endInterpolation.skip = state.skip := by
  unfold LexState.endInterpolation
  split <;> rfl

/-- Nothing behind a closing bracket is read. -/
@[simp] theorem skip_close (state : LexState) (c : Char) : (state.close c).1.skip = state.skip := by
  unfold LexState.close
  split
  · exact skip_endInterpolation state
  · rfl

theorem kind_of_close {state : LexState} {e : Emission} (emitted : (state.close c).2 = some e) :
    e.kind = .closing := by
  unfold LexState.close at emitted
  split at emitted
  · cases emitted
  · cases emitted
    rfl

/-- The tokens that decide the shape of code. -/
def TokenKind.decides : TokenKind → Bool
  | .question | .mapCall | .andAnd => true
  | _ => false

theorem isSign_of_stepCode {state : LexState} {markupLength : Nat} {e : Emission}
    (emitted : (state.stepCode c rest markupLength).2 = some e) (decides : e.kind.decides = true) :
    isSign c = true := by
  revert emitted
  fun_cases LexState.stepCode state c rest markupLength with
  | case9 | case10 | case11 | case13 | case14 | case19 => exact fun _ => by simp [isSign, *]
  | case8 =>
      intro emitted
      rw [kind_of_close emitted] at decides
      cases decides
  | case20 =>
      intro emitted
      rw [kind_of_assignable emitted] at decides
      cases decides
  | case7 | case17 | case18 | case21 | case22 =>
      rintro ⟨⟩
      cases decides
  | _ => rintro ⟨⟩

/-- The operators that decide the shape of code start with a sign. -/
theorem isSign_of_token {text : List Char} {token : Token} (member : token ∈ tokens text)
    (decides : token.kind.decides = true) :
    ∃ sign, text[token.start]? = some sign ∧ isSign sign = true := by
  obtain ⟨place, start, -, before, c, rest, e, here, emitted, kind⟩ := mem_tokensFrom member
  rw [Nat.zero_add] at start
  refine ⟨c, start ▸ here, ?_⟩
  rw [← kind] at decides
  revert emitted
  unfold LexState.read
  fun_cases LexState.step before c rest (before.markupLength c rest) with
  | case11 => exact fun emitted => isSign_of_stepCode emitted decides
  | _ => rintro ⟨⟩

theorem angle_of_stepCode {state : LexState} {markupLength : Nat} {e : Emission}
    (emitted : (state.stepCode c rest markupLength).2 = some e) (kind : e.kind = .markup) :
    c = '<' := by
  revert emitted
  fun_cases LexState.stepCode state c rest markupLength with
  | case8 =>
      intro emitted
      cases (kind_of_close emitted).symm.trans kind
  | case9 | case19 | case20 =>
      intro emitted
      cases (kind_of_assignable emitted).symm.trans kind
  | case22 =>
      rename_i opens
      intro _
      simp only [LexState.opensMarkup, Bool.and_eq_true, beq_iff_eq] at opens
      exact opens.1.1.2
  | case7 | case10 | case11 | case13 | case14 | case17 | case18 | case21 =>
      rintro ⟨⟩
      cases kind
  | _ => rintro ⟨⟩

/-- Markup starts with an angle bracket. -/
theorem angle_of_token {text : List Char} {token : Token} (member : token ∈ tokens text)
    (markup : token.kind = .markup) : text[token.start]? = some '<' := by
  obtain ⟨place, start, -, before, c, rest, e, here, emitted, kind⟩ := mem_tokensFrom member
  rw [Nat.zero_add] at start
  rw [start, here, Option.some_inj]
  rw [← kind] at markup
  revert emitted
  unfold LexState.read
  fun_cases LexState.step before c rest (before.markupLength c rest) with
  | case11 => exact fun emitted => angle_of_stepCode emitted markup
  | _ => rintro ⟨⟩

end Code
end ReactiveTemplate
