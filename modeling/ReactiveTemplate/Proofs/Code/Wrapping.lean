import ReactiveTemplate.Proofs.Code.Brackets

/-!
# Code between other brackets

Code that was found between brackets, and whose blank ends have been removed, is put between other
brackets later.  These close it, unless it ends in a comment, a string or a regular expression that
only the end of a line behind it has closed.
-/

namespace ReactiveTemplate
namespace Code

variable {text rest tail tail' blanks : List Char} {c : Char} {state : LexState}

/-! ## Blank characters -/

/-- The blank characters that the lexer knows as such, the two other ones in ASCII, and the rest. -/
theorem isBlank_cases (blank : Text.isBlank c = true) :
    (c = ' ' ∨ c = '\t' ∨ c = '\n' ∨ c = '\r') ∨ (c = '\x0b' ∨ c = '\x0c') ∨ 0x80 ≤ c.toNat := by
  rw [Text.isBlank] at blank
  split at blank
  · have code (other : Char) (same : c.toNat = other.toNat) : c = other := Char.toNat_inj.mp same
    simp only [Bool.or_eq_true, beq_iff_eq, Bool.and_eq_true, decide_eq_true_eq] at blank
    rcases blank with rfl | ⟨low, high⟩
    · exact .inl (.inl rfl)
    · have place : c.toNat = 9 ∨ c.toNat = 10 ∨ c.toNat = 11 ∨ c.toNat = 12 ∨ c.toNat = 13 := by
        omega
      rcases place with same | same | same | same | same
      · exact .inl (.inr (.inl (code _ same)))
      · exact .inl (.inr (.inr (.inl (code _ same))))
      · exact .inr (.inl (.inl (code _ same)))
      · exact .inr (.inl (.inr (code _ same)))
      · exact .inl (.inr (.inr (.inr (code _ same))))
  · omega

theorem read_space (space : c = ' ' ∨ c = '\t' ∨ c = '\n' ∨ c = '\r') (mode : state.mode = .code)
    (rest : List Char) : state.read c rest = (state, none) := by
  unfold LexState.read LexState.step
  rw [mode]
  exact if_pos space

theorem read_feed (feed : c = '\x0b' ∨ c = '\x0c') (mode : state.mode = .code)
    (rest : List Char) : state.read c rest = state.pass .operator 0 := by
  unfold LexState.read LexState.step
  rw [mode]
  have word : isWordPart c = false := by rcases feed with rfl | rfl <;> decide
  rcases feed with rfl | rfl <;> simp [LexState.stepCode, LexState.opensMarkup, word]

/-- In code, a blank character is passed over; one beyond ASCII counts as a part of a word. -/
theorem read_blank (blank : Text.isBlank c = true) (mode : state.mode = .code)
    (rest : List Char) : ∃ previous skip, state.read c rest = state.pass previous skip := by
  rcases isBlank_cases blank with space | feed | beyond
  · exact ⟨state.previous, state.skip, read_space space mode rest⟩
  · exact ⟨.operator, 0, read_feed feed mode rest⟩
  · have word : isWordPart c = true := by simp [isWordPart, beyond]
    exact ⟨_, _, step_of_isWordPart mode word rest _⟩

/-- Outside of code, a blank character changes nothing, apart from the end of a line. -/
theorem read_blank_of_mode_ne (blank : Text.isBlank c = true) (line : c ≠ '\n')
    (inner : state.Inner) (mode : state.mode ≠ .code) (rest : List Char) :
    state.read c rest = (state, none) := by
  have apart (other : Char) (visible : Text.isBlank other = false) : c ≠ other := by
    rintro rfl
    rw [blank] at visible
    cases visible
  unfold LexState.read LexState.step
  cases kind : state.mode with
  | code => exact absurd kind mode
  | crashed => rfl
  | lineComment => simp [line]
  | blockComment => simp [apart '*' rfl]
  | template => simp [apart '\\' rfl, apart '\x60' rfl, apart '$' rfl]
  | string quote =>
      have quotes : c ≠ quote := by
        rcases inner.quote quote kind with rfl | rfl
        · exact apart _ rfl
        · exact apart _ rfl
      simp [apart '\\' rfl, quotes, line]

/-! ## From one bracket to another -/

theorem closingFrom_read (fresh : state.skip = 0) (c : Char) (rest : List Char) :
    closingFrom state (c :: rest) =
      if (state.read c rest).2 = some ⟨.closing, 1, 0⟩ then some 0
      else (closingFrom (state.read c rest).1 rest).map (· + 1) :=
  closingFrom_step fresh c rest

/-- The bracket stands at the start of the text. -/
theorem closingFrom_zero (found : closingFrom state (c :: rest) = some 0) :
    state.skip = 0 ∧ (state.read c rest).2 = some ⟨.closing, 1, 0⟩ := by
  have fresh : state.skip = 0 := Nat.le_zero.mp (closingFrom_place found).1
  rw [closingFrom_read fresh] at found
  split at found
  · exact ⟨fresh, ‹_›⟩
  · obtain ⟨before, -, same⟩ := Option.map_eq_some_iff.mp found
    cases same

/-- The bracket stands further on. -/
theorem closingFrom_succ {length : Nat} (fresh : state.skip = 0)
    (found : closingFrom state (c :: rest) = some (length + 1)) :
    (state.read c rest).2 ≠ some ⟨.closing, 1, 0⟩ ∧
      closingFrom (state.read c rest).1 rest = some length := by
  rw [closingFrom_read fresh] at found
  split at found
  · cases found
  · rename_i silent
    obtain ⟨before, behind, same⟩ := Option.map_eq_some_iff.mp found
    cases same
    exact ⟨silent, behind⟩

theorem closingFrom_succ_skip {length : Nat} (skipped : 0 < state.skip)
    (found : closingFrom state (c :: rest) = some (length + 1)) :
    closingFrom state.tick rest = some length := by
  rw [closingFrom_skip skipped] at found
  obtain ⟨before, behind, same⟩ := Option.map_eq_some_iff.mp found
  cases same
  exact behind

/-- Only code has tokens. -/
theorem mode_of_read {e : Emission} (emitted : (state.read c rest).2 = some e) :
    state.mode = .code := by
  revert emitted
  unfold LexState.read
  fun_cases LexState.step state c rest (state.markupLength c rest) with
  | case11 mode => exact fun _ => mode
  | _ => rintro ⟨⟩

theorem read_of_isClosing (closing : isClosing c = true) (mode : state.mode = .code)
    (rest : List Char) : state.read c rest = state.close c := by
  unfold LexState.read LexState.step
  rw [mode]
  rcases isClosing_cases closing with rfl | rfl | rfl <;> simp [LexState.stepCode]

theorem closedDepth_of_close (emitted : (state.close c).2 = some ⟨.closing, 1, 0⟩) :
    state.closedDepth = 0 := by
  unfold LexState.close at emitted
  split at emitted
  · cases emitted
  · exact congrArg Emission.depth (Option.some_inj.mp emitted)

/-- A token that closes is one bracket, at the depth that it goes back to. -/
theorem eq_of_closing {e : Emission} (emitted : (state.read c rest).2 = some e)
    (kind : e.kind = .closing) : e = ⟨.closing, 1, state.closedDepth⟩ := by
  obtain ⟨_, length, depth⟩ := e
  cases kind
  rw [read_of_isClosing (isClosing_of_step emitted) (mode_of_read emitted)] at emitted
  unfold LexState.close at emitted
  split at emitted
  · cases emitted
  · exact (Option.some_inj.mp emitted).symm

/-- The lexer stands in plain code and has read nothing ahead. -/
def LexState.Settled (state : LexState) : Prop := state.mode = .code ∧ state.skip = 0

/-- Any closing bracket closes the code exactly if the lexer stands in it. -/
theorem closingFrom_zero_iff (closing : isClosing c = true) (inner : state.Inner)
    (closes : state.mode = .code → state.closedDepth = 0) (rest : List Char) :
    closingFrom state (c :: rest) = some 0 ↔ state.Settled := by
  constructor
  · intro found
    obtain ⟨fresh, emitted⟩ := closingFrom_zero found
    exact ⟨mode_of_read emitted, fresh⟩
  · rintro ⟨mode, fresh⟩
    have outer : state.interpolations.head? ≠ some state.closedDepth := by
      intro head
      have positive := inner.interpolations _ (List.mem_of_head? head)
      rw [closes mode] at positive
      exact absurd positive (by decide)
    have emitted : (state.read c rest).2 = some ⟨.closing, 1, 0⟩ := by
      rw [read_of_isClosing closing mode, LexState.close, if_neg fun ends => outer ends.2,
        closes mode]
    rw [closingFrom_read fresh, if_pos emitted]

namespace Closes

/-- The bracket behind code closes it. -/
theorem closedDepth_eq (closes : Closes blanks tail) (mode : state.mode = .code)
    (found : closingFrom state tail = some blanks.length) : state.closedDepth = 0 := by
  obtain ⟨blank, bracket, more, rfl, closing⟩ := closes
  induction blanks generalizing state with
  | nil =>
      obtain ⟨-, emitted⟩ := closingFrom_zero found
      rw [read_of_isClosing closing mode] at emitted
      exact closedDepth_of_close emitted
  | cons first blanks induction =>
      rw [List.all_cons, Bool.and_eq_true] at blank
      rcases Nat.eq_zero_or_pos state.skip with fresh | skipped
      · have behind := (closingFrom_succ fresh found).2
        obtain ⟨previous, skip, read⟩ := read_blank blank.1 mode (blanks ++ bracket :: more)
        rw [List.append_eq, read] at behind
        have zero : (state.pass previous skip).1.closedDepth = 0 := induction mode blank.2 behind
        exact zero
      · have zero : state.tick.closedDepth = 0 :=
          induction mode blank.2 (closingFrom_succ_skip skipped found)
        exact zero

/-- A bracket closes code only, unless the end of a line is among the blank characters. -/
theorem mode_eq (closes : Closes blanks tail) (inner : state.Inner) (line : '\n' ∉ blanks)
    (found : closingFrom state tail = some blanks.length) : state.mode = .code := by
  by_contra mode
  obtain ⟨blank, bracket, more, rfl, closing⟩ := closes
  induction blanks generalizing state with
  | nil => exact mode (mode_of_read (closingFrom_zero found).2)
  | cons first blanks induction =>
      rw [List.all_cons, Bool.and_eq_true] at blank
      rw [List.mem_cons, not_or] at line
      rcases Nat.eq_zero_or_pos state.skip with fresh | skipped
      · have behind := (closingFrom_succ fresh found).2
        rw [read_blank_of_mode_ne blank.1 (Ne.symm line.1) inner mode] at behind
        exact induction inner line.2 mode blank.2 behind
      · exact induction inner.tick line.2 mode blank.2 (closingFrom_succ_skip skipped found)

end Closes

/-! ## The state behind a text -/

/-- The state after a text that goes on as given. -/
def LexState.after : LexState → List Char → List Char → LexState
  | state, [], _ => state
  | state, c :: rest, ahead =>
    if 0 < state.skip then state.tick.after rest ahead
    else (state.read c (rest ++ ahead)).1.after rest ahead

theorem LexState.after_skip (skipped : 0 < state.skip) (c : Char) (rest ahead : List Char) :
    state.after (c :: rest) ahead = state.tick.after rest ahead := by
  rw [LexState.after, if_pos skipped]

theorem LexState.after_read (fresh : state.skip = 0) (c : Char) (rest ahead : List Char) :
    state.after (c :: rest) ahead = (state.read c (rest ++ ahead)).1.after rest ahead := by
  rw [LexState.after, if_neg (Nat.not_lt.mpr (Nat.le_of_eq fresh))]

/-- Characters that have been read already. -/
theorem closingFrom_passed (passed : text.length ≤ state.skip) (ahead : List Char) :
    closingFrom state (text ++ ahead) =
      (closingFrom { state with skip := state.skip - text.length } ahead).map (· + text.length) := by
  induction text generalizing state with
  | nil => simp
  | cons c rest induction =>
      rw [List.length_cons] at passed
      have inside : rest.length ≤ state.tick.skip := Nat.le_sub_of_add_le passed
      rw [List.cons_append, closingFrom_skip (Nat.lt_of_lt_of_le (Nat.succ_pos _) passed),
        induction inside, Option.map_map, List.length_cons, Nat.add_comm rest.length, Nat.sub_add_eq]
      refine congrArg (Option.map · _) ?_
      funext length
      simp only [Function.comp_apply]
      omega

theorem LexState.after_passed (passed : text.length ≤ state.skip) (ahead : List Char) :
    state.after text ahead = { state with skip := state.skip - text.length } := by
  induction text generalizing state with
  | nil => rfl
  | cons c rest induction =>
      rw [List.length_cons] at passed
      have inside : rest.length ≤ state.tick.skip := Nat.le_sub_of_add_le passed
      rw [LexState.after_skip (Nat.lt_of_lt_of_le (Nat.succ_pos _) passed), induction inside,
        List.length_cons, Nat.add_comm rest.length, Nat.sub_add_eq]
      rfl

/-- What reading a text up to a bracket leads to; the end of a line may have stood in between. -/
structure Wraps (state : LexState) (text tail : List Char) (line : Prop) : Prop where
  /-- The text closes no bracket but its own. -/
  reads : closingFrom state (text ++ tail) =
    (closingFrom (state.after text tail) tail).map (· + text.length)
  /-- The brackets around the text are still open. -/
  inner : (state.after text tail).Inner
  /-- There is one of them. -/
  closes : (state.after text tail).mode = .code → (state.after text tail).closedDepth = 0
  /-- The text ends in plain code. -/
  settled : (state.after text tail).Settled ∨ line

namespace Wraps

variable {line : Prop}

theorem skip (skipped : 0 < state.skip) (wraps : Wraps state.tick text tail line) :
    Wraps state (c :: text) tail line := by
  obtain ⟨reads, inner, closes, settled⟩ := wraps
  rw [← state.after_skip skipped c] at reads inner closes settled
  refine ⟨?_, inner, closes, settled⟩
  rw [List.cons_append, closingFrom_skip skipped, reads, Option.map_map]
  rfl

theorem read (fresh : state.skip = 0)
    (silent : (state.read c (text ++ tail)).2 ≠ some ⟨.closing, 1, 0⟩)
    (wraps : Wraps (state.read c (text ++ tail)).1 text tail line) :
    Wraps state (c :: text) tail line := by
  obtain ⟨reads, inner, closes, settled⟩ := wraps
  rw [← state.after_read fresh] at reads inner closes settled
  refine ⟨?_, inner, closes, settled⟩
  rw [List.cons_append, closingFrom_read fresh, if_neg silent, reads, Option.map_map]
  rfl

/-- What has been read reaches to the end of the text or beyond. -/
theorem passed (passed : text.length ≤ state.skip) (inner : state.Inner)
    (closes : state.closedDepth = 0) (mode : state.mode = .code)
    (ends : line ∨ state.skip = text.length) : Wraps state text tail line := by
  have last := state.after_passed passed tail
  refine ⟨?_, ?_, ?_, ?_⟩
  · rw [last, closingFrom_passed passed]
  · rw [last]
    exact inner.keep rfl rfl rfl
  · rw [last]
    exact fun _ => closes
  · rw [last]
    refine ends.symm.imp (fun same => ⟨mode, ?_⟩) id
    rw [same]
    exact Nat.sub_self _

end Wraps

/-- A text that a bracket closes behind blank characters is read up to any other bracket. -/
theorem Closes.wraps (closes : Closes blanks tail) (closes' : Closes [] tail') (text : List Char)
    (inner : state.Inner) (small : state.mode = .code → state.skip ≤ text.length)
    (found : closingFrom state (text ++ tail) = some (text.length + blanks.length)) :
    Wraps state text tail' ('\n' ∈ blanks) := by
  induction text generalizing state with
  | nil =>
      rw [List.nil_append, List.length_nil, Nat.zero_add] at found
      refine ⟨by simp [LexState.after], inner, fun mode => closes.closedDepth_eq mode found, ?_⟩
      by_cases line : '\n' ∈ blanks
      · exact .inr line
      · have mode := closes.mode_eq inner line found
        exact .inl ⟨mode, Nat.le_zero.mp (small mode)⟩
  | cons c rest induction =>
      rw [List.length_cons, Nat.add_right_comm] at found
      rcases Nat.eq_zero_or_pos state.skip with fresh | skipped
      · obtain ⟨silent, behind⟩ := closingFrom_succ fresh found
        rw [List.append_eq] at silent behind
        -- the steps are the same, or both read all that is left of the text
        rcases closes.read_cases closes' fresh (closingFrom_place behind).1 with ⟨same, short⟩ |
          ⟨mode, previous, skip, previous', skip', read, read', long, long', ends⟩
        · have next := induction (inner.read silent) short behind
          rw [same] at silent next
          exact next.read fresh silent
        · rw [read, closingFrom_passed long] at behind
          obtain ⟨length, there, same⟩ := Option.map_eq_some_iff.mp behind
          obtain rfl : length = blanks.length := by omega
          have zero := closes.closedDepth_eq (by exact mode) there
          refine Wraps.read fresh (by rw [read']; nofun) ?_
          rw [read']
          exact .passed long' (inner.pass ..) zero mode ends
      · have behind : closingFrom state.tick (rest ++ tail) = some (rest.length + blanks.length) :=
          closingFrom_succ_skip skipped found
        refine (induction inner.tick (fun mode => ?_) behind).skip skipped
        exact Nat.sub_le_of_le_add (small mode)

/-! ## Blank characters in front -/

/-- Whether an operand came last: nothing else is asked about what came last. -/
def LexState.canonical (state : LexState) : LexState :=
  { state with previous := if state.previous = .value then .value else .start }

/-- The outcomes of a step differ only in what came last, and both times or never it is an operand. -/
def Alike (one other : LexState × Option Emission) : Prop :=
  one.1.canonical = other.1.canonical ∧ one.2 = other.2

theorem Alike.ite {p q : Prop} [Decidable p] [Decidable q] {a b a' b' : LexState × Option Emission}
    (same : p ↔ q) (yes : Alike a a') (no : Alike b b') :
    Alike (if p then a else b) (if q then a' else b') := by
  by_cases holds : p
  · rw [if_pos holds, if_pos (same.mp holds)]
    exact yes
  · rw [if_neg holds, if_neg fun other => holds (same.mpr other)]
    exact no

theorem alike_assignable (mode : Mode) (depth : Nat) (interpolations : List Nat) (skip : Nat)
    (kind : TokenKind) (text : List Char) :
    Alike (LexState.assignable ⟨mode, depth, interpolations, .operator, skip⟩ kind text)
      (LexState.assignable ⟨mode, depth, interpolations, .start, skip⟩ kind text) := by
  unfold LexState.assignable
  split <;> exact ⟨rfl, rfl⟩

theorem alike_endInterpolation (mode : Mode) (depth : Nat) (interpolations : List Nat) (skip : Nat) :
    Alike (LexState.endInterpolation ⟨mode, depth, interpolations, .operator, skip⟩, none)
      (LexState.endInterpolation ⟨mode, depth, interpolations, .start, skip⟩, none) := by
  unfold LexState.endInterpolation
  dsimp only
  split <;> exact ⟨rfl, rfl⟩

theorem alike_stepCode (mode : Mode) (depth : Nat) (interpolations : List Nat) (skip : Nat)
    (c : Char) (rest : List Char) (markupLength : Nat) :
    Alike (LexState.stepCode ⟨mode, depth, interpolations, .operator, skip⟩ c rest markupLength)
      (LexState.stepCode ⟨mode, depth, interpolations, .start, skip⟩ c rest markupLength) := by
  unfold LexState.stepCode
  refine .ite .rfl ⟨rfl, rfl⟩ ?_
  refine .ite .rfl ⟨rfl, rfl⟩ ?_
  refine .ite .rfl ⟨rfl, rfl⟩ ?_
  refine .ite (by simp) ⟨rfl, rfl⟩ ?_
  refine .ite .rfl ⟨rfl, rfl⟩ ?_
  refine .ite .rfl ⟨rfl, rfl⟩ ?_
  refine .ite .rfl ⟨rfl, rfl⟩ ?_
  refine .ite .rfl (.ite .rfl (alike_endInterpolation ..) ⟨rfl, rfl⟩) ?_
  refine .ite .rfl ?_ ?_
  · split
    · exact alike_assignable ..
    · exact .ite .rfl ⟨rfl, rfl⟩ (.ite .rfl ⟨rfl, rfl⟩ ⟨rfl, rfl⟩)
    · exact ⟨rfl, rfl⟩
  refine .ite .rfl (.ite .rfl ⟨rfl, rfl⟩ (.ite (by simp) ⟨rfl, rfl⟩ ⟨rfl, rfl⟩)) ?_
  refine .ite .rfl ⟨rfl, rfl⟩ ?_
  refine .ite .rfl ⟨rfl, rfl⟩ ?_
  refine .ite .rfl (alike_assignable ..) ?_
  refine .ite .rfl (alike_assignable ..) ?_
  refine .ite .rfl ⟨rfl, rfl⟩ ?_
  refine .ite .rfl ⟨rfl, rfl⟩ ?_
  exact .ite .rfl ⟨rfl, rfl⟩ ⟨rfl, rfl⟩

theorem alike_step (mode : Mode) (depth : Nat) (interpolations : List Nat) (skip : Nat)
    (c : Char) (rest : List Char) (markupLength : Nat) :
    Alike (LexState.step ⟨mode, depth, interpolations, .operator, skip⟩ c rest markupLength)
      (LexState.step ⟨mode, depth, interpolations, .start, skip⟩ c rest markupLength) := by
  unfold LexState.step
  cases mode with
  | lineComment =>
    dsimp only
    split <;> exact ⟨rfl, rfl⟩
  | blockComment => exact .ite .rfl ⟨rfl, rfl⟩ ⟨rfl, rfl⟩
  | string quote => exact .ite .rfl ⟨rfl, rfl⟩ (.ite .rfl ⟨rfl, rfl⟩ ⟨rfl, rfl⟩)
  | template => exact .ite .rfl ⟨rfl, rfl⟩ (.ite .rfl ⟨rfl, rfl⟩ (.ite .rfl ⟨rfl, rfl⟩ ⟨rfl, rfl⟩))
  | code => exact alike_stepCode ..
  | crashed => exact ⟨rfl, rfl⟩

theorem alike_read (state : LexState) (c : Char) (rest : List Char) :
    Alike (state.read c rest) (state.canonical.read c rest) := by
  obtain ⟨mode, depth, interpolations, previous, skip⟩ := state
  cases previous with
  | start | value => exact ⟨rfl, rfl⟩
  | operator =>
      have markup : LexState.markupLength ⟨mode, depth, interpolations, .operator, skip⟩ c rest =
          LexState.markupLength ⟨mode, depth, interpolations, .start, skip⟩ c rest := by
        rfl
      rw [LexState.read, markup]
      exact alike_step ..

/-- What came last matters only as far as it was an operand. -/
theorem closingFrom_canonical (state : LexState) (text : List Char) :
    closingFrom state.canonical text = closingFrom state text := by
  induction text generalizing state with
  | nil => rfl
  | cons c rest induction =>
      rcases Nat.eq_zero_or_pos state.skip with fresh | skipped
      · obtain ⟨next, emitted⟩ := alike_read state c rest
        have there : state.canonical.skip = 0 := fresh
        rw [closingFrom_read fresh, closingFrom_read there, emitted,
          ← induction (state.read c rest).1, next, induction]
      · have there : 0 < state.canonical.skip := skipped
        rw [closingFrom_skip skipped, closingFrom_skip there, ← induction state.tick]
        rfl

/-- Blank characters of ASCII at the start of code are passed over. -/
theorem closingFrom_blanks (blank : blanks.all Text.isBlank = true)
    (ascii : ∀ c ∈ blanks, c.toNat < 0x80) (mode : state.mode = .code) (fresh : state.skip = 0)
    (first : state.previous ≠ .value) (text : List Char) :
    closingFrom state (blanks ++ text) = (closingFrom state text).map (· + blanks.length) := by
  induction blanks generalizing state with
  | nil => simp
  | cons c blanks induction =>
      rw [List.all_cons, Bool.and_eq_true] at blank
      obtain ⟨low, ascii⟩ := List.forall_mem_cons.mp ascii
      obtain ⟨next, read, same, mode', fresh', first'⟩ : ∃ next,
          state.read c (blanks ++ text) = (next, none) ∧ next.canonical = state.canonical ∧
            next.mode = .code ∧ next.skip = 0 ∧ next.previous ≠ .value := by
        rcases isBlank_cases blank.1 with space | feed | beyond
        · exact ⟨state, read_space space mode _, rfl, mode, fresh, first⟩
        · refine ⟨_, read_feed feed mode _, ?_, mode, rfl, nofun⟩
          rw [LexState.canonical, LexState.canonical, if_neg first, fresh]
          rfl
        · omega
      rw [List.cons_append, closingFrom_read fresh, read, if_neg nofun,
        induction blank.2 ascii mode' fresh' first', ← closingFrom_canonical next, same,
        closingFrom_canonical, Option.map_map]
      rfl

/-! ## Code that closes -/

theorem closes_bracket (closing : isClosing c = true) (more : List Char) :
    Closes [] (c :: more) :=
  ⟨rfl, c, more, rfl, closing⟩

theorem inner_afterOpening : LexState.afterOpening.Inner :=
  ⟨Nat.le_refl 1, nofun, nofun, nofun⟩

/-- Between brackets, the lexer comes to the end of the code in plain code: not in a comment, a
string, a template or a regular expression. -/
def EndsPlainly (code : List Char) : Prop := (LexState.afterOpening.after code [')']).Settled

/-- Read up to a bracket, the code closes there exactly if it ends in plain code there. -/
theorem Wraps.closingFrom_iff {line : Prop} {more : List Char} (closing : isClosing c = true)
    (wraps : Wraps state text (c :: more) line) :
    closingFrom state (text ++ c :: more) = some text.length ↔
      (state.after text (c :: more)).Settled := by
  rw [wraps.reads, ← closingFrom_zero_iff closing wraps.inner wraps.closes more,
    Option.map_eq_some_iff]
  constructor
  · rintro ⟨length, found, same⟩
    obtain rfl : length = 0 := by omega
    exact found
  · exact fun found => ⟨0, found, Nat.zero_add _⟩

/-- Where one bracket closes the code, any other one does. -/
theorem closingFrom_rebracket {bracket : Char} {more more' : List Char}
    (closing : isClosing c = true) (closing' : isClosing bracket = true)
    (found : closingFrom .afterOpening (text ++ c :: more) = some text.length) :
    closingFrom .afterOpening (text ++ bracket :: more') = some text.length := by
  have wraps := (closes_bracket closing more).wraps (closes_bracket closing' more') text
    inner_afterOpening (fun _ => Nat.zero_le _) found
  exact (wraps.closingFrom_iff closing').mpr (wraps.settled.resolve_right nofun)

theorem matching?_eq_some_iff {opening : Char} {more : List Char} (opens : isOpening opening = true) :
    matching? (opening :: text ++ c :: more) 0 = some (text.length + 1) ↔
      closingFrom .afterOpening (text ++ c :: more) = some text.length := by
  rw [matching?, List.drop_zero, List.cons_append]
  dsimp only
  rw [if_pos opens, Option.map_eq_some_iff]
  constructor
  · rintro ⟨length, found, same⟩
    obtain rfl : length = text.length := by omega
    exact found
  · exact fun found => ⟨_, found, by omega⟩

/-- Code that a bracket closes behind blank characters closes between any other brackets exactly if it
ends in plain code, which it does unless the end of a line is among the blank characters. -/
theorem Closes.endsPlainly (closes : Closes blanks tail)
    (found : closingFrom .afterOpening (text ++ tail) = some (text.length + blanks.length)) :
    (EndsPlainly text ↔ ∀ opening closing more, isOpening opening = true → isClosing closing = true →
      matching? (opening :: text ++ closing :: more) 0 = some (text.length + 1)) ∧
    ('\n' ∉ blanks → EndsPlainly text) := by
  have wraps : Wraps .afterOpening text [')'] ('\n' ∈ blanks) :=
    closes.wraps (closes_bracket rfl []) text inner_afterOpening (fun _ => Nat.zero_le _) found
  have plain := wraps.closingFrom_iff rfl
  refine ⟨⟨fun ends opening closing more opens closing' => ?_, fun all => ?_⟩, fun line => ?_⟩
  · exact (matching?_eq_some_iff opens).mpr (closingFrom_rebracket rfl closing' (plain.mpr ends))
  · exact plain.mp ((matching?_eq_some_iff rfl).mp (all '(' ')' [] rfl rfl))
  · exact wraps.settled.resolve_right line

end Code
end ReactiveTemplate
