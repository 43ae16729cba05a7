import ReactiveTemplate.Proofs.Code.Wrapping

/-!
# Interpolations and depth

Every interpolation is opened one level above the depth that is kept for it, and its brace goes back
to that depth.  Between the two, any closing bracket lowers the depth, whatever its kind.  As long
as the bracket that closes the brace of an interpolation is a brace, the depths that are kept lie
below the present one, the inner ones above the outer ones.  A round or a square bracket in its
place leaves the interpolation open at its own depth; the brace that ends it later may then stand at
depth zero, where the lexer crashes.
-/

namespace ReactiveTemplate
namespace Code

variable {text rest ahead : List Char} {c : Char} {state : LexState}
  {property : LexState → List Char → Prop}

/-! ## States of a run -/

/-- Reading the text, every state and what is ahead of it have the property. -/
def LexState.Always (property : LexState → List Char → Prop) : LexState → List Char → Prop
  | state, [] => property state []
  | state, c :: rest => property state (c :: rest) ∧ Always property (state.next c rest) rest

namespace LexState.Always

theorem here (always : LexState.Always property state text) : property state text := by
  cases text with
  | nil => exact always
  | cons c rest => exact always.1

theorem mono {property' : LexState → List Char → Prop}
    (implies : ∀ state ahead, property state ahead → property' state ahead)
    (always : LexState.Always property state text) : LexState.Always property' state text := by
  induction text generalizing state with
  | nil => exact implies _ _ always
  | cons c rest induction => exact ⟨implies _ _ always.1, induction always.2⟩

end LexState.Always

instance LexState.decidableAlways [∀ state ahead, Decidable (property state ahead)] :
    ∀ state text, Decidable (LexState.Always property state text)
  | state, [] => inferInstanceAs (Decidable (property state []))
  | state, c :: rest =>
    have := LexState.decidableAlways (state.next c rest) rest
    inferInstanceAs (Decidable (_ ∧ _))

instance (state : LexState) : Decidable state.Settled := inferInstanceAs (Decidable (_ ∧ _))

/-- The interpolations that are open were opened at lower depths. -/
def LexState.Below (state : LexState) : Prop :=
  ∀ outer ∈ state.interpolations, outer < state.depth

/-- A round or a square bracket stands where a brace would end the innermost interpolation. -/
def LexState.Breaks (state : LexState) (ahead : List Char) : Prop :=
  state.Settled ∧ (ahead.head? = some ')' ∨ ahead.head? = some ']') ∧
    state.interpolations.head? = some state.closedDepth

/-- A brace ends the innermost interpolation. -/
def LexState.EndsInterpolation (state : LexState) (ahead : List Char) : Prop :=
  state.Settled ∧ ahead.head? = some '}' ∧ state.interpolations.head? = some state.closedDepth

instance (ahead : List Char) : Decidable (state.Breaks ahead) :=
  inferInstanceAs (Decidable (_ ∧ _ ∧ _))

instance (ahead : List Char) : Decidable (state.EndsInterpolation ahead) :=
  inferInstanceAs (Decidable (_ ∧ _ ∧ _))

/-- The interpolations that are open lie in each other, below the present depth. -/
structure LexState.Nested (state : LexState) : Prop where
  /-- The depths that are kept lie below the present one. -/
  below : state.Below
  /-- The inner ones are higher. -/
  ordered : state.interpolations.Pairwise (· > ·)

namespace LexState.Nested

theorem tick (nested : state.Nested) : state.tick.Nested := ⟨nested.below, nested.ordered⟩

theorem deeper (nested : state.Nested) {next : LexState} (depth : next.depth = state.depth + 1)
    (interpolations : next.interpolations = state.interpolations) : next.Nested := by
  refine ⟨fun outer member => ?_, interpolations ▸ nested.ordered⟩
  rw [interpolations] at member
  have := nested.below outer member
  omega

/-- A state with the same interpolations at the same depth. -/
theorem keep (nested : state.Nested) {next : LexState} (depth : next.depth = state.depth)
    (interpolations : next.interpolations = state.interpolations) : next.Nested := by
  obtain ⟨below, ordered⟩ := nested
  unfold LexState.Below at below
  rw [← depth, ← interpolations] at below
  rw [← interpolations] at ordered
  exact ⟨below, ordered⟩

/-- A brace in the place of the one that ends an interpolation, or any bracket in another place,
keeps the interpolations nested. -/
theorem close (nested : state.Nested)
    (kept : c = '}' ∨ state.interpolations.head? ≠ some state.closedDepth) :
    (state.close c).1.Nested := by
  cases shape : state.interpolations with
  | nil =>
      have silent : ¬ (c = '}' ∧ state.interpolations.head? = some state.closedDepth) := by
        simp [shape]
      rw [LexState.close, if_neg silent]
      exact ⟨by simp [LexState.Below, shape], by simp [shape]⟩
  | cons outer others =>
      have bounds : ∀ depth ∈ outer :: others, depth < state.depth := shape ▸ nested.below
      have ordered := nested.ordered
      rw [shape] at ordered kept
      rw [List.forall_mem_cons] at bounds
      rw [List.pairwise_cons] at ordered
      have high : 1 ≤ state.depth := Nat.one_le_of_lt bounds.1
      rw [LexState.close, shape]
      unfold LexState.closedDepth at kept ⊢
      split
      · -- the interpolation is left, and the depth is the one that was kept for it
        rename_i ends
        have same : outer = state.depth - 1 := Option.some_inj.mp ends.2
        rw [endInterpolation_of_pos high, shape]
        refine ⟨fun other member => ?_, ordered.2⟩
        have further := ordered.1 other member
        dsimp only
        omega
      · rename_i stays
        have apart : outer ≠ state.depth - 1 := by
          intro same
          have head : (outer :: others).head? = some (state.depth - 1) := congrArg some same
          exact kept.elim (fun brace => stays ⟨brace, head⟩) fun other => other head
        refine ⟨fun other member => ?_, shape ▸ List.pairwise_cons.mpr ordered⟩
        dsimp only
        rcases List.mem_cons.mp member with rfl | member
        · omega
        · have further := ordered.1 other member
          omega

theorem assignable (nested : state.Nested) (kind : TokenKind) (text : List Char) :
    (state.assignable kind text).1.Nested := by
  unfold LexState.assignable
  split <;> exact nested.keep rfl rfl

theorem stepCode (nested : state.Nested) {markupLength : Nat}
    (kept : c = ')' ∨ c = ']' → state.interpolations.head? ≠ some state.closedDepth) :
    (state.stepCode c rest markupLength).1.Nested := by
  fun_cases LexState.stepCode state c rest markupLength with
  | case7 => exact nested.deeper rfl rfl
  | case8 _ _ _ _ _ _ _ _ bracket =>
      refine nested.close ?_
      rcases bracket with round | square | brace
      · exact .inr (kept (.inl round))
      · exact .inr (kept (.inr square))
      · exact .inl brace
  | case9 | case19 | case20 => exact nested.assignable ..
  | _ => exact nested.keep rfl rfl

/-- What is read keeps the interpolations nested, unless it breaks out of one of them. -/
theorem read (nested : state.Nested)
    (kept : state.mode = .code → c = ')' ∨ c = ']' →
      state.interpolations.head? ≠ some state.closedDepth) : (state.read c rest).1.Nested := by
  unfold LexState.read
  fun_cases LexState.step state c rest (state.markupLength c rest) with
  | case1 =>
      split
      · exact nested.keep rfl rfl
      · exact nested
  | case9 =>
      refine ⟨?_, List.pairwise_cons.mpr ⟨nested.below, nested.ordered⟩⟩
      exact List.forall_mem_cons.mpr ⟨Nat.lt_succ_self _, fun outer member =>
        Nat.lt_succ_of_lt (nested.below outer member)⟩
  | case11 mode => exact nested.stepCode (kept mode)
  | _ => exact nested.keep rfl rfl

/-- A character that breaks out of no interpolation keeps them nested. -/
theorem next (nested : state.Nested) (kept : ¬ state.Breaks (c :: rest)) :
    (state.next c rest).Nested := by
  unfold LexState.next
  split
  · exact nested.tick
  · rename_i fresh
    refine nested.read fun mode bracket head => kept ⟨⟨mode, ?_⟩, ?_, head⟩
    · exact Nat.eq_zero_of_not_pos fresh
    · exact bracket.imp (congrArg some) (congrArg some)

/-- A bracket that breaks out of an interpolation leaves it open at its own depth. -/
theorem not_below_next (breaks : state.Breaks (c :: rest)) :
    ¬ (state.next c rest).Below := by
  obtain ⟨⟨mode, fresh⟩, bracket, head⟩ := breaks
  have round : c ≠ '}' ∧ isClosing c = true := by
    rcases bracket with same | same <;> cases same <;> decide
  have read : (state.read c rest).1 =
      { state with depth := state.closedDepth, previous := .value } := by
    rw [read_of_isClosing round.2 mode, LexState.close, if_neg fun ends => round.1 ends.1]
  rw [LexState.next, if_neg (by omega), read]
  intro below
  exact absurd (below _ (List.mem_of_head? head)) (Nat.lt_irrefl _)

/-- The interpolations of a run lie below the depth exactly if no bracket breaks out of one. -/
theorem always_below_iff (nested : state.Nested) (text : List Char) :
    LexState.Always (fun state _ => state.Below) state text ↔
      LexState.Always (fun state ahead => ¬ state.Breaks ahead) state text := by
  induction text generalizing state with
  | nil =>
      refine iff_of_true nested.below fun breaks => ?_
      rcases breaks.2.1 with none | none <;> cases none
  | cons c rest induction =>
      rw [LexState.Always, LexState.Always, and_iff_right nested.below]
      by_cases breaks : state.Breaks (c :: rest)
      · have fails := not_below_next breaks
        refine iff_of_false (fun always => fails ?_) fun always => always.1 breaks
        exact always.here
      · rw [and_iff_right breaks]
        exact induction (nested.next breaks)

/-- Where no bracket breaks out of an interpolation, they stay nested. -/
theorem always (nested : state.Nested)
    (kept : LexState.Always (fun state ahead => ¬ state.Breaks ahead) state text) :
    LexState.Always (fun state _ => state.Nested) state text := by
  induction text generalizing state with
  | nil => exact nested
  | cons c rest induction => exact ⟨nested, induction (nested.next kept.1) kept.2⟩

/-- Where an interpolation can end, the depth is above zero. -/
theorem one_le_depth (nested : state.Nested) (ends : state.EndsInterpolation ahead) :
    1 ≤ state.depth := by
  have below := nested.below _ (List.mem_of_head? ends.2.2)
  exact Nat.one_le_of_lt below

end LexState.Nested

theorem nested_start : LexState.Nested {} := ⟨nofun, .nil⟩

/-! ## Crashes -/

/-- The lexer crashes only at a closing bracket in code. -/
theorem isClosing_of_crashed (runs : state.mode ≠ .crashed)
    (crashed : (state.read c rest).1.mode = .crashed) :
    state.mode = .code ∧ isClosing c = true := by
  revert crashed
  unfold LexState.read
  fun_cases LexState.step state c rest (state.markupLength c rest) with
  | case11 mode =>
      fun_cases LexState.stepCode state c rest (state.markupLength c rest) with
      | case8 _ _ _ _ _ _ _ _ bracket =>
          exact fun _ => ⟨mode, by simpa [isClosing, or_assoc] using bracket⟩
      | case9 | case19 | case20 =>
          unfold LexState.assignable
          split <;> exact fun crashed => absurd crashed runs
      | case2 | case3 | case5 | case6 => rintro ⟨⟩
      | _ => exact fun crashed => absurd crashed runs
  | case1 =>
      split
      · rintro ⟨⟩
      · exact fun crashed => absurd crashed runs
  | case2 | case5 | case8 | case9 => rintro ⟨⟩
  | _ => exact fun crashed => absurd crashed runs

/-- A closing bracket crashes the lexer where a brace ends an interpolation at depth zero. -/
theorem mode_close_eq_crashed (mode : state.mode = .code) :
    (state.close c).1.mode = .crashed ↔
      c = '}' ∧ state.interpolations.head? = some state.closedDepth ∧ state.depth = 0 := by
  unfold LexState.close LexState.endInterpolation
  split_ifs with ends zero
  · exact iff_of_true rfl ⟨ends.1, ends.2, zero⟩
  · exact iff_of_false nofun fun all => zero all.2.2
  · refine iff_of_false (fun crashed => ?_) fun all => ends ⟨all.1, all.2.1⟩
    cases mode.symm.trans crashed

theorem crashed_next_iff (runs : state.mode ≠ .crashed) :
    (state.next c rest).mode = .crashed ↔
      state.EndsInterpolation (c :: rest) ∧ state.depth = 0 := by
  unfold LexState.next
  split
  · rename_i skipped
    exact iff_of_false runs fun ends => absurd ends.1.1.2 (Nat.ne_of_gt skipped)
  · rename_i fresh
    have settled : state.skip = 0 := Nat.eq_zero_of_not_pos fresh
    constructor
    · intro crashed
      obtain ⟨mode, closing⟩ := isClosing_of_crashed runs crashed
      rw [read_of_isClosing closing mode, mode_close_eq_crashed mode] at crashed
      exact ⟨⟨⟨mode, settled⟩, congrArg some crashed.1, crashed.2.1⟩, crashed.2.2⟩
    · rintro ⟨⟨⟨mode, -⟩, brace, head⟩, zero⟩
      obtain rfl := Option.some_inj.mp brace
      rw [read_of_isClosing rfl mode, mode_close_eq_crashed mode]
      exact ⟨rfl, head, zero⟩

/-- Nothing is read after a crash. -/
theorem LexState.final_of_crashed (crashed : state.mode = .crashed) (text : List Char) :
    (LexState.final state text).mode = .crashed := by
  induction text generalizing state with
  | nil => exact crashed
  | cons c rest induction =>
      refine induction ?_
      unfold LexState.next
      split
      · exact crashed
      · simp [LexState.read, LexState.step, crashed]

/-- The lexer comes to the end of a text exactly if all interpolations end above depth zero. -/
theorem LexState.final_runs_iff (runs : state.mode ≠ .crashed) (text : List Char) :
    (LexState.final state text).mode ≠ .crashed ↔
      LexState.Always (fun state ahead => state.EndsInterpolation ahead → 1 ≤ state.depth) state
        text := by
  induction text generalizing state with
  | nil => exact iff_of_true runs fun ends => nomatch ends.2.1
  | cons c rest induction =>
      rw [LexState.final, LexState.Always]
      by_cases crashed : (state.next c rest).mode = .crashed
      · obtain ⟨ends, zero⟩ := (crashed_next_iff runs).mp crashed
        refine iff_of_false (not_not.mpr (LexState.final_of_crashed crashed rest)) fun always => ?_
        have high := always.1 ends
        omega
      · rw [induction crashed, and_iff_right]
        intro ends
        exact Nat.one_le_iff_ne_zero.mpr fun zero => crashed ((crashed_next_iff runs).mpr ⟨ends, zero⟩)

/-- The tokens of a text are given exactly if all interpolations end above depth zero. -/
theorem scan?_eq_some_iff (text : List Char) :
    scan? text = some (tokens text) ↔
      LexState.Always (fun state ahead => state.EndsInterpolation ahead → 1 ≤ state.depth) {} text := by
  rw [← LexState.final_runs_iff (by decide) text, scan?, crashes]
  split
  · rename_i crashed
    exact iff_of_false nofun (not_not.mpr (beq_iff_eq.mp crashed))
  · rename_i runs
    exact iff_of_true rfl fun crashed => runs (beq_iff_eq.mpr crashed)

/-- Interpolations start with a dollar sign and a brace. -/
theorem interpolations_read (none : state.interpolations = [])
    (plain : ¬ (c = '$' ∧ rest.head? = some '\x7b')) :
    (state.read c rest).1.interpolations = [] := by
  unfold LexState.read
  fun_cases LexState.step state c rest (state.markupLength c rest) with
  | case1 => split <;> exact none
  | case9 _ _ _ opens => exact absurd opens plain
  | case11 =>
      fun_cases LexState.stepCode state c rest (state.markupLength c rest) with
      | case8 => rw [LexState.close, if_neg (by simp [none])]; exact none
      | case9 | case19 | case20 =>
          unfold LexState.assignable
          split <;> exact none
      | _ => exact none
  | _ => exact none

theorem interpolation_of_final (none : state.interpolations = []) (runs : state.mode ≠ .crashed)
    (crashed : (LexState.final state text).mode = .crashed) : ['$', '\x7b'] <:+: text := by
  induction text generalizing state with
  | nil => exact absurd crashed runs
  | cons c rest induction =>
      by_cases opens : c = '$' ∧ rest.head? = some '\x7b'
      · obtain ⟨rfl, brace⟩ := opens
        obtain ⟨behind, rfl⟩ := List.head?_eq_some_iff.mp brace
        exact ⟨[], behind, rfl⟩
      · have kept : (state.next c rest).interpolations = [] := by
          unfold LexState.next
          split
          · exact none
          · exact interpolations_read none opens
        refine (induction kept (fun now => ?_) crashed).trans (List.suffix_cons c rest).isInfix
        have head := ((crashed_next_iff runs).mp now).1.2.2
        rw [none] at head
        cases head

/-- The lexer crashes on a text only if an interpolation starts in it. -/
theorem interpolation_of_crashes (crashed : crashes text = true) : ['$', '\x7b'] <:+: text :=
  interpolation_of_final rfl (by decide) (beq_iff_eq.mp crashed)

/-- The interpolations that are open always lie below the depth exactly if no round or square
bracket stands where a brace would end one.  Then interpolations end at depths above zero only.  The
tokens of a text are given exactly if they do, and otherwise the lexer crashes. -/
theorem interpolations_below_iff (text : List Char) :
    (LexState.Always (fun state _ => state.Below) {} text ↔
      LexState.Always (fun state ahead => ¬ state.Breaks ahead) {} text) ∧
    (LexState.Always (fun state ahead => ¬ state.Breaks ahead) {} text →
      LexState.Always (fun state ahead => state.EndsInterpolation ahead → 1 ≤ state.depth) {} text) ∧
    (LexState.Always (fun state ahead => state.EndsInterpolation ahead → 1 ≤ state.depth) {} text ↔
      scan? text = some (tokens text)) := by
  refine ⟨nested_start.always_below_iff text, fun kept => ?_, (scan?_eq_some_iff text).symm⟩
  exact (nested_start.always kept).mono fun _ _ here => here.one_le_depth

/-- A template in an interpolation, inside further brackets. -/
def templateInBrackets : List Char :=
  "\x60a $\x7bf(\x7b b: [\x60$\x7bc\x7d\x60] \x7d)\x7d d\x60[i]".toList

theorem interpolations_below_iff_brackets :
    LexState.Always (fun state ahead => ¬ state.Breaks ahead) {} templateInBrackets ∧
      LexState.Always (fun state ahead => state.EndsInterpolation ahead → 1 ≤ state.depth) {}
        templateInBrackets := by
  have kept : LexState.Always (fun state ahead => ¬ state.Breaks ahead) {} templateInBrackets := by
    decide +kernel
  exact ⟨kept, (interpolations_below_iff templateInBrackets).2.1 kept⟩

/-- A round bracket in the place of the brace that ends an interpolation. -/
example : scan? "\x60$\x7b)\x7d\x60(x)".toList = none := by decide +kernel

end Code
end ReactiveTemplate
