import ReactiveTemplate.Proofs.Code.Interpolation

/-!
# Brackets and the depths of tokens

The bracket that closes another one is found by reading on from there with a lexer of its own, which
knows nothing of the brackets and interpolations around it.  The lexer that has read all of the code
in front is the same one at a greater depth, with more interpolations open below.  As long as these
lie below the bracket, neither of the two leaves the brackets before the other does, so that the
closing bracket is the next one at the depth of the opening one.
-/

namespace ReactiveTemplate
namespace Code

variable {text rest : List Char} {c : Char} {state outer : LexState} {e : Emission} {token : Token}

/-! ## Code inside further brackets -/

/-- The same state, where the brackets and interpolations of another one are open around the code. -/
def LexState.inside (state outer : LexState) : LexState :=
  { state with
    depth := outer.depth + state.depth
    interpolations := state.interpolations.map (outer.depth + ·) ++ outer.interpolations }

/-- The same token, so many brackets further inside. -/
def Emission.deepen (depth : Nat) (e : Emission) : Emission := { e with depth := depth + e.depth }

/-- The outcome of a step, where further brackets and interpolations are open around the code. -/
def LexState.enclose (outer : LexState) (outcome : LexState × Option Emission) :
    LexState × Option Emission :=
  (outcome.1.inside outer, outcome.2.map (.deepen outer.depth))

theorem enclose_ite {p : Prop} [Decidable p] {yes no yes' no' : LexState × Option Emission}
    (left : yes' = outer.enclose yes) (right : no' = outer.enclose no) :
    (if p then yes' else no') = outer.enclose (if p then yes else no) := by
  rw [apply_ite outer.enclose, left, right]

theorem assignable_inside (state : LexState) (kind : TokenKind) (text : List Char) :
    (state.inside outer).assignable kind text = outer.enclose (state.assignable kind text) := by
  unfold LexState.assignable
  split <;> rfl

namespace LexState.Inner

theorem closedDepth_inside (inner : state.Inner) (outer : LexState) :
    (state.inside outer).closedDepth = outer.depth + state.closedDepth :=
  Nat.add_sub_assoc inner.depth outer.depth

/-- A brace ends an interpolation of the code, or it ends none: those around the code lie below. -/
theorem ends_inside (inner : state.Inner) (nested : outer.Nested) :
    (state.inside outer).interpolations.head? = some (state.inside outer).closedDepth ↔
      state.interpolations.head? = some state.closedDepth := by
  rw [inner.closedDepth_inside outer, LexState.inside]
  cases open_ : state.interpolations with
  | nil =>
      refine iff_of_false (fun head => ?_) (Option.some_ne_none _).symm
      have below := nested.below _ (List.mem_of_head? head)
      omega
  | cons depth others =>
      simp

theorem close_inside (inner : state.Inner) (nested : outer.Nested) (c : Char) :
    (state.inside outer).close c = outer.enclose (state.close c) := by
  unfold LexState.close
  rw [inner.closedDepth_inside outer]
  by_cases ends : c = '}' ∧ state.interpolations.head? = some state.closedDepth
  · rw [if_pos ends, if_pos]
    · obtain ⟨others, shape⟩ := List.head?_eq_some_iff.mp ends.2
      have high : 1 ≤ (state.inside outer).depth := Nat.le_add_left_of_le inner.depth
      rw [endInterpolation_of_pos inner.depth, endInterpolation_of_pos high]
      simp [LexState.enclose, LexState.inside, shape, Nat.add_sub_assoc inner.depth]
    · rw [← inner.closedDepth_inside outer]
      exact ⟨ends.1, (inner.ends_inside nested).mpr ends.2⟩
  · rw [if_neg ends, if_neg]
    · rfl
    · rw [← inner.closedDepth_inside outer]
      exact fun head => ends ⟨head.1, (inner.ends_inside nested).mp head.2⟩

theorem stepCode_inside (inner : state.Inner) (nested : outer.Nested) (c : Char)
    (rest : List Char) (markupLength : Nat) :
    (state.inside outer).stepCode c rest markupLength =
      outer.enclose (state.stepCode c rest markupLength) := by
  have opening : outer.depth + state.depth + 1 = outer.depth + (state.depth + 1) :=
    Nat.add_assoc ..
  unfold LexState.stepCode
  refine enclose_ite rfl ?_
  refine enclose_ite rfl ?_
  refine enclose_ite rfl ?_
  refine enclose_ite rfl ?_
  refine enclose_ite rfl ?_
  refine enclose_ite rfl ?_
  refine enclose_ite (by simp [LexState.enclose, LexState.inside, Emission.deepen, opening]) ?_
  refine enclose_ite (inner.close_inside nested c) ?_
  refine enclose_ite ?_ ?_
  · split
    · exact assignable_inside ..
    · exact enclose_ite rfl (enclose_ite rfl rfl)
    · rfl
  refine enclose_ite (enclose_ite rfl (enclose_ite rfl rfl)) ?_
  refine enclose_ite rfl ?_
  refine enclose_ite rfl ?_
  refine enclose_ite (assignable_inside ..) ?_
  refine enclose_ite (assignable_inside ..) ?_
  refine enclose_ite rfl ?_
  refine enclose_ite rfl ?_
  exact enclose_ite rfl rfl

/-- What is read between brackets is the same whatever is open around them. -/
theorem read_inside (inner : state.Inner) (nested : outer.Nested) (c : Char) (rest : List Char) :
    (state.inside outer).read c rest = outer.enclose (state.read c rest) := by
  have markup : (state.inside outer).markupLength c rest = state.markupLength c rest := rfl
  rw [LexState.read, markup, LexState.read]
  have same : (state.inside outer).mode = state.mode := rfl
  unfold LexState.step
  rw [same]
  cases state.mode with
  | lineComment =>
      dsimp only
      split <;> rfl
  | blockComment => exact enclose_ite rfl rfl
  | string quote => exact enclose_ite rfl (enclose_ite rfl rfl)
  | template =>
      have opening : outer.depth + state.depth + 1 = outer.depth + (state.depth + 1) :=
        Nat.add_assoc ..
      refine enclose_ite rfl (enclose_ite rfl (enclose_ite ?_ rfl))
      simp [LexState.enclose, LexState.inside, opening]
  | code => exact inner.stepCode_inside nested c rest _
  | crashed => rfl

end LexState.Inner

/-! ## The first bracket at a depth -/

/-- The other token is a closing bracket at the depth of this one. -/
def Token.isClosedBy (token later : Token) : Bool :=
  later.kind == .closing && later.depth == token.depth

/-- Between brackets, the next token that closes at the depth around them is the one that a lexer
which starts there stops at. -/
theorem LexState.Inner.find?_isClosedBy (inner : state.Inner) (nested : outer.Nested)
    (around : token.depth = outer.depth) (index : Nat) (text : List Char) :
    ((tokensFrom (state.inside outer) index text).find? token.isClosedBy).map (·.start) =
      (closingFrom state text).map (index + ·) := by
  induction text generalizing state index with
  | nil => rfl
  | cons c rest induction =>
      have further (state : LexState) :
          (closingFrom state rest).map (index + 1 + ·) =
            ((closingFrom state rest).map (· + 1)).map (index + ·) := by
        rw [Option.map_map]
        refine congrArg (Option.map · _) ?_
        funext length
        simp only [Function.comp_apply]
        omega
      rcases Nat.eq_zero_or_pos state.skip with fresh | skipped
      · have fresh' : (state.inside outer).skip = 0 := fresh
        rw [tokensFrom_step fresh', closingFrom_read fresh, inner.read_inside nested,
          List.find?_append]
        split
        · rename_i emitted
          simp [LexState.enclose, emitted, Emission.deepen, Emission.token, Token.isClosedBy, around]
        · rename_i silent
          have none : ((outer.enclose (state.read c rest)).2.toList.map
              (Emission.token index)).find? token.isClosedBy = none := by
            rw [List.find?_eq_none]
            intro own member closes
            obtain ⟨deep, emitted, rfl⟩ := List.mem_map.mp member
            obtain ⟨e, step, rfl⟩ := Option.map_eq_some_iff.mp (Option.mem_toList.mp emitted)
            simp only [Token.isClosedBy, Emission.token, Emission.deepen, around,
              Bool.and_eq_true, beq_iff_eq] at closes
            obtain rfl := eq_of_closing step closes.1
            have outermost : state.closedDepth = 0 := Nat.add_left_cancel
              (closes.2.trans (Nat.add_zero _).symm)
            exact silent (by rw [step, outermost])
          rw [none, Option.none_or, ← further, ← induction (inner.read silent)]
          rfl
      · have skipped' : 0 < (state.inside outer).skip := skipped
        rw [tokensFrom_skip skipped', closingFrom_skip skipped, ← further, ← induction inner.tick]
        rfl

/-- An opening bracket starts code of its own at the next depth. -/
theorem read_of_opening (emitted : (state.read c rest).2 = some e) (kind : e.kind = .opening) :
    isOpening c = true ∧ e = ⟨.opening, 1, state.depth⟩ ∧
      (state.read c rest).1 = { state with depth := state.depth + 1, previous := .start } := by
  revert emitted
  unfold LexState.read
  fun_cases LexState.step state c rest (state.markupLength c rest) with
  | case11 =>
      fun_cases LexState.stepCode state c rest (state.markupLength c rest) with
      | case7 _ _ _ _ _ _ _ bracket =>
          rintro ⟨⟩
          refine ⟨?_, rfl, rfl⟩
          simpa [isOpening, or_assoc] using bracket
      | case8 =>
          intro emitted
          cases kind.symm.trans (kind_of_close emitted)
      | case9 | case19 | case20 =>
          intro emitted
          cases kind.symm.trans (kind_of_assignable emitted)
      | _ => rintro ⟨⟩ <;> cases kind
  | _ => rintro ⟨⟩

theorem LexState.afterOpening_inside (state : LexState) (settled : state.Settled) :
    LexState.afterOpening.inside state =
      { state with depth := state.depth + 1, previous := .start } := by
  obtain ⟨mode, depth, interpolations, previous, skip⟩ := state
  obtain ⟨rfl, rfl⟩ := settled
  rfl

/-- The bracket that closes an opening one is the next token that closes at its depth. -/
theorem LexState.Nested.matching?_eq (nested : state.Nested) (front : List Char)
    (kept : LexState.Always (fun state ahead => ¬ state.Breaks ahead) state text)
    {before after : List Token} (opens : token.kind = .opening)
    (split : tokensFrom state front.length text = before ++ token :: after) :
    matching? (front ++ text) token.start = (after.find? token.isClosedBy).map (·.start) := by
  induction text generalizing state front before with
  | nil => simp [tokensFrom] at split
  | cons c rest induction =>
      have onwards (before : List Token)
          (split : tokensFrom (state.next c rest) (front.length + 1) rest =
            before ++ token :: after) :
          matching? (front ++ c :: rest) token.start =
            (after.find? token.isClosedBy).map (·.start) := by
        rw [← List.singleton_append, ← List.append_assoc]
        have later : tokensFrom (state.next c rest) (front ++ [c]).length rest =
            before ++ token :: after := by
          rw [List.length_append]
          exact split
        exact induction (nested.next kept.1) (front ++ [c]) kept.2 later
      unfold LexState.next at onwards
      rcases Nat.eq_zero_or_pos state.skip with fresh | skipped
      · rw [if_neg (by omega)] at onwards
        rw [tokensFrom_step fresh] at split
        cases emitted : (state.read c rest).2 with
        | none => exact onwards before (by rwa [emitted] at split)
        | some e =>
            rw [emitted, Option.toList_some, List.map_singleton, List.singleton_append,
              List.cons_eq_append_iff] at split
            rcases split with ⟨rfl, here⟩ | ⟨before', rfl, later⟩
            · obtain ⟨rfl, rfl⟩ := List.cons.inj here
              obtain ⟨bracket, rfl, next⟩ := read_of_opening emitted opens
              rw [next, ← state.afterOpening_inside ⟨mode_of_read emitted, fresh⟩,
                inner_afterOpening.find?_isClosedBy nested rfl]
              simp only [Emission.token]
              rw [matching?_append_length, matching?, List.drop_zero]
              dsimp only
              rw [if_pos bracket, Option.map_map]
              refine congrArg (Option.map · _) ?_
              funext length
              simp only [Function.comp_apply]
              omega
            · exact onwards before' later
      · rw [if_pos skipped] at onwards
        exact onwards before (by rwa [tokensFrom_skip skipped] at split)

/-- As long as the interpolations that are open lie below the depth, a bracket is closed by the first
closing bracket behind it among the tokens of the code that has its depth, if there is one. -/
theorem matching?_first_closing {before after : List Token}
    (below : LexState.Always (fun state _ => state.Below) {} text)
    (split : tokens text = before ++ token :: after) (opens : token.kind = .opening) :
    matching? text token.start =
      (after.find? fun later => later.kind == .closing && later.depth == token.depth).map (·.start) :=
  nested_start.matching?_eq [] ((nested_start.always_below_iff text).mp below) opens split

/-- Brackets in an interpolation that close others of another kind, and one that nothing closes. -/
def mixedBrackets : List Char := "\x60$\x7bf([a)\x7d b\x7d\x60(".toList

instance (state : LexState) : Decidable state.Below :=
  inferInstanceAs (Decidable (∀ outer ∈ state.interpolations, outer < state.depth))

theorem matching?_first_closing_mixed :
    LexState.Always (fun state _ => state.Below) {} mixedBrackets ∧
      (tokens mixedBrackets).map (fun token => (token.kind, token.start, token.depth)) =
        [(.opening, 4, 1), (.opening, 5, 2), (.closing, 7, 2), (.closing, 8, 1), (.opening, 13, 0)] ∧
      matching? mixedBrackets 4 = some 8 ∧ matching? mixedBrackets 13 = none := by
  have below : LexState.Always (fun state _ => state.Below) {} mixedBrackets := by decide +kernel
  have first : tokens mixedBrackets = [] ++ ⟨.opening, 4, 5, 1⟩ :: (tokens mixedBrackets).tail := by
    decide +kernel
  have last : tokens mixedBrackets = (tokens mixedBrackets).dropLast ++ [⟨.opening, 13, 14, 0⟩] := by
    decide +kernel
  exact ⟨below, by decide +kernel,
    (matching?_first_closing below first rfl).trans (by decide +kernel),
    matching?_first_closing below last rfl⟩

end Code
end ReactiveTemplate
