import ReactiveTemplate.Proofs.Code.ByteSteps
import ReactiveTemplate.Proofs.Code.Interpolation

/-!
# Runs through bytes

The run through the bytes of a text follows the run through the text, one character at a time: the
first byte of a character is read, and the others are ignored.  So code closes, markup ends and
tokens are found in the bytes where they do in the text.
-/

namespace ReactiveTemplate
namespace Code

open Text

variable {text rest ahead : List Char} {b c : Char} {state : LexState}

/-! ## Runs -/

/-- The bytes of a character that has been read already. -/
theorem LexState.Proper.ignores_inBytes (proper : state.Proper) (skipped : 0 < state.skip)
    (c : Char) (rest : List Char) :
    (state.inBytes (c :: rest)).Ignores (encodeChar c) ∧
      (state.inBytes (c :: rest)).passing (encodeChar c).length = state.tick.inBytes rest := by
  obtain ⟨skip, same⟩ := Nat.exists_eq_add_of_le' skipped
  rw [LexState.Ignores, length_encodeChar]
  have positive := c.utf8Size_pos
  by_cases escapes : state.mode.escapes = true
  · have single := proper.skip escapes
    simp only [LexState.inBytes, LexState.passing, LexState.tick, escapes, if_true]
    constructor
    · rcases Nat.lt_or_ge c.toNat 0x80 with ascii | beyond
      · rw [utf8Size_of_ascii ascii]
        exact .inl skipped
      · refine .inr ⟨fun mode => ?_, fun b => le_of_mem_encodeChar beyond⟩
        rw [mode] at escapes
        cases escapes
    · rw [show state.skip - c.utf8Size = state.skip - 1 by omega]
  · simp only [LexState.inBytes, LexState.passing, LexState.tick, escapes, same, byteOffset_cons,
      Bool.false_eq_true, if_false, Nat.add_sub_cancel_left, Nat.add_sub_cancel, and_true]
    exact .inl (Nat.le_add_right _ _)

namespace LexState.Ignores

theorem tail (ignores : state.Ignores (b :: text)) : state.tick.Ignores text := by
  refine ignores.imp (fun long => ?_) fun other => ⟨other.1, fun c member => ?_⟩
  · exact Nat.le_sub_of_add_le long
  · exact other.2 c (List.mem_cons_of_mem _ member)

/-- A character that nothing is read in counts as read, and does not stand in plain code. -/
theorem head (ignores : state.Ignores (b :: text)) (proper : state.Proper) :
    (0 < state.skip ∨ state.skip = 0 ∧ ∀ ahead, state.read b ahead = (state.tick, none)) ∧
      ¬ state.Settled := by
  rcases ignores with long | ⟨mode, beyond⟩
  · have skipped : 0 < state.skip := Nat.lt_of_lt_of_le (Nat.succ_pos _) long
    exact ⟨.inl skipped, fun settled => by have := settled.2; omega⟩
  · refine ⟨?_, fun settled => mode settled.1⟩
    rcases Nat.eq_zero_or_pos state.skip with fresh | skipped
    · have same : state.tick = state := by
        rw [LexState.tick, fresh, Nat.zero_sub, ← fresh]
      refine .inr ⟨fresh, fun ahead => ?_⟩
      rw [same]
      exact proper.read_of_beyond mode (beyond b List.mem_cons_self) ahead
    · exact .inl skipped

theorem closingFrom_append (ignores : state.Ignores text) (proper : state.Proper)
    (ahead : List Char) :
    closingFrom state (text ++ ahead) =
      (closingFrom (state.passing text.length) ahead).map (· + text.length) := by
  induction text generalizing state with
  | nil => simp [LexState.passing]
  | cons b text induction =>
      have step : closingFrom state (b :: (text ++ ahead)) =
          (closingFrom state.tick (text ++ ahead)).map (· + 1) := by
        rcases (ignores.head proper).1 with skipped | ⟨fresh, read⟩
        · exact closingFrom_skip skipped b _
        · rw [closingFrom_read fresh, read, if_neg (Option.some_ne_none _).symm]
      rw [List.cons_append, step, induction ignores.tail proper.tick, Option.map_map,
        LexState.tick, LexState.passing, LexState.passing, Nat.sub_sub, List.length_cons,
        Nat.add_comm 1]
      rfl

theorem tokensFrom_append (ignores : state.Ignores text) (proper : state.Proper) (index : Nat)
    (ahead : List Char) :
    tokensFrom state index (text ++ ahead) =
      tokensFrom (state.passing text.length) (index + text.length) ahead := by
  induction text generalizing state index with
  | nil => simp [LexState.passing]
  | cons b text induction =>
      have step : tokensFrom state index (b :: (text ++ ahead)) =
          tokensFrom state.tick (index + 1) (text ++ ahead) := by
        rcases (ignores.head proper).1 with skipped | ⟨fresh, read⟩
        · exact tokensFrom_skip skipped index b _
        · rw [tokensFrom_step fresh, read]
          rfl
      rw [List.cons_append, step, induction ignores.tail proper.tick, LexState.tick,
        LexState.passing, LexState.passing, Nat.sub_sub, List.length_cons, Nat.add_comm 1,
        Nat.add_assoc, Nat.add_comm 1]

theorem always_append (ignores : state.Ignores text) (proper : state.Proper)
    {property : List Char → Prop}
    (behind : LexState.Always (fun state ahead => state.Settled → property ahead)
      (state.passing text.length) ahead) :
    LexState.Always (fun state ahead => state.Settled → property ahead) state (text ++ ahead) := by
  induction text generalizing state with
  | nil => exact behind
  | cons b text induction =>
      obtain ⟨passed, unsettled⟩ := ignores.head proper
      refine ⟨fun settled => absurd settled unsettled, ?_⟩
      have step : state.next b (text ++ ahead) = state.tick := by
        rw [LexState.next]
        split
        · rfl
        · rename_i fresh
          rw [(passed.resolve_left fresh).2]
      rw [List.append_eq, step]
      refine induction ignores.tail proper.tick ?_
      rwa [LexState.tick, LexState.passing, Nat.sub_sub, Nat.add_comm 1]

end LexState.Ignores

namespace MarkupState

/-- Nothing is read in the text: it has been read already, or it lies beyond ASCII. -/
theorem markupEndFrom_append {state : MarkupState}
    (ignores : text.length ≤ state.skip ∨ ∀ b ∈ text, 0x80 ≤ b.toNat) (proper : state.Proper)
    (ahead : List Char) :
    markupEndFrom state (text ++ ahead) =
      (markupEndFrom { state with skip := state.skip - text.length } ahead).map
        (· + text.length) := by
  induction text generalizing state with
  | nil => simp
  | cons b text induction =>
      have step : markupEndFrom state (b :: (text ++ ahead)) =
          (markupEndFrom state.tick (text ++ ahead)).map (· + 1) := by
        rcases Nat.eq_zero_or_pos state.skip with fresh | skipped
        · have same : state.tick = state := by
            rw [MarkupState.tick, fresh, Nat.zero_sub, ← fresh]
          rcases ignores with long | beyond
          · rw [fresh] at long
            cases long
          · rw [same]
            exact markupEndFrom_next fresh (proper.step_of_beyond (beyond b List.mem_cons_self) _)
        · exact markupEndFrom_skip skipped b _
      have later : text.length ≤ state.tick.skip ∨ ∀ b ∈ text, 0x80 ≤ b.toNat :=
        ignores.imp Nat.le_sub_of_add_le fun beyond c member =>
          beyond c (List.mem_cons_of_mem _ member)
      rw [List.cons_append, step, induction later proper, Option.map_map, MarkupState.tick,
        Nat.sub_sub, List.length_cons, Nat.add_comm 1]
      rfl

/-- The bytes of a character that has been read already. -/
theorem passed_inBytes {state : MarkupState} (skipped : 0 < state.skip) (c : Char)
    (rest : List Char) :
    (encodeChar c).length ≤ (state.inBytes (c :: rest)).skip ∧
      { state.inBytes (c :: rest) with
        skip := (state.inBytes (c :: rest)).skip - (encodeChar c).length } =
        state.tick.inBytes rest := by
  obtain ⟨skip, same⟩ := Nat.exists_eq_add_of_le' skipped
  simp only [MarkupState.inBytes, MarkupState.tick, same, byteOffset_cons, length_encodeChar,
    Nat.add_sub_cancel_left, Nat.add_sub_cancel, and_true]
  exact Nat.le_add_right _ _

end MarkupState

theorem markupEndFrom_brace {state : MarkupState} (fresh : state.skip = 0)
    (step : state.step c rest = .code) :
    markupEndFrom state (c :: rest) = (closingFrom .afterOpening rest).bind fun length =>
      (markupEndFrom { state with skip := length + 1 } rest).map (· + 1) := by
  rw [markupEndFrom, if_neg (by omega), step]
  dsimp only
  cases closingFrom .afterOpening rest <;> rfl

/-- The bracket that code ends at is of ASCII. -/
theorem byteOffset_closing {length : Nat} (found : closingFrom state text = some length) :
    byteOffset text (length + 1) = byteOffset text length + 1 := by
  obtain ⟨-, bracket, place, closing⟩ := closingFrom_place found
  rw [byteOffset_succ place, utf8Size_of_ascii]
  rcases isClosing_cases closing with rfl | rfl | rfl <;> decide

/-- A token closes code among the bytes exactly if it does so in the text. -/
theorem closes_inBytes_iff :
    (state.read c rest).2.map (Emission.inBytes (c :: rest)) = some ⟨.closing, 1, 0⟩ ↔
      (state.read c rest).2 = some ⟨.closing, 1, 0⟩ := by
  constructor
  · intro closes
    obtain ⟨e, emitted, same⟩ := Option.map_eq_some_iff.mp closes
    obtain rfl := eq_of_closing emitted (congrArg Emission.kind same)
    have outermost : state.closedDepth = 0 := congrArg Emission.depth same
    rw [emitted, outermost]
  · intro closes
    have ascii : c.toNat < 0x80 := by
      rcases isClosing_cases (isClosing_of_step closes) with rfl | rfl | rfl <;> decide
    rw [closes, Option.map_some, Emission.inBytes, byteOffset_cons, byteOffset_zero,
      utf8Size_of_ascii ascii]

theorem markupRest_encode
    (ends : markupEndFrom ((MarkupState.enterTag 0 text).inBytes text) (encode text) =
      (markupEndFrom (.enterTag 0 text) text).map (byteOffset text)) :
    markupRest (encode text) = byteOffset text (markupRest text) := by
  rw [markupRest, markupRest, enterTag_encode, ends, length_encode, ← byteOffset_length]
  cases markupEndFrom (.enterTag 0 text) text <;> rfl

theorem proper_enterTag (depth : Nat) (text : List Char) : (MarkupState.enterTag depth text).Proper := by
  refine .of_mode ?_
  rintro _ _ ⟨⟩

theorem proper_afterOpening : LexState.afterOpening.Proper := .of_code rfl

theorem map_byteOffset_cons {count : Nat} (size : c.utf8Size = count) (found : Option Nat) :
    (found.map (byteOffset rest)).map (· + count) = (found.map (· + 1)).map (byteOffset (c :: rest)) := by
  rw [Option.map_map, Option.map_map]
  refine congrArg (Option.map · found) ?_
  funext length
  simp only [Function.comp_apply, byteOffset_cons, size, Nat.add_comm]

mutual

/-- Code closes in its bytes where it closes. -/
theorem closingFrom_encode :
    ∀ (text : List Char) {state : LexState}, state.Proper →
      closingFrom (state.inBytes text) (encode text) = (closingFrom state text).map (byteOffset text)
  | [], _, _ => rfl
  | c :: rest, state, proper => by
      rw [encode_cons]
      rcases Nat.eq_zero_or_pos state.skip with fresh | skipped
      · have markup := markupRest_encode (markupEndFrom_encode rest (proper_enterTag 0 rest))
        obtain ⟨b, others, next, same, read, ignores, behind⟩ := proper.spells fresh c rest markup
        have proper' := proper.of_read fresh read
        rw [LexState.inBytes_of_fresh fresh, same, List.cons_append, closingFrom_read fresh,
          closingFrom_read fresh, read]
        by_cases closes : (state.read c rest).2 = some ⟨.closing, 1, 0⟩
        · rw [if_pos closes, if_pos (closes_inBytes_iff.mpr closes), Option.map_some, byteOffset_zero]
        · rw [if_neg closes, if_neg fun other => closes (closes_inBytes_iff.mp other),
            ignores.closingFrom_append proper', behind, closingFrom_encode rest (proper.read fresh),
            Option.map_map, ← map_byteOffset_cons (utf8Size_of_encodeChar same)]
          rfl
      · obtain ⟨ignores, behind⟩ := proper.ignores_inBytes skipped c rest
        rw [ignores.closingFrom_append proper.inBytes, behind, closingFrom_encode rest proper.tick,
          closingFrom_skip skipped, map_byteOffset_cons (length_encodeChar c).symm]

/-- Markup ends in its bytes where it ends. -/
theorem markupEndFrom_encode :
    ∀ (text : List Char) {state : MarkupState}, state.Proper →
      markupEndFrom (state.inBytes text) (encode text) =
        (markupEndFrom state text).map (byteOffset text)
  | [], _, _ => rfl
  | c :: rest, state, proper => by
      rw [encode_cons]
      rcases Nat.eq_zero_or_pos state.skip with fresh | skipped
      · rw [MarkupState.inBytes_of_fresh fresh]
        rcases Nat.lt_or_ge c.toNat 0x80 with ascii | beyond
        · have size := utf8Size_of_ascii ascii
          have step := MarkupState.step_encode fresh c rest
          rw [encodeChar_of_ascii ascii, List.singleton_append]
          cases kind : state.step c rest with
          | next next =>
              rw [kind] at step
              rw [markupEndFrom_next fresh kind, markupEndFrom_next fresh step,
                markupEndFrom_encode rest (proper.step kind), map_byteOffset_cons size]
          | done more =>
              rw [kind] at step
              rw [markupEndFrom_done fresh kind, markupEndFrom_done fresh step, Option.map_some,
                byteOffset_cons, size, Nat.add_comm]
          | code =>
              -- the code in the braces closes in its bytes where it closes, at one byte
              rw [kind] at step
              have closing := closingFrom_encode rest proper_afterOpening
              rw [LexState.inBytes_of_fresh rfl] at closing
              rw [markupEndFrom_brace fresh kind, markupEndFrom_brace fresh step, closing]
              cases found : closingFrom .afterOpening rest with
              | none => rfl
              | some length =>
                  have proper' : MarkupState.Proper { state with skip := length + 1 } := proper
                  have later := markupEndFrom_encode rest proper'
                  rw [MarkupState.inBytes] at later
                  dsimp only at later
                  rw [byteOffset_closing found] at later
                  rw [Option.map_some, Option.bind_some, Option.bind_some, later,
                    map_byteOffset_cons size]
        · -- no byte of the character matters either
          have still := markupEndFrom_next fresh (proper.step_of_beyond beyond rest)
          rw [still, ← map_byteOffset_cons (length_encodeChar c).symm, ← markupEndFrom_encode rest proper,
            MarkupState.inBytes_of_fresh fresh,
            MarkupState.markupEndFrom_append (.inr fun b => le_of_mem_encodeChar beyond) proper, fresh,
            Nat.zero_sub, ← fresh]
      · obtain ⟨passed, behind⟩ := MarkupState.passed_inBytes skipped c rest
        have proper' : (state.inBytes (c :: rest)).Proper := proper
        rw [MarkupState.markupEndFrom_append (.inl passed) proper', behind,
          markupEndFrom_encode rest proper.tick, markupEndFrom_skip skipped,
          map_byteOffset_cons (length_encodeChar c).symm]

end

/-- In any state, the first byte of a character is read as the character is. -/
theorem LexState.Proper.spells_encode (proper : state.Proper) (fresh : state.skip = 0) (c : Char)
    (rest : List Char) : state.Spells c rest :=
  proper.spells fresh c rest (markupRest_encode (markupEndFrom_encode rest (proper_enterTag 0 rest)))

/-- The same token in the bytes of the text that it is found in. -/
def Token.inBytes (whole : List Char) (token : Token) : Token :=
  { token with start := byteOffset whole token.start, stop := byteOffset whole token.stop }

theorem token_inBytes (front text : List Char) (e : Emission) :
    (e.inBytes text).token (byteSize front) = (e.token front.length).inBytes (front ++ text) := by
  have start := byteOffset_append front text 0
  rw [Nat.add_zero, byteOffset_zero, Nat.add_zero] at start
  simp only [Emission.token, Emission.inBytes, Token.inBytes, start, byteOffset_append]

/-- Tokens are found in the bytes of a text where they are found in the text. -/
theorem tokensFrom_encode (proper : state.Proper) (front : List Char) :
    tokensFrom (state.inBytes text) (byteSize front) (encode text) =
      (tokensFrom state front.length text).map (Token.inBytes (front ++ text)) := by
  induction text generalizing state front with
  | nil => rfl
  | cons c rest induction =>
      have later (next : LexState) (proper : next.Proper) :
          tokensFrom (next.inBytes rest) (byteSize front + c.utf8Size) (encode rest) =
            (tokensFrom next (front.length + 1) rest).map (Token.inBytes (front ++ c :: rest)) := by
        have behind := induction proper (front ++ [c])
        rwa [List.append_assoc, List.singleton_append, List.length_append, byteSize_append] at behind
      rw [encode_cons]
      rcases Nat.eq_zero_or_pos state.skip with fresh | skipped
      · obtain ⟨b, others, next, same, read, ignores, behind⟩ := proper.spells_encode fresh c rest
        have proper' := proper.of_read fresh read
        rw [LexState.inBytes_of_fresh fresh, same, List.cons_append, tokensFrom_step fresh,
          tokensFrom_step fresh, read, ignores.tokensFrom_append proper', behind, List.map_append,
          ← later _ (proper.read fresh), utf8Size_of_encodeChar same, Nat.add_assoc,
          Nat.add_comm others.length]
        congr 1
        cases (state.read c rest).2 with
        | none => rfl
        | some e => exact congrArg (· :: []) (token_inBytes front (c :: rest) e)
      · obtain ⟨ignores, behind⟩ := proper.ignores_inBytes skipped c rest
        rw [ignores.tokensFrom_append proper.inBytes, behind, tokensFrom_skip skipped,
          length_encodeChar, later _ proper.tick]

/-- The tokens of the bytes of a string are those of the string. -/
theorem tokens_bytes (code : String) :
    tokens (bytes code) = (tokens code.toList).map (Token.inBytes code.toList) := by
  have whole : tokensFrom (LexState.inBytes {} code.toList) 0 (encode code.toList) = _ :=
    tokensFrom_encode (.of_code rfl) []
  rwa [LexState.inBytes_of_fresh rfl, ← bytes_eq_encode] at whole

/-- Reading the bytes of a text, the lexer reads code only in front of whole characters. -/
theorem LexState.Proper.always_settled (proper : state.Proper) {property : List Char → Prop}
    (holds : ∀ rest, rest <:+ text → property (encode rest)) :
    LexState.Always (fun state ahead => state.Settled → property ahead) (state.inBytes text)
      (encode text) := by
  induction text generalizing state with
  | nil => exact fun _ => holds [] List.suffix_rfl
  | cons c rest induction =>
      have later (next : LexState) (proper : next.Proper) := induction proper fun behind suffix =>
        holds behind (suffix.trans (List.suffix_cons c rest))
      have here := holds (c :: rest) List.suffix_rfl
      rw [encode_cons] at here ⊢
      rcases Nat.eq_zero_or_pos state.skip with fresh | skipped
      · obtain ⟨b, others, next, same, read, ignores, behind⟩ := proper.spells_encode fresh c rest
        have proper' := proper.of_read fresh read
        rw [same, List.cons_append] at here ⊢
        rw [LexState.inBytes_of_fresh fresh]
        refine ⟨fun _ => here, ?_⟩
        rw [LexState.next, if_neg (by omega), read]
        refine ignores.always_append proper' ?_
        rw [behind]
        exact later _ (proper.read fresh)
      · obtain ⟨ignores, behind⟩ := proper.ignores_inBytes skipped c rest
        refine ignores.always_append proper.inBytes ?_
        rw [behind]
        exact later _ proper.tick

end Code
end ReactiveTemplate
