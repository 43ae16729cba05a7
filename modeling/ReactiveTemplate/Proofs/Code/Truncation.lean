import ReactiveTemplate.Proofs.Code.Locality

/-!
# What the lexer does not need

The place of a closing bracket and the end of markup that are found within the first part of a text
are found in that part alone: the characters behind them can be cut off.  Together with the other
direction, that nothing read behind them matters, this says that they are the same wherever the part
stands and whatever surrounds it.
-/

namespace ReactiveTemplate
namespace Code

variable {more text rest : List Char} {c : Char}

/-! ## Looking ahead -/

/-- Characters of a kind that end before the text does are not all of the text. -/
theorem takeWhile_lt_of_append {kind : Char → Bool}
    (short : ((text ++ more).takeWhile kind).length < text.length) :
    (text.takeWhile kind).length < text.length := by
  by_contra long
  have all : (text.takeWhile kind).length = text.length :=
    Nat.le_antisymm (List.takeWhile_prefix kind).length_le (Nat.le_of_not_lt long)
  rw [List.takeWhile_append, if_pos all, List.length_append] at short
  omega

/-- A regular expression that goes on to the end of a text does so whatever follows. -/
theorem le_regexLength_append {inClass : Bool} (long : text.length ≤ regexLength inClass text)
    (more : List Char) : text.length ≤ regexLength inClass (text ++ more) := by
  fun_induction regexLength inClass text with
  | case1 => exact Nat.zero_le _
  | case2 inClass =>
      cases more with
      | nil => exact Nat.le_refl 1
      | cons first more =>
          rw [List.cons_append, List.nil_append, regexLength, List.length_singleton]
          omega
  | case3 inClass escaped rest induction =>
      simp only [List.length_cons, Nat.add_le_add_iff_right] at long
      rw [List.cons_append, List.cons_append, regexLength]
      exact Nat.add_le_add_right (induction long) 2
  | case4 _ rest induction | case5 _ rest induction =>
      simp only [List.length_cons, Nat.add_le_add_iff_right] at long
      rw [List.cons_append, regexLength]
      exact Nat.add_le_add_right (induction long) 1
  | case6 inClass c rest lone escape opening closing slash =>
      have unescaped : c ≠ '\\' := ne_backslash lone escape
      simp only [List.length_cons, Nat.add_le_add_iff_right] at long
      rw [List.cons_append, regexLength_cons unescaped opening closing, if_pos slash,
        List.length_cons, Nat.add_le_add_iff_right]
      by_contra short
      exact Nat.not_lt.mpr long (takeWhile_lt_of_append (Nat.not_le.mp short))
  | case7 => exact absurd long (Nat.not_succ_le_zero _)
  | case8 inClass c rest lone escape opening closing slash line induction =>
      have unescaped : c ≠ '\\' := ne_backslash lone escape
      simp only [List.length_cons, Nat.add_le_add_iff_right] at long
      rw [List.cons_append, regexLength_cons unescaped opening closing, if_neg slash, if_neg line]
      exact Nat.add_le_add_right (induction long) 1

theorem regexLength_of_append {inClass : Bool}
    (short : regexLength inClass (text ++ more) < text.length) :
    regexLength inClass text = regexLength inClass (text ++ more) := by
  refine (regexLength_append ?_ more).symm
  by_contra long
  exact Nat.not_lt.mpr (le_regexLength_append (Nat.not_lt.mp long) more) short

theorem MarkupState.enterTag_of_append {depth : Nat}
    (short : (enterTag depth (rest ++ more)).skip < rest.length) :
    enterTag depth rest = enterTag depth (rest ++ more) := by
  have same : (rest ++ more).takeWhile isTagNamePart = rest.takeWhile isTagNamePart :=
    takeWhile_append_of_lt (takeWhile_lt_of_append short) more
  rw [enterTag, enterTag, same]

/-- A step that ends the markup within a text does so without what follows. -/
theorem MarkupState.step_done_of_append {state : MarkupState} {extra : Nat}
    (step : state.step c (rest ++ more) = .done extra) (inside : extra ≤ rest.length) :
    state.step c rest = .done extra := by
  rcases eq_or_ne rest [] with rfl | nonempty
  · obtain rfl : extra = 0 := Nat.le_zero.mp inside
    revert step
    fun_cases MarkupState.step state c ([] ++ more) with
    | case5 mode angle outer =>
        intro _
        simp [MarkupState.step, mode, angle, outer]
    | case14 _ _ _ angle outer mode =>
        intro _
        simp [MarkupState.step, mode, angle, outer]
    | _ => rintro ⟨⟩
  · rcases MarkupState.step_append nonempty more with same | ⟨-, tag⟩
    · exact same.symm.trans step
    · rw [tag] at step
      cases step

/-! ## Code and markup -/

mutual

/-- A closing bracket within a text is found without what follows. -/
theorem closingFrom_of_append (more : List Char) :
    ∀ (text : List Char) {state : LexState} {length : Nat},
      closingFrom state (text ++ more) = some length → length < text.length →
        closingFrom state text = some length
  | [], _, _, _, inside => by cases inside
  | c :: rest, state, length, found, inside => by
      rw [List.cons_append] at found
      rcases Nat.eq_zero_or_pos state.skip with fresh | skipped
      · rw [closingFrom_step fresh] at found ⊢
        split at found
        · rename_i emitted
          rw [step_of_isClosing (isClosing_of_step emitted) rest (rest ++ more) _
            (state.markupLength c (rest ++ more)), if_pos emitted]
          exact found
        · rename_i silent
          obtain ⟨before, inner, rfl⟩ := Option.map_eq_some_iff.mp found
          have below : before < rest.length := Nat.succ_lt_succ_iff.mp inside
          obtain ⟨passed, bracket, place, closing⟩ := closingFrom_place inner
          rw [List.getElem?_append_left below] at place
          have fenced : Fenced rest := ⟨bracket, List.mem_of_getElem? place, closing⟩
          have short := Nat.lt_of_le_of_lt passed below
          have markup : state.markupLength c rest = state.markupLength c (rest ++ more) := by
            have opens : state.opensMarkup c (rest ++ more) = state.opensMarkup c rest := by
              rw [LexState.opensMarkup, startsTag_append fenced.ne_nil, LexState.opensMarkup]
            rw [LexState.markupLength, LexState.markupLength, opens]
            refine ite_congr rfl (fun starts => ?_) fun _ => rfl
            rw [step_of_opensMarkup (opens.trans starts), LexState.markupLength,
              if_pos (opens.trans starts)] at short
            cases ends : markupEndFrom (.enterTag 0 (rest ++ more)) (rest ++ more) with
            | none =>
                simp only [ends, Option.getD_none, List.length_append, Nat.add_sub_cancel] at short
                omega
            | some stop =>
                rw [ends] at short
                have stop_lt : stop < rest.length := short
                have bounds := markupEndFrom_bounds ends
                have name := MarkupState.enterTag_of_append (Nat.lt_trans bounds.1 stop_lt)
                rw [← name] at ends
                rw [markupEndFrom_of_append more rest ends (Nat.le_of_lt stop_lt)]
                rfl
          have regex : state.AtRegex c rest →
              regexLength false (rest ++ more) = regexLength false rest := by
            intro starts
            obtain ⟨mode, slash, line, block, previous⟩ := starts
            have there : state.AtRegex c (rest ++ more) :=
              ⟨mode, slash, by rwa [fenced.head?_append], by rwa [fenced.head?_append], previous⟩
            rw [there.step_eq] at short
            exact (regexLength_of_append short).symm
          rw [markup, ← step_append fenced regex, if_neg silent,
            closingFrom_of_append more rest inner below, Option.map_some]
      · rw [closingFrom_skip skipped] at found ⊢
        obtain ⟨before, inner, rfl⟩ := Option.map_eq_some_iff.mp found
        rw [closingFrom_of_append more rest inner (Nat.succ_lt_succ_iff.mp inside), Option.map_some]

/-- Markup that ends within a text is found to end there without what follows. -/
theorem markupEndFrom_of_append (more : List Char) :
    ∀ (text : List Char) {state : MarkupState} {length : Nat},
      markupEndFrom state (text ++ more) = some length → length ≤ text.length →
        markupEndFrom state text = some length
  | [], _, _, found, inside => by
      have bounds := markupEndFrom_bounds found
      rw [List.length_nil] at inside
      omega
  | c :: rest, state, length, found, inside => by
      rw [List.cons_append] at found
      rw [List.length_cons] at inside
      rcases Nat.eq_zero_or_pos state.skip with fresh | skipped
      · rcases markupEndFrom_cases fresh found with ⟨next, before, step, inner, rfl⟩ |
          ⟨extra, step, rfl⟩ | ⟨code, before, step, closing, inner, rfl⟩
        · have below : before ≤ rest.length := Nat.le_of_succ_le_succ inside
          have bounds := markupEndFrom_bounds inner
          have nonempty : rest ≠ [] := List.ne_nil_of_length_pos (by omega)
          have onwards : state.step c rest = .next next := by
            rcases MarkupState.step_append nonempty more with same | ⟨tag, tag'⟩
            · exact same.symm.trans step
            · rw [tag'] at step
              cases step
              rw [tag, MarkupState.enterTag_of_append (Nat.lt_of_lt_of_le bounds.1 below)]
          rw [markupEndFrom_next fresh onwards, markupEndFrom_of_append more rest inner below,
            Option.map_some]
        · rw [markupEndFrom_done fresh
            (MarkupState.step_done_of_append step (Nat.le_of_succ_le_succ inside))]
        · have below : before ≤ rest.length := Nat.le_of_succ_le_succ inside
          have bounds := markupEndFrom_bounds inner
          have passed : code + 1 < before := bounds.1
          have nonempty : rest ≠ [] := List.ne_nil_of_length_pos (by omega)
          have onwards : state.step c rest = .code := by
            rcases MarkupState.step_append nonempty more with same | ⟨-, tag⟩
            · exact same.symm.trans step
            · rw [tag] at step
              cases step
          rw [markupEndFrom_code fresh onwards
              (closingFrom_of_append more rest closing (by omega)),
            markupEndFrom_of_append more rest inner below, Option.map_some]
      · rw [markupEndFrom_skip skipped] at found ⊢
        obtain ⟨before, inner, rfl⟩ := Option.map_eq_some_iff.mp found
        rw [markupEndFrom_of_append more rest inner (Nat.le_of_succ_le_succ inside),
          Option.map_some]

end

/-! ## Places within a text -/

theorem matching?_append_length (front text : List Char) :
    matching? (front ++ text) front.length = (matching? text 0).map (front.length + ·) := by
  rw [matching?, List.drop_left, matching?, List.drop_zero]
  cases text with
  | nil => rfl
  | cons c rest =>
      dsimp only
      split
      · rw [Option.map_map]
        refine congrArg (Option.map · _) ?_
        funext length
        simp only [Function.comp_apply]
        omega
      · rfl

theorem markupEnd?_append_length (front text : List Char) :
    markupEnd? (front ++ text) front.length = (markupEnd? text 0).map (front.length + ·) := by
  rw [markupEnd?, List.drop_left, markupEnd?, List.drop_zero, Option.map_map]
  refine congrArg (Option.map · _) ?_
  funext length
  simp only [Function.comp_apply, Nat.zero_add]

/-- A bracket that is closed within a text is closed there whatever follows the text. -/
theorem matching?_other_end {text more more' : List Char} {place : Nat}
    (found : matching? (text ++ more) 0 = some place) (inside : place < text.length) :
    matching? (text ++ more') 0 = some place := by
  rw [matching?, List.drop_zero] at found ⊢
  cases text with
  | nil => cases inside
  | cons c rest =>
      rw [List.cons_append] at found ⊢
      dsimp only at found ⊢
      split at found
      · rename_i opens
        obtain ⟨length, closing, rfl⟩ := Option.map_eq_some_iff.mp found
        rw [List.length_cons] at inside
        have alone := closingFrom_of_append more rest closing (by omega)
        rw [if_pos opens, closingFrom_append more' rest alone, Option.map_some]
      · cases found

/-- Markup that ends within a text ends there whatever follows the text. -/
theorem markupEnd?_other_end {text more more' : List Char} {stop : Nat}
    (found : markupEnd? (text ++ more) 0 = some stop) (inside : stop ≤ text.length) :
    markupEnd? (text ++ more') 0 = some stop := by
  rw [markupEnd?, List.drop_zero] at found ⊢
  obtain ⟨length, ends, rfl⟩ := Option.map_eq_some_iff.mp found
  have alone := markupEndFrom_of_append more text ends (by omega)
  rw [markupEndFrom_append more' text alone, Option.map_some]

/-- The bracket that closes another one, and the end of markup, depend on nothing but the text from
the start up to them: that text may stand anywhere, and anything may follow it. -/
theorem delimiting_local (front front' text more more' : List Char) :
    (∀ place, matching? (front ++ text ++ more) front.length = some place →
      place < front.length + text.length →
        front.length ≤ place ∧
          matching? (front' ++ text ++ more') front'.length =
            some (place - front.length + front'.length)) ∧
    ∀ stop, markupEnd? (front ++ text ++ more) front.length = some stop →
      stop ≤ front.length + text.length →
        front.length ≤ stop ∧
          markupEnd? (front' ++ text ++ more') front'.length =
            some (stop - front.length + front'.length) := by
  rw [List.append_assoc, List.append_assoc, matching?_append_length, matching?_append_length,
    markupEnd?_append_length, markupEnd?_append_length]
  constructor
  · intro place found inside
    obtain ⟨length, closes, rfl⟩ := Option.map_eq_some_iff.mp found
    refine ⟨Nat.le_add_right _ _, ?_⟩
    rw [matching?_other_end closes (Nat.lt_of_add_lt_add_left inside), Option.map_some,
      Nat.add_sub_cancel_left, Nat.add_comm]
  · intro stop found inside
    obtain ⟨length, ends, rfl⟩ := Option.map_eq_some_iff.mp found
    refine ⟨Nat.le_add_right _ _, ?_⟩
    rw [markupEnd?_other_end ends (Nat.le_of_add_le_add_left inside), Option.map_some,
      Nat.add_sub_cancel_left, Nat.add_comm]

/-- Code in braces, with further brackets in templates and in a comment. -/
def bracedCode : List Char := "\x7bf(\x60\x7d$\x7b\x60)\x60\x7d\x60) /* \x7d */\x7d".toList

/-- Markup with a closing tag in a string. -/
def tagInString : List Char := "<p>\x7ba ? <br> : \x27</p>\x27\x7d</p>".toList

theorem delimiting_local_tag :
    matching? ("<a b=".toList ++ bracedCode ++ ">c</a>\x7d".toList) 5 = some 26 ∧
      matching? ([] ++ bracedCode ++ []) 0 = some 21 ∧
      markupEnd? ("x && ".toList ++ tagInString ++ "</p>".toList) 5 = some 31 ∧
      markupEnd? (['('] ++ tagInString ++ [')']) 1 = some 27 := by
  have closes : matching? ("<a b=".toList ++ bracedCode ++ ">c</a>\x7d".toList) 5 = some 26 := by
    decide +kernel
  have ends : markupEnd? ("x && ".toList ++ tagInString ++ "</p>".toList) 5 = some 31 := by
    decide +kernel
  exact ⟨closes, ((delimiting_local _ [] _ _ []).1 _ closes (by decide)).2, ends,
    ((delimiting_local _ ['('] _ _ [')']).2 _ ends (by decide)).2⟩

end Code
end ReactiveTemplate
