import ReactiveTemplate.Proofs.Code.Unwrapping
import ReactiveTemplate.Proofs.Code.Wrapping
import ReactiveTemplate.Proofs.Diagnostic
import ReactiveTemplate.Template.Draft

/-!
# Captured code between other brackets

Code is taken out of a source up to the bracket that closes it, and its blank ends are removed.  Later
it is put in parentheses, as the value of a property, and in the braces of a template literal.
-/

namespace ReactiveTemplate

namespace Template

namespace Draft

variable {draft after : Draft} {rest : List Char} {number : Nat}

/-- What was captured stands in front of the bracket that closes it, between blank characters. -/
theorem exists_of_capture (taken : draft.capture rest = .ok (some number, after)) :
    ∃ lead code trail tail location,
      rest = lead ++ (code ++ tail) ∧ lead.all Text.isBlank = true ∧ Code.Closes trail tail ∧
      Text.Trimmed code ∧ code ≠ [] ∧ isRemark code = false ∧
      number = draft.captured.length ∧
      after.captured = draft.captured ++ [⟨String.ofList code, location⟩] ∧
      Code.closingFrom .afterOpening rest = some (lead.length + code.length + trail.length) := by
  rw [capture] at taken
  split at taken
  · cases taken
  · rename_i length closing
    dsimp only at taken
    split at taken
    · cases taken
    · rename_i visible
      cases taken
      rw [Bool.or_eq_true, not_or, Bool.not_eq_true, Bool.not_eq_true] at visible
      obtain ⟨lead, trail, split, blank, blank'⟩ := Text.exists_trim (rest.take length)
      obtain ⟨-, bracket, place, closes⟩ := Code.closingFrom_place closing
      obtain ⟨inside, rfl⟩ := List.getElem?_eq_some_iff.mp place
      have whole : rest = rest.take length ++ rest[length] :: rest.drop (length + 1) := by
        rw [← List.drop_eq_getElem_cons inside, List.take_append_drop]
      have total : length = lead.length + (Text.trim (rest.take length)).length + trail.length := by
        have lengths := congrArg List.length split
        rw [List.length_take, Nat.min_eq_left (Nat.le_of_lt inside), List.length_append,
          List.length_append] at lengths
        exact lengths
      refine ⟨lead, Text.trim (rest.take length), trail,
        trail ++ rest[length] :: rest.drop (length + 1), _, ?_, blank, ⟨blank', _, _, rfl, closes⟩,
        Text.trim_trimmed _, ?_, visible.2, rfl, rfl, ?_⟩
      · rw [← List.append_assoc, ← List.append_assoc, ← split]
        exact whole
      · rw [← List.isEmpty_eq_false_iff]
        exact visible.1
      · rw [← total, closing]

/-- Captured code closes between any brackets exactly if it ends in plain code, provided that no
character beyond ASCII was removed in front of it.  It does end so unless the end of a line was
removed behind it. -/
theorem capture_wraps (taken : draft.capture rest = .ok (some number, after)) :
    ∃ lead code trail tail location,
      rest = lead ++ (code ++ tail) ∧ lead.all Text.isBlank = true ∧ Code.Closes trail tail ∧
      Text.Trimmed code ∧ code ≠ [] ∧ isRemark code = false ∧
      number = draft.captured.length ∧
      after.captured = draft.captured ++ [⟨String.ofList code, location⟩] ∧
      ((∀ c ∈ lead, c.toNat < 0x80) →
        (Code.EndsPlainly code ↔ ∀ opening closing more,
          Code.isOpening opening = true → Code.isClosing closing = true →
            Code.matching? (opening :: code ++ closing :: more) 0 = some (code.length + 1)) ∧
        ('\n' ∉ trail → Code.EndsPlainly code)) := by
  obtain ⟨lead, code, trail, tail, location, rfl, blank, closes, trimmed, visible, remark, same,
    captured, closing⟩ := exists_of_capture taken
  refine ⟨lead, code, trail, tail, location, rfl, blank, closes, trimmed, visible, remark, same,
    captured, fun ascii => closes.endsPlainly ?_⟩
  rw [Code.closingFrom_blanks blank ascii rfl rfl (by decide), Option.map_eq_some_iff] at closing
  obtain ⟨length, found, total⟩ := closing
  rw [found]
  exact congrArg some (by omega)

/-- A call with a template in it. -/
theorem capture_wraps_call :
    ∃ after, Draft.capture {} " f(\x60$\x7ba\x7d)\x60) \x7d</p>".toList = .ok (some 0, after) ∧
      after.captured.map (·.code) = ["f(\x60$\x7ba\x7d)\x60)"] ∧
      Code.matching? "(f(\x60$\x7ba\x7d)\x60))".toList 0 = some 11 := by
  have evaluates :
      (Draft.capture {} " f(\x60$\x7ba\x7d)\x60) \x7d</p>".toList).toOption.any
        (fun taken => taken.1 == some 0 &&
          taken.2.captured.map (·.code) == ["f(\x60$\x7ba\x7d)\x60)"]) = true := by
    decide +kernel
  obtain ⟨⟨number, after⟩, taken, codes⟩ := exists_ok _ evaluates
  rw [Bool.and_eq_true, beq_iff_eq, beq_iff_eq] at codes
  obtain ⟨rfl, codes⟩ := codes
  refine ⟨after, taken, codes, ?_⟩
  obtain ⟨lead, code, trail, tail, location, whole, -, ⟨-, bracket, more, rfl, -⟩, -, -, -, -,
    captured, wraps⟩ := capture_wraps taken
  have low : (" f(\x60$\x7ba\x7d)\x60) \x7d</p>".toList.all fun c =>
      c.toNat < 0x80 && c != '\n') = true := by
    decide +kernel
  rw [whole, List.all_append, List.all_append, List.all_append] at low
  simp only [Bool.and_eq_true, List.all_eq_true, decide_eq_true_eq, bne_iff_ne] at low
  obtain ⟨low, -, behind, -⟩ := low
  have ascii : ∀ c ∈ lead, c.toNat < 0x80 := fun c member => (low c member).1
  have line : '\n' ∉ trail := fun member => (behind '\n' member).2 rfl
  obtain ⟨closes, ends⟩ := wraps ascii
  obtain rfl : code = "f(\x60$\x7ba\x7d)\x60)".toList := by
    rw [captured] at codes
    exact String.toList_ofList.symm.trans (congrArg String.toList (List.singleton_inj.mp codes))
  exact closes.mp (ends line) '(' ')' [] rfl rfl

end Draft

end Template
end ReactiveTemplate
