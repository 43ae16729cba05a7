import ReactiveTemplate.Proofs.Code.Cut
import ReactiveTemplate.Proofs.Code.Derivation

/-!
# Markup in heads

The head of a shape is evaluated to decide what is shown: the condition of a choice or of a guard,
the list of a loop.  It is the code in front of the operator that decides the shape, and contains
markup exactly if an element of the whole starts in front of that operator.  Only for guards is this
excluded.
-/

namespace ReactiveTemplate
namespace Code

variable {code : List Char} {shape : Shape} {head : Segment}

/-- What is evaluated to decide which branches are shown. -/
def Shape.head? : Shape → Option Segment
  | .conditional condition _ _ => some condition
  | .optional condition _ => some condition
  | .loop source _ _ => some source
  | .primitive | .fragment _ | .unknown | .crash => none

theorem Shape.head?_shift (shape : Shape) (count : Nat) :
    (shape.shift count).head? = shape.head?.map (·.shift count) := by
  cases shape <;> rfl

/-! ## Where heads end -/

/-- The segment reaches from the start of the code to an operator that decides its shape. -/
def Leads (code : List Char) (segment : Segment) : Prop :=
  ∃ operator ∈ tokens code, operator.kind.decides = true ∧
    segment = Segment.between code 0 operator.start

/-- A head reaches to an operator; that of a guard contains no markup. -/
theorem Derives.leads (derives : Derives code shape) (led : shape.head? = some head) :
    Leads code head ∧ (shape.output = .optional → containsMarkup head.text = false) := by
  have reaches {operator : Token} (top : operator ∈ topLevel (tokens code))
      (decides : operator.kind.decides = true) :
      Leads code (Segment.between code 0 operator.start) :=
    ⟨operator, List.mem_of_mem_filter top, decides, rfl⟩
  cases derives with
  | primitive | fragment | unknown | crash => cases led
  | loop called kind =>
      cases led
      exact ⟨reaches called (by rw [kind]; rfl), fun optional => nomatch optional⟩
  | conditional split kind =>
      cases led
      have top := split ▸ List.mem_append_right _ List.mem_cons_self
      exact ⟨reaches top (by rw [kind]; rfl), fun optional => nomatch optional⟩
  | optional listed kind markup clean =>
      cases led
      exact ⟨reaches listed (by rw [kind]; rfl), fun _ => clean⟩

/-! ## Markup in front of the operator -/

/-- The part in front of a place, of a text without blank ends, is its visible part and blank
characters. -/
theorem take_trimmed {text : List Char} (trimmed : Text.Trimmed text) (stop : Nat) :
    Text.blankLead (text.take stop) = 0 ∧
      ∃ blanks, text.take stop = Text.trim (text.take stop) ++ blanks ∧
        blanks.all Text.isBlank = true := by
  have lead : Text.blankLead (text.take stop) = 0 := by
    cases text with
    | nil => rw [List.take_nil, trimmed.blankLead]
    | cons c rest =>
        cases stop with
        | zero => rfl
        | succ stop =>
            rw [List.take_succ_cons, Text.blankLead,
              List.takeWhile_cons_of_neg (by simp [trimmed.head c rfl])]
            rfl
  have start := Text.drop_blankLead (text.take stop)
  rw [lead, List.drop_zero] at start
  refine ⟨lead, (text.take stop).rtakeWhile Text.isBlank, ?_, ?_⟩
  · rw [Text.trim, ← start]
    exact (List.rdropWhile_append_rtakeWhile ..).symm
  · exact List.all_eq_true.mpr fun c member => List.mem_rtakeWhile_imp member

theorem Leads.markup_iff (trimmed : Text.Trimmed code) (leads : Leads code head) :
    head.start = 0 ∧ (containsMarkup head.text = true ↔
      ∃ element ∈ tokens code, element.kind = .markup ∧ element.start < head.text.length) := by
  obtain ⟨operator, member, decides, rfl⟩ := leads
  obtain ⟨sign, here, signs⟩ := isSign_of_token member decides
  obtain ⟨lead, blanks, split, blank⟩ := take_trimmed trimmed operator.start
  obtain ⟨inside, rfl⟩ := List.getElem?_eq_some_iff.mp here
  have whole : code = Text.trim (code.take operator.start) ++
      (blanks ++ code[operator.start] :: code.drop (operator.start + 1)) := by
    rw [← List.append_assoc, ← split, ← List.drop_eq_getElem_cons inside, List.take_append_drop]
  have start : operator.start = (Text.trim (code.take operator.start)).length + blanks.length := by
    have length := congrArg List.length split
    rw [List.length_take, Nat.min_eq_left (Nat.le_of_lt inside), List.length_append] at length
    exact length
  have gap : Gap blanks.length (blanks ++ code[operator.start] :: code.drop (operator.start + 1)) :=
    ⟨blanks, _, _, rfl, blank, by rw [isStop, signs, Bool.true_or], rfl⟩
  have cut := containsMarkup_cut gap (Text.trim (code.take operator.start))
    ⟨operator, whole ▸ member, start⟩
  rw [← whole] at cut
  exact ⟨by rw [Segment.between, Text.slice, List.drop_zero, lead], cut⟩

/-- The head of a shape contains markup exactly if an element of the code starts in front of the end
of the head.  That of a guard contains none. -/
theorem head_markup_iff (led : (analyze code).head? = some head) :
    (containsMarkup head.text = true ↔ ∃ element ∈ tokens (unwrapped code),
      element.kind = .markup ∧
        (unwrap code).1 + element.start < head.start + head.text.length) ∧
      ((analyze code).output = .optional → containsMarkup head.text = false) := by
  rw [analyze_eq_shift] at led ⊢
  rw [Shape.head?_shift, Option.map_eq_some_iff] at led
  obtain ⟨head, led, rfl⟩ := led
  obtain ⟨leads, guard⟩ := (analyzeBare_derives _).leads led
  obtain ⟨start, markup⟩ := leads.markup_iff (unwrap_bare code).1
  rw [Shape.output_shift, Segment.shift, start, Nat.zero_add]
  simp only [Nat.add_lt_add_iff_left]
  exact ⟨markup, guard⟩

/-- A condition that is an element, a list that holds one, and a guard. -/
theorem head_markup_iff_elements :
    ((analyze "(<a/> ? <b/> : <c/>)".toList).head? = some ⟨"<a/>".toList, 1⟩ ∧
        containsMarkup "<a/>".toList = true) ∧
      ((analyze "[<a/>].map(x => <b/>)".toList).head? = some ⟨"[<a/>]".toList, 0⟩ ∧
        containsMarkup "[<a/>]".toList = true) ∧
      (analyze "open && <p/>".toList).head? = some ⟨"open".toList, 0⟩ ∧
        containsMarkup "open".toList = false := by
  have choice : (analyze "(<a/> ? <b/> : <c/>)".toList).head? = some ⟨"<a/>".toList, 1⟩ := by
    decide +kernel
  have loop : (analyze "[<a/>].map(x => <b/>)".toList).head? = some ⟨"[<a/>]".toList, 0⟩ := by
    decide +kernel
  have guard : (analyze "open && <p/>".toList).head? = some ⟨"open".toList, 0⟩ := by
    decide +kernel
  refine ⟨⟨choice, ?_⟩, ⟨loop, ?_⟩, guard, ?_⟩
  · refine (head_markup_iff choice).1.mpr ⟨⟨.markup, 0, 4, 0⟩, ?_, rfl, ?_⟩ <;> decide +kernel
  · refine (head_markup_iff loop).1.mpr ⟨⟨.markup, 1, 5, 1⟩, ?_, rfl, ?_⟩ <;> decide +kernel
  · exact (head_markup_iff guard).2 (by decide +kernel)

end Code
end ReactiveTemplate
