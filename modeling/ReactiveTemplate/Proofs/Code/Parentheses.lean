import ReactiveTemplate.Proofs.Code.Unwrapping

/-!
# Code in parentheses

The removal of parentheses looks at nothing but the part of the text that it has come to: neither
what stands in front of the part nor what stands behind it matters.  Code in parentheses has
therefore the shape that it has without them, one character further on.
-/

namespace ReactiveTemplate

namespace Text

variable {text : List Char}

/-- The visible part of a text that is not blank ends where the text without its blank end does. -/
theorem length_trimEnd (visible : allBlank text = false) :
    (trimEnd text).length = blankLead text + (trim text).length := by
  have lasting : ((trimStart text).reverse.dropWhile isBlank).isEmpty = false := by
    rw [List.isEmpty_eq_false_iff, ne_eq, List.dropWhile_eq_nil_iff]
    intro blank
    have all : allBlank text = true := by
      rw [allBlank, List.all_eq_true]
      intro c member
      rw [← List.takeWhile_append_dropWhile (p := isBlank) (l := text), List.mem_append] at member
      rcases member with lead | behind
      · exact List.mem_takeWhile_imp lead
      · exact blank c (List.mem_reverse.mpr behind)
    rw [visible] at all
    cases all
  have split : text.takeWhile isBlank ++ trimStart text = text := List.takeWhile_append_dropWhile
  have cut : trimEnd text = text.takeWhile isBlank ++ trim text := by
    rw [trimEnd]
    nth_rewrite 1 [← split]
    rw [List.reverse_append, List.dropWhile_append, if_neg (by simp [lasting]), List.reverse_append,
      List.reverse_reverse, trim, trimEnd]
  rw [cut, List.length_append, blankLead]

end Text

namespace Code

variable {code code' : List Char} {start stop start' stop' bound : Nat}

/-! ## Parts that are unwrapped -/

/-- Parentheses around a part of a code text are removed, with the blank characters inside them. -/
theorem unwrapFrom_parenthesized (ordered : start < stop) (inside : stop ≤ code.length)
    (around : Parenthesized (Text.slice code start stop)) :
    unwrapFrom code (bound + 1) start stop =
      let inner := Text.slice code (start + 1) (stop - 1)
      let first := start + 1 + Text.blankLead inner
      unwrapFrom code bound first (first + (Text.trim inner).length) := by
  rw [unwrapFrom, if_pos ⟨ordered, (parenthesized_slice ordered inside).mpr around⟩]

/-- Nothing is removed from a part of a code text without parentheses around it. -/
theorem unwrapFrom_of_bare (inside : stop ≤ code.length)
    (bare : start < stop → ¬ Parenthesized (Text.slice code start stop)) :
    unwrapFrom code bound start stop = (start, stop) := by
  cases bound with
  | zero => rfl
  | succ bound =>
      rw [unwrapFrom, if_neg]
      exact fun around => bare around.1 ((parenthesized_slice around.1 inside).mp around.2)

/-- What is removed from a part of a code text does not depend on where the part stands. -/
theorem unwrapFrom_moved (bound bound' : Nat) (ordered : start ≤ stop) (inside : stop ≤ code.length)
    (ordered' : start' ≤ stop') (inside' : stop' ≤ code'.length)
    (same : Text.slice code start stop = Text.slice code' start' stop')
    (enough : stop ≤ start + bound) (enough' : stop' ≤ start' + bound') :
    ∃ front length, unwrapFrom code bound start stop = (start + front, start + front + length) ∧
      unwrapFrom code' bound' start' stop' = (start' + front, start' + front + length) := by
  have lengths : stop - start = stop' - start' := by
    have both := congrArg List.length same
    rwa [Text.length_slice, Text.length_slice, Nat.min_eq_left inside,
      Nat.min_eq_left inside'] at both
  induction bound generalizing start stop start' stop' bound' with
  | zero =>
      refine ⟨0, 0, ?_, ?_⟩
      · rw [unwrapFrom_of_bare inside fun before => absurd before (by omega), Prod.mk.injEq]
        omega
      · rw [unwrapFrom_of_bare inside' fun before => absurd before (by omega), Prod.mk.injEq]
        omega
  | succ bound induction =>
      by_cases around : start < stop ∧ Parenthesized (Text.slice code start stop)
      · obtain ⟨before, around⟩ := around
        have before' : start' < stop' := by omega
        obtain ⟨bound', rfl⟩ : ∃ less, bound' = less + 1 := ⟨bound' - 1, by omega⟩
        have inner : Text.slice code (start + 1) (stop - 1) =
            Text.slice code' (start' + 1) (stop' - 1) := by
          have within : Text.slice (Text.slice code start stop) 1 (stop - start - 1) =
              Text.slice code (start + 1) (start + (stop - start - 1)) :=
            Text.slice_slice code start stop
              (by rw [Text.length_slice, Nat.min_eq_left inside]; omega)
          have within' : Text.slice (Text.slice code' start' stop') 1 (stop - start - 1) =
              Text.slice code' (start' + 1) (start' + (stop - start - 1)) :=
            Text.slice_slice code' start' stop'
              (by rw [Text.length_slice, Nat.min_eq_left inside']; omega)
          rw [same, within'] at within
          rw [show stop - 1 = start + (stop - start - 1) by omega,
            show stop' - 1 = start' + (stop - start - 1) by omega]
          exact within.symm
        have visible := Text.slice_trim code (start + 1) (stop - 1)
        have visible' := Text.slice_trim code' (start' + 1) (stop' - 1)
        have short := (Text.slice_blankLead (Text.slice code (start + 1) (stop - 1))).2
        have length := Text.length_slice_le code (start + 1) (stop - 1)
        rw [unwrapFrom_parenthesized before inside around,
          unwrapFrom_parenthesized before' inside' (same ▸ around)]
        dsimp only at visible visible' ⊢
        rw [← inner] at visible' ⊢
        generalize Text.slice code (start + 1) (stop - 1) = part at *
        obtain ⟨front, count, left, left'⟩ := induction bound' (Nat.le_add_right _ _) (by omega)
          (Nat.le_add_right _ _) (by omega) (visible.trans visible'.symm) (by omega) (by omega)
          (by omega)
        refine ⟨1 + Text.blankLead part + front, count, ?_, ?_⟩
        · rw [left, ← Nat.add_assoc, ← Nat.add_assoc]
        · rw [left', ← Nat.add_assoc, ← Nat.add_assoc]
      · refine ⟨0, stop - start, ?_, ?_⟩
        · rw [unwrapFrom_of_bare inside fun before other => around ⟨before, other⟩, Prod.mk.injEq]
          omega
        · rw [unwrapFrom_of_bare inside', Prod.mk.injEq]
          · omega
          · exact fun before other => around ⟨by omega, same ▸ other⟩

theorem unwrap_le (visible : Text.allBlank code = false) : (unwrap code).1 ≤ (unwrap code).2 := by
  have short := (Text.slice_blankLead code).2
  obtain ⟨front, length, left, -⟩ := unwrapFrom_moved code.length code.length
    (Nat.le_add_right _ _) short (Nat.le_add_right _ _) short rfl (by omega) (by omega)
  rw [unwrap, Text.length_trimEnd visible, left]
  exact Nat.le_add_right _ _

/-! ## Parentheses around all of the code -/

/-- The code text in parentheses. -/
def parenthesize (code : List Char) : List Char := '(' :: (code ++ [')'])

theorem length_parenthesize (code : List Char) : (parenthesize code).length = code.length + 2 := by
  simp [parenthesize]

/-- A part of a code text stands one further on in parentheses. -/
theorem slice_parenthesize (inside : stop ≤ code.length) (start : Nat) :
    Text.slice (parenthesize code) (start + 1) (stop + 1) = Text.slice code start stop := by
  rw [Text.slice, Text.slice, parenthesize, List.take_succ_cons, List.drop_succ_cons,
    List.take_append_of_le_length inside]

/-- The outermost parentheses are removed first, if they close each other. -/
theorem unwrap_parenthesize_eq (closes : matching? (parenthesize code) 0 = some (code.length + 1)) :
    unwrap (parenthesize code) =
      unwrapFrom (parenthesize code) (code.length + 1) (1 + Text.blankLead code)
        (1 + Text.blankLead code + (Text.trim code).length) := by
  have trimmed : Text.Trimmed (parenthesize code) := by
    constructor
    · rintro c ⟨⟩
      rfl
    · intro c last
      rw [parenthesize, ← List.cons_append, List.getLast?_concat, Option.some_inj] at last
      exact last ▸ rfl
  have all : Text.slice (parenthesize code) 0 (code.length + 1 + 1) = parenthesize code := by
    rw [← length_parenthesize, Text.slice, List.take_length, List.drop_zero]
  have around : Parenthesized (Text.slice (parenthesize code) 0 (code.length + 1 + 1)) := by
    rw [all]
    exact ⟨rfl, by rw [closes, length_parenthesize]; rfl⟩
  have inner : Text.slice (parenthesize code) (0 + 1) (code.length + 1) = code := by
    rw [slice_parenthesize (Nat.le_refl _), Text.slice, List.take_length, List.drop_zero]
  rw [unwrap, trimmed.blankLead, trimmed.trimEnd, length_parenthesize,
    unwrapFrom_parenthesized (Nat.succ_pos _) (Nat.le_of_eq (length_parenthesize code).symm) around,
    Nat.succ_sub_one, inner, Nat.zero_add]

/-- What is left of a visible code text is the same in parentheses, and stands one further on. -/
theorem unwrap_parenthesize (visible : Text.allBlank code = false)
    (closes : matching? (parenthesize code) 0 = some (code.length + 1)) :
    unwrap (parenthesize code) = ((unwrap code).1 + 1, (unwrap code).2 + 1) := by
  obtain ⟨there, short⟩ := Text.slice_blankLead code
  have here : Text.slice (parenthesize code) (1 + Text.blankLead code)
      (1 + Text.blankLead code + (Text.trim code).length) = Text.trim code := by
    rw [Nat.add_assoc, Nat.add_comm 1, Nat.add_comm 1, slice_parenthesize short, there]
  obtain ⟨front, length, left, left'⟩ := unwrapFrom_moved code.length (code.length + 1)
    (Nat.le_add_right _ _) short (Nat.le_add_right _ _)
    (by rw [length_parenthesize]; omega) (there.trans here.symm) (by omega) (by omega)
  rw [unwrap_parenthesize_eq closes, left', unwrap, Text.length_trimEnd visible, left,
    Prod.mk.injEq]
  dsimp only
  omega

theorem unwrapped_parenthesize (visible : Text.allBlank code = false)
    (closes : matching? (parenthesize code) 0 = some (code.length + 1)) :
    unwrapped (parenthesize code) = unwrapped code := by
  rw [unwrapped, unwrap_parenthesize visible closes, slice_parenthesize (unwrap_bare code).2.1,
    unwrapped]

/-- Nothing is left of blank code. -/
theorem unwrapped_of_allBlank (blank : Text.allBlank code = true) : unwrapped code = [] := by
  have nothing : Text.trimEnd code = [] := by
    rw [Text.trimEnd, List.reverse_eq_nil_iff, List.dropWhile_eq_nil_iff]
    exact fun c member => List.all_eq_true.mp blank c (List.mem_reverse.mp member)
  rw [unwrapped, unwrap, nothing, List.length_nil, unwrapFrom_of_bare (Nat.zero_le _)]
  · exact List.drop_nil
  · exact fun ordered => absurd ordered (Nat.not_lt_zero _)

/-- Nothing is left of blank code in parentheses. -/
theorem unwrapped_parenthesize_of_allBlank (blank : Text.allBlank code = true)
    (closes : matching? (parenthesize code) 0 = some (code.length + 1)) :
    unwrapped (parenthesize code) = [] := by
  have lead : Text.blankLead code = code.length := by
    rw [Text.blankLead, List.takeWhile_eq_self_iff.mpr (List.all_eq_true.mp blank)]
  have short := (Text.slice_blankLead code).2
  have nothing : (Text.trim code).length = 0 := by omega
  rw [unwrapped, unwrap_parenthesize_eq closes, lead, nothing, unwrapFrom_of_bare]
  · rw [Nat.add_comm 1, Nat.add_zero, slice_parenthesize (Nat.le_refl _), Text.slice,
      List.take_length, List.drop_length]
  · rw [length_parenthesize]
    omega
  · exact fun ordered => absurd ordered (Nat.lt_irrefl _)

theorem Shape.shift_shift (shape : Shape) (first second : Nat) :
    (shape.shift first).shift second = shape.shift (first + second) := by
  cases shape <;> simp [Shape.shift, Segment.shift, Nat.add_assoc]

/-- Code in parentheses that close each other has the shape of the code, one character further on;
and code from which parentheses have been removed has none left. -/
theorem parentheses_transparent :
    (∀ code : List Char, matching? (parenthesize code) 0 = some (code.length + 1) →
      analyze (parenthesize code) = (analyze code).shift 1) ∧
    ∀ code : List Char, Text.allBlank code = false →
      let (start, stop) := unwrap code
      start ≤ stop ∧ stop ≤ code.length ∧
        unwrap (Text.slice code start stop) = (0, stop - start) := by
  constructor
  · intro code closes
    rw [analyze_eq_shift, analyze_eq_shift code]
    cases blank : Text.allBlank code with
    | true =>
        rw [unwrapped_of_allBlank blank, unwrapped_parenthesize_of_allBlank blank closes]
        rfl
    | false =>
        rw [unwrapped_parenthesize blank closes, unwrap_parenthesize blank closes,
          Shape.shift_shift]
  · intro code visible
    have again := unwrap_unwrapped code
    rw [length_unwrapped] at again
    exact ⟨unwrap_le visible, (unwrap_bare code).2.1, again⟩

theorem parentheses_transparent_guard :
    matching? (parenthesize " ok && (<b/>) ".toList) 0 = some 15 ∧
      analyze (parenthesize " ok && (<b/>) ".toList) =
        .optional ⟨"ok".toList, 2⟩ ⟨"(<b/>)".toList, 8⟩ ∧
      Text.allBlank "(( ok ))".toList = false ∧
      unwrap (Text.slice "(( ok ))".toList 3 5) = (0, 2) := by
  have closes : matching? (parenthesize " ok && (<b/>) ".toList) 0 = some 15 := by decide
  have shape : (analyze " ok && (<b/>) ".toList).shift 1 =
      .optional ⟨"ok".toList, 2⟩ ⟨"(<b/>)".toList, 8⟩ := by decide
  have visible : Text.allBlank "(( ok ))".toList = false := by decide
  exact ⟨closes, (parentheses_transparent.1 _ closes).trans shape, visible,
    (parentheses_transparent.2 _ visible).2.2⟩

end Code
end ReactiveTemplate
