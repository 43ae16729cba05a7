import Mathlib.Data.List.DropRight
import Mathlib.Data.List.Infix
import ReactiveTemplate.Code.Shape
import ReactiveTemplate.Proofs.Text.Offset

/-!
# Removing parentheses

What is left when the parentheses around a code text are removed has no blank characters at its ends
and no parentheses around it, so that removing them again changes nothing: code and what is left of
it have the same shape, in different places.
-/

namespace ReactiveTemplate

/-! ## Texts without blank ends -/

namespace Text

/-- Neither the first nor the last character is blank. -/
structure Trimmed (text : List Char) : Prop where
  /-- The first character is visible. -/
  head : ∀ c, text.head? = some c → isBlank c = false
  /-- The last character is visible. -/
  last : ∀ c, text.getLast? = some c → isBlank c = false

variable {text : List Char} {c : Char}

/-- Leaving out as many characters as pass a test at the start leaves out these characters. -/
theorem drop_length_takeWhile {α : Type} (test : α → Bool) (items : List α) :
    items.drop (items.takeWhile test).length = items.dropWhile test := by
  have split : items.takeWhile test ++ items.dropWhile test = items :=
    List.takeWhile_append_dropWhile
  nth_rewrite 2 [← split]
  exact List.drop_left

theorem drop_blankLead (text : List Char) : text.drop (blankLead text) = trimStart text :=
  drop_length_takeWhile isBlank text

theorem visible_of_head?_trimStart (head : (trimStart text).head? = some c) :
    isBlank c = false := by
  have first := List.head?_dropWhile_not isBlank text
  rw [trimStart] at head
  rw [head] at first
  exact first

theorem isPrefix_trimEnd (text : List Char) : trimEnd text <+: text :=
  List.rdropWhile_prefix isBlank text

theorem visible_of_getLast?_trimEnd (last : (trimEnd text).getLast? = some c) :
    isBlank c = false := by
  rw [trimEnd, List.getLast?_reverse] at last
  have first := List.head?_dropWhile_not isBlank text.reverse
  rw [last] at first
  exact first

/-- A visible text that starts like another one has the same first character. -/
theorem head?_of_starts {whole : List Char} (starts : text <+: whole) (head : text.head? = some c) :
    whole.head? = some c := by
  obtain ⟨more, rfl⟩ := starts
  rw [List.head?_append, head]
  rfl

theorem trim_trimmed (text : List Char) : Trimmed (trim text) where
  head _ head := visible_of_head?_trimStart (head?_of_starts (isPrefix_trimEnd _) head)
  last _ last := visible_of_getLast?_trimEnd last

/-- A text is its visible part between blank characters. -/
theorem exists_trim (text : List Char) :
    ∃ lead trail, text = lead ++ trim text ++ trail ∧ lead.all isBlank = true ∧
      trail.all isBlank = true := by
  refine ⟨text.takeWhile isBlank, (trimStart text).rtakeWhile isBlank, ?_, ?_, ?_⟩
  · rw [List.append_assoc, trim]
    have front : text.takeWhile isBlank ++ trimStart text = text :=
      List.takeWhile_append_dropWhile
    have back : trimEnd (trimStart text) ++ (trimStart text).rtakeWhile isBlank = trimStart text :=
      List.rdropWhile_append_rtakeWhile ..
    rw [back, front]
  · exact List.all_eq_true.mpr fun c member => List.mem_takeWhile_imp member
  · exact List.all_eq_true.mpr fun c member => List.mem_rtakeWhile_imp member

theorem Trimmed.blankLead (trimmed : Trimmed text) : blankLead text = 0 := by
  cases text with
  | nil => rfl
  | cons c rest =>
      rw [Text.blankLead, List.takeWhile_cons_of_neg (by simp [trimmed.head c rfl])]
      rfl

theorem Trimmed.trimEnd (trimmed : Trimmed text) : trimEnd text = text := by
  rw [Text.trimEnd, List.reverse_eq_iff]
  cases shape : text.reverse with
  | nil => rfl
  | cons c rest =>
      have last : text.getLast? = some c := by rw [← List.head?_reverse, shape]; rfl
      rw [List.dropWhile_cons_of_neg (by simp [trimmed.last c last])]

/-- A part of a part of a text is a part of the text. -/
theorem slice_slice (text : List Char) (start stop : Nat) {first last : Nat}
    (inside : last ≤ (slice text start stop).length) :
    slice (slice text start stop) first last = slice text (start + first) (start + last) := by
  rw [length_slice] at inside
  rw [slice, slice, slice, List.drop_take, List.drop_take, List.drop_take, List.drop_take,
    List.drop_drop, List.take_take]
  congr 1
  omega

/-- The visible part of a text. -/
theorem slice_blankLead (text : List Char) :
    slice text (blankLead text) (blankLead text + (trim text).length) = trim text ∧
      blankLead text + (trim text).length ≤ text.length := by
  have visible : trim text <+: text.drop (blankLead text) := by
    rw [drop_blankLead]
    exact isPrefix_trimEnd _
  have short := visible.length_le
  have lead : blankLead text ≤ text.length := (List.takeWhile_prefix isBlank).length_le
  rw [List.length_drop] at short
  refine ⟨?_, by omega⟩
  rw [slice, List.drop_take, Nat.add_sub_cancel_left]
  exact (List.prefix_iff_eq_take.mp visible).symm

/-- Where the visible part of a part of a text stands in the text. -/
theorem slice_trim (text : List Char) (start stop : Nat) :
    let raw := slice text start stop
    slice text (start + blankLead raw) (start + blankLead raw + (trim raw).length) = trim raw := by
  intro raw
  obtain ⟨visible, inside⟩ := slice_blankLead raw
  rw [Nat.add_assoc, ← slice_slice text start stop inside]
  exact visible

/-- The part of a text between its blank ends. -/
theorem slice_trimmed (text : List Char) :
    Trimmed (slice text (blankLead text) (trimEnd text).length) := by
  have cut : text.take (trimEnd text).length = trimEnd text :=
    (List.prefix_iff_eq_take.mp (isPrefix_trimEnd text)).symm
  rw [slice, cut]
  constructor
  · intro c head
    have starts : (trimEnd text).drop (blankLead text) <+: trimStart text := by
      rw [← drop_blankLead]
      exact List.IsPrefix.drop (isPrefix_trimEnd text) _
    exact visible_of_head?_trimStart (head?_of_starts starts head)
  · intro c last
    obtain ⟨front, split⟩ := List.drop_suffix (blankLead text) (trimEnd text)
    have whole : (trimEnd text).getLast? = some c := by
      rw [← split, List.getLast?_append, last]
      rfl
    exact visible_of_getLast?_trimEnd whole

end Text

namespace Code

variable {code : List Char} {start stop : Nat}

/-! ## Parentheses around code -/

/-- There are parentheses around all of the text. -/
def Parenthesized (text : List Char) : Prop :=
  text.head? = some '(' ∧ matching? text 0 = some (text.length - 1)

/-- The part between two indices is what the removal of parentheses looks at. -/
theorem parenthesized_slice (ordered : start < stop) (inside : stop ≤ code.length) :
    (code[start]? = some '(' ∧ matching? (code.take stop) start = some (stop - 1)) ↔
      Parenthesized (Text.slice code start stop) := by
  have first : (Text.slice code start stop).head? = code[start]? := by
    rw [Text.slice, List.head?_drop, List.getElem?_take_of_lt ordered]
  have length : (Text.slice code start stop).length = stop - start := by
    rw [Text.length_slice, Nat.min_eq_left inside]
  rw [Parenthesized, first, length, matching?, matching?, List.drop_zero, ← Text.slice]
  refine and_congr_right fun _ => ?_
  cases Text.slice code start stop with
  | nil => simp
  | cons c rest =>
      dsimp only
      split
      · cases closingFrom .afterOpening rest with
        | none => simp
        | some place =>
            simp only [Option.map_some, Option.some_inj]
            omega
      · simp

/-- What is left has no blank ends and no parentheses around it. -/
theorem unwrapFrom_bare {bound : Nat} (trimmed : Text.Trimmed (Text.slice code start stop))
    (inside : stop ≤ code.length) (enough : stop ≤ start + bound) :
    let left := unwrapFrom code bound start stop
    Text.Trimmed (Text.slice code left.1 left.2) ∧ left.2 ≤ code.length ∧
      (left.1 < left.2 → ¬ Parenthesized (Text.slice code left.1 left.2)) := by
  induction bound generalizing start stop with
  | zero =>
      rw [unwrapFrom]
      exact ⟨trimmed, inside, fun ordered => absurd ordered (by omega)⟩
  | succ bound induction =>
      rw [unwrapFrom]
      split
      · rename_i around
        obtain ⟨ordered, -, -⟩ := around
        let inner := Text.slice code (start + 1) (stop - 1)
        obtain ⟨-, short⟩ := Text.slice_blankLead inner
        have length : inner.length ≤ stop - 1 - (start + 1) := Text.length_slice_le ..
        have visible : Text.slice code _ _ = Text.trim inner :=
          Text.slice_trim code (start + 1) (stop - 1)
        refine induction ?_ ?_ ?_
        · rw [visible]
          exact Text.trim_trimmed inner
        · change start + 1 + Text.blankLead inner + (Text.trim inner).length ≤ code.length
          omega
        · change start + 1 + Text.blankLead inner + (Text.trim inner).length ≤ _
          omega
      · rename_i bare
        refine ⟨trimmed, inside, fun ordered around => bare ⟨ordered, ?_⟩⟩
        exact (parenthesized_slice ordered inside).mpr around

/-- What is left of a code text without blank ends and without parentheses around it. -/
def unwrapped (code : List Char) : List Char :=
  Text.slice code (unwrap code).1 (unwrap code).2

theorem unwrap_bare (code : List Char) :
    Text.Trimmed (unwrapped code) ∧ (unwrap code).2 ≤ code.length ∧
      ((unwrap code).1 < (unwrap code).2 → ¬ Parenthesized (unwrapped code)) := by
  have short : (Text.trimEnd code).length ≤ code.length := (Text.isPrefix_trimEnd code).length_le
  exact unwrapFrom_bare (Text.slice_trimmed code) short (by omega)

theorem length_unwrapped (code : List Char) :
    (unwrapped code).length = (unwrap code).2 - (unwrap code).1 := by
  rw [unwrapped, Text.length_slice, Nat.min_eq_left (unwrap_bare code).2.1]

/-- Nothing more can be removed. -/
theorem unwrap_unwrapped (code : List Char) :
    unwrap (unwrapped code) = (0, (unwrapped code).length) := by
  obtain ⟨trimmed, -, bare⟩ := unwrap_bare code
  rw [← Nat.sub_pos_iff_lt, ← length_unwrapped] at bare
  rw [unwrap, trimmed.blankLead, trimmed.trimEnd]
  generalize unwrapped code = text at bare ⊢
  cases length : text.length with
  | zero => rfl
  | succ bound =>
      rw [unwrapFrom, if_neg]
      rintro ⟨ordered, around⟩
      rw [parenthesized_slice ordered (Nat.le_of_eq length.symm), ← length, Text.slice,
        List.take_length, List.drop_zero] at around
      exact bare (length ▸ ordered) around

theorem Shape.shift_zero (shape : Shape) : shape.shift 0 = shape := by
  cases shape <;> rfl

theorem Shape.output_shift (shape : Shape) (count : Nat) :
    (shape.shift count).output = shape.output := by
  cases shape <;> rfl

/-- The shape of an expression is that of what is left without parentheses, seen from there. -/
theorem analyze_eq_shift (code : List Char) :
    analyze code = (analyzeBare (unwrapped code)).shift (unwrap code).1 := by
  rw [analyze]
  dsimp only
  split
  · rename_i crossed
    have nothing : unwrapped code = [] := by
      rw [← List.length_eq_zero_iff, length_unwrapped]
      exact Nat.sub_eq_zero_of_le crossed
    rw [nothing]
    rfl
  · rfl

/-- The shape of code is that of what is left of it. -/
theorem analyze_eq (code : List Char) :
    analyze code = (analyze (unwrapped code)).shift (unwrap code).1 := by
  have same : unwrapped (unwrapped code) = unwrapped code := by
    rw [unwrapped, unwrap_unwrapped, Text.slice, List.take_length, List.drop_zero]
  rw [analyze_eq_shift (unwrapped code), same, unwrap_unwrapped, Shape.shift_zero]
  exact analyze_eq_shift code

theorem analyze_unwrapped_eq_unknown (code : List Char) :
    analyze (unwrapped code) = .unknown ↔ analyze code = .unknown := by
  rw [analyze_eq code]
  cases analyze (unwrapped code) <;> simp [Shape.shift]

end Code
end ReactiveTemplate
