import Mathlib.Data.List.Infix
import ReactiveTemplate.Template.Placeholder

/-!
# Placeholders in markup

The placeholders that are found in markup from left to right.  A text that has neither of the words
that placeholders are made with cannot be part of one, whatever it is put next to: between the texts
that are written in place of code and tags, only the placeholders that were written are found.
-/

namespace ReactiveTemplate
namespace Template

/-! ## What is found -/

/-- The digits of a number. -/
def numeral (number : Nat) : List Char := (toString number).toList

/-- The digits of the placeholder that the markup starts with. -/
def mark? (markup : List Char) : Option (List Char) :=
  ((placeholder? "__ZENITH_EXPR_".toList "__".toList markup).or
    (placeholder? (numberAttribute ++ "=\"").toList "\"".toList markup)).map Prod.fst

/-- The digits of all placeholders in markup, from left to right. -/
def marks : List Char → List (List Char)
  | [] => []
  | c :: rest => (mark? (c :: rest)).toList ++ marks rest

/-- The text has neither of the words that placeholders are made with. -/
def Unmarked (text : List Char) : Prop :=
  ¬ "ZENITH_EXPR_".toList <:+: text ∧ ¬ numberAttribute.toList <:+: text

instance : DecidablePred Unmarked := fun text =>
  inferInstanceAs
    (Decidable (¬ "ZENITH_EXPR_".toList <:+: text ∧ ¬ numberAttribute.toList <:+: text))

/-- Characters that no word has in it separate texts. -/
def separators : List Char := ['<', '>', '"', ' ', '/', ':']

variable {text run tail first rest : List Char} {c : Char}

theorem separators_notMem (separates : c ∈ separators) :
    c ∉ "__ZENITH_EXPR_".toList ∧ c ∉ numberAttribute.toList ∧ Text.isDecimalDigit c = false ∧
      c ≠ '=' := by
  rw [separators] at separates
  simp only [List.mem_cons, List.not_mem_nil, or_false] at separates
  rcases separates with rfl | rfl | rfl | rfl | rfl | rfl <;> decide +kernel

/-! ## Texts without the words -/

theorem Unmarked.part {inner : List Char} (unmarked : Unmarked text) (inside : inner <:+: text) :
    Unmarked inner :=
  ⟨fun word => unmarked.1 (word.trans inside), fun word => unmarked.2 (word.trans inside)⟩

theorem Unmarked.left (unmarked : Unmarked (first ++ rest)) : Unmarked first :=
  unmarked.part (List.prefix_append first rest).isInfix

theorem Unmarked.right (unmarked : Unmarked (first ++ rest)) : Unmarked rest :=
  unmarked.part (List.suffix_append first rest).isInfix

theorem prefix_append_cons {word : List Char} (first : List Char) (other : c ∉ word)
    (starts : word <+: first ++ c :: rest) : word <+: first := by
  rcases List.prefix_or_prefix_of_prefix starts (List.prefix_append first (c :: rest)) with
    inside | ⟨more, rfl⟩
  · exact inside
  · rw [List.prefix_append_right_inj] at starts
    cases more with
    | nil => rw [List.append_nil]
    | cons d more =>
        rw [List.cons_prefix_cons] at starts
        exact absurd (List.mem_append_right _ (starts.1 ▸ List.mem_cons_self)) other

/-- A word does not extend over a character that is none of its own. -/
theorem infix_append_cons {word : List Char} (other : c ∉ word)
    (inside : word <:+: first ++ c :: rest) : word <:+: first ∨ word <:+: rest := by
  induction first with
  | nil =>
      rw [List.nil_append, List.infix_cons_iff] at inside
      refine inside.imp_left fun starts => ?_
      exact (prefix_append_cons [] other starts).isInfix
  | cons d others induction =>
      rw [List.cons_append, List.infix_cons_iff] at inside
      rcases inside with starts | inside
      · exact .inl (prefix_append_cons (d :: others) other starts).isInfix
      · have there := induction inside
        exact there.imp_left fun earlier => earlier.trans (List.suffix_cons d others).isInfix

/-- Two texts without the words stay without them with a separator between them. -/
theorem Unmarked.append (unmarked : Unmarked first) (behind : Unmarked rest)
    (separates : c ∈ separators) : Unmarked (first ++ c :: rest) := by
  obtain ⟨longer, number, -⟩ := separators_notMem separates
  have word : c ∉ "ZENITH_EXPR_".toList := fun member =>
    longer (List.mem_append_right "__".toList member)
  exact ⟨fun inside => (infix_append_cons word inside).elim unmarked.1 behind.1,
    fun inside => (infix_append_cons number inside).elim unmarked.2 behind.2⟩

theorem Unmarked.nil : Unmarked [] := by decide +kernel

/-- The underscores at the end of a placeholder do not start a word. -/
theorem Unmarked.underscores (unmarked : Unmarked text) : Unmarked ("__".toList ++ text) := by
  have one {text : List Char} (unmarked : Unmarked text) : Unmarked ('_' :: text) := by
    refine ⟨fun inside => ?_, fun inside => ?_⟩
    · rcases List.infix_cons_iff.mp inside with starts | inside
      · exact absurd (List.cons_prefix_cons.mp starts).1 (by decide)
      · exact unmarked.1 inside
    · rcases List.infix_cons_iff.mp inside with starts | inside
      · exact absurd (List.cons_prefix_cons.mp starts).1 (by decide)
      · exact unmarked.2 inside
  exact one (one unmarked)

theorem numeral_eq (number : Nat) : numeral number = Nat.toDigits 10 number := by
  simp [numeral]

theorem isDigit_of_mem_numeral {number : Nat} (member : c ∈ numeral number) :
    c.isDigit = true := by
  rw [numeral_eq] at member
  exact Nat.isDigit_of_mem_toDigits (by decide) (by decide) member

theorem Unmarked.numeral (number : Nat) : Unmarked (numeral number) := by
  have letters : 'Z'.isDigit = false ∧ '-'.isDigit = false := by decide
  constructor
  · intro inside
    have digit := isDigit_of_mem_numeral (inside.subset (List.mem_cons_self (a := 'Z')))
    rw [letters.1] at digit
    cases digit
  · intro inside
    have hyphen : '-' ∈ numberAttribute.toList := by decide +kernel
    have digit := isDigit_of_mem_numeral (inside.subset hyphen)
    rw [letters.2] at digit
    cases digit

/-! ## Where a placeholder can start -/

theorem placeholder?_eq_some {opening closing digits : List Char} {length : Nat}
    (found : placeholder? opening closing text = some (digits, length)) :
    ∃ d more, text = opening ++ d :: more ∧ Text.isDecimalDigit d = true := by
  rw [placeholder?] at found
  split at found
  · rename_i starts
    obtain ⟨after, rfl⟩ := List.isPrefixOf_iff_prefix.mp starts
    rw [List.drop_left] at found
    cases after with
    | nil => simp at found
    | cons d more =>
        refine ⟨d, more, rfl, ?_⟩
        by_contra other
        simp [List.takeWhile_cons_of_neg other] at found
  · cases found

/-- A placeholder starts with a word and a digit, or with an attribute that has a value. -/
theorem exists_of_mark? {digits : List Char} (found : mark? text = some digits) :
    (∃ d more, text = "__ZENITH_EXPR_".toList ++ d :: more ∧ Text.isDecimalDigit d = true) ∨
      ∃ more, text = numberAttribute.toList ++ '=' :: more := by
  rw [mark?, Option.map_eq_some_iff] at found
  obtain ⟨⟨digits, length⟩, found, rfl⟩ := found
  rcases Option.or_eq_some_iff.mp found with found | ⟨-, found⟩
  · exact .inl (placeholder?_eq_some found)
  · obtain ⟨d, more, rfl, -⟩ := placeholder?_eq_some found
    exact .inr ⟨'"' :: d :: more, by simp⟩

/-- The text cannot complete a placeholder that has been started. -/
def Stops (tail : List Char) : Prop :=
  (∃ c rest, tail = c :: rest ∧ c ∈ separators) ∨ (∃ rest, tail = '_' :: '_' :: 'Z' :: rest) ∨
    tail = []

/-- No word starts in a text without words that is continued by something else. -/
theorem not_word (unmarked : Unmarked (c :: run)) (stops : Stops tail) {d : Char}
    {more : List Char} (digit : Text.isDecimalDigit d = true) :
    c :: run ++ tail ≠ "__ZENITH_EXPR_".toList ++ d :: more := by
  intro shape
  have underscore : Text.isDecimalDigit '_' = false := by decide +kernel
  rcases List.append_eq_append_iff.mp shape with ⟨gap, opening, behind⟩ | ⟨gap, whole, -⟩
  · rcases stops with ⟨s, others, rfl, separates⟩ | ⟨others, rfl⟩ | rfl
    · obtain ⟨word, -, other, -⟩ := separators_notMem separates
      cases gap with
      | nil =>
          rw [List.nil_append, List.cons.injEq] at behind
          rw [behind.1, digit] at other
          cases other
      | cons g gap =>
          rw [List.cons_append, List.cons.injEq] at behind
          refine word ?_
          rw [opening, behind.1]
          exact List.mem_append_right _ List.mem_cons_self
    · -- two underscores in a row are found at the start of the word only
      match gap with
      | [] =>
          rw [← (List.cons.inj behind).1, underscore] at digit
          cases digit
      | [_] =>
          rw [← (List.cons.inj (List.cons.inj behind).2).1, underscore] at digit
          cases digit
      | g :: h :: gap =>
          rw [List.cons_append, List.cons_append, List.cons.injEq, List.cons.injEq] at behind
          obtain ⟨rfl, rfl, -⟩ := behind
          have later : ['_', '_'] <:+: "_ZENITH_EXPR_".toList := by
            have tails := congrArg List.tail opening
            exact ⟨run, gap, by rw [List.append_assoc]; exact tails.symm⟩
          revert later
          decide +kernel
    · exact absurd behind (by simp)
  · refine unmarked.1 (List.IsInfix.trans ?_ (whole ▸ (List.prefix_append _ gap).isInfix))
    exact ⟨['_', '_'], [], rfl⟩

theorem not_numberAttribute (unmarked : Unmarked (c :: run)) (stops : Stops tail)
    {more : List Char} : c :: run ++ tail ≠ numberAttribute.toList ++ '=' :: more := by
  intro shape
  rcases List.append_eq_append_iff.mp shape with ⟨gap, opening, behind⟩ | ⟨gap, whole, -⟩
  · have head : ∃ s others, tail = s :: others ∧ s ∉ numberAttribute.toList ∧ s ≠ '=' := by
      rcases stops with ⟨s, others, rfl, separates⟩ | ⟨others, rfl⟩ | rfl
      · obtain ⟨-, number, -, equals⟩ := separators_notMem separates
        exact ⟨s, others, rfl, number, equals⟩
      · exact ⟨'_', _, rfl, by decide +kernel, by decide⟩
      · exact absurd behind (by simp)
    obtain ⟨s, others, rfl, number, equals⟩ := head
    cases gap with
    | nil => exact equals (List.cons.inj behind).1
    | cons g gap =>
        rw [List.cons_append, List.cons.injEq] at behind
        refine number ?_
        rw [opening, behind.1]
        exact List.mem_append_right _ List.mem_cons_self
  · exact unmarked.2 (whole ▸ (List.prefix_append _ gap).isInfix)

/-- No placeholder starts in a text without words that is continued by something else. -/
theorem marks_append_of_unmarked (unmarked : Unmarked run) (stops : Stops tail) :
    marks (run ++ tail) = marks tail := by
  induction run with
  | nil => rfl
  | cons c others induction =>
      have unread : mark? (c :: others ++ tail) = none := by
        cases found : mark? (c :: others ++ tail) with
        | none => rfl
        | some digits =>
            rcases exists_of_mark? found with ⟨d, more, shape, digit⟩ | ⟨more, shape⟩
            · exact absurd shape (not_word unmarked stops digit)
            · exact absurd shape (not_numberAttribute unmarked stops)
      have later := induction (unmarked.part (List.suffix_cons c others).isInfix)
      rw [List.cons_append] at unread
      rw [List.cons_append, marks, unread, later]
      rfl

/-! ## What is written in place of a part -/

/-- A placeholder starts with an underscore or with the first letter of the attribute. -/
def isPlain (c : Char) : Bool := c != '_' && c != 'd'

theorem marks_cons_of_plain (plain : isPlain c = true) : marks (c :: rest) = marks rest := by
  rw [isPlain, Bool.and_eq_true, bne_iff_ne, bne_iff_ne] at plain
  obtain ⟨underscore, letter⟩ := plain
  have unread : mark? (c :: rest) = none := by
    cases found : mark? (c :: rest) with
    | none => rfl
    | some digits =>
        rcases exists_of_mark? found with ⟨d, more, shape, -⟩ | ⟨more, shape⟩
        · exact absurd (List.cons.inj shape).1 underscore
        · exact absurd (List.cons.inj shape).1 letter
  rw [marks, unread]
  rfl

theorem marks_underscore (apart : rest.head? ≠ some '_') : marks ('_' :: rest) = marks rest := by
  have unread : mark? ('_' :: rest) = none := by
    cases found : mark? ('_' :: rest) with
    | none => rfl
    | some digits =>
        rcases exists_of_mark? found with ⟨d, more, shape, -⟩ | ⟨more, shape⟩
        · rw [(List.cons.inj shape).2] at apart
          exact absurd rfl apart
        · exact absurd (List.cons.inj shape).1 (by decide)
  rw [marks, unread]
  rfl

theorem marks_append_of_plain (plain : text.all isPlain = true) (tail : List Char) :
    marks (text ++ tail) = marks tail := by
  induction text with
  | nil => rfl
  | cons c others induction =>
      rw [List.all_cons, Bool.and_eq_true] at plain
      rw [List.cons_append, marks_cons_of_plain plain.1, induction plain.2]

theorem numeral_plain (number : Nat) : (numeral number).all isPlain = true := by
  rw [List.all_eq_true]
  intro c member
  have digit := isDigit_of_mem_numeral member
  rw [isPlain, Bool.and_eq_true, bne_iff_ne, bne_iff_ne]
  constructor
  · rintro rfl
    exact absurd digit (by decide)
  · rintro rfl
    exact absurd digit (by decide)

/-- The digits of a number are read up to a character that is no digit. -/
theorem placeholder?_numeral (opening closing : List Char) (number : Nat) (more : List Char)
    (ends : closing.head?.map Text.isDecimalDigit = some false) :
    (placeholder? opening closing (opening ++ (numeral number ++ (closing ++ more)))).map Prod.fst =
      some (numeral number) := by
  obtain ⟨last, head, other⟩ := Option.map_eq_some_iff.mp ends
  obtain ⟨others, rfl⟩ := List.head?_eq_some_iff.mp head
  have digits : (numeral number ++ (last :: others ++ more)).takeWhile Text.isDecimalDigit =
      numeral number := by
    rw [List.takeWhile_append_of_pos, List.cons_append, List.takeWhile_cons_of_neg, List.append_nil]
    · rw [other]
      exact Bool.false_ne_true
    · intro c member
      have digit := isDigit_of_mem_numeral member
      have low : c.toNat < 0x80 := by
        rw [Char.isDigit, Bool.and_eq_true, decide_eq_true_eq, decide_eq_true_eq] at digit
        exact Nat.lt_of_le_of_lt digit.2 (by decide)
      rw [Text.isDecimalDigit, if_pos low, digit]
  have visible : (numeral number).isEmpty = false := by
    rw [numeral_eq, List.isEmpty_eq_false_iff]
    exact Nat.toDigits_ne_nil
  have starts : opening.isPrefixOf (opening ++ (numeral number ++ (last :: others ++ more))) :=
    List.isPrefixOf_iff_prefix.mpr (List.prefix_append _ _)
  have closes : (last :: others).isPrefixOf (last :: others ++ more) :=
    List.isPrefixOf_iff_prefix.mpr (List.prefix_append _ _)
  rw [placeholder?, if_pos starts, List.drop_left]
  dsimp only
  rw [digits, List.drop_left, visible, closes]
  rfl

/-- The text stands in place of code: between texts without the words it is found with the number,
and nothing else.  Underscores at its end are read with what follows. -/
def Numbers (text : List Char) (number : Nat) : Prop :=
  ∀ {run html : List Char} {found : List (List Char)}, Unmarked run → marks html = found →
    marks ("__".toList ++ html) = found → marks (run ++ (text ++ html)) = numeral number :: found

private theorem toList_between (opening middle closing : String) :
    (opening ++ middle ++ closing).toList =
      opening.toList ++ (middle.toList ++ closing.toList) := by
  rw [String.toList_append, String.toList_append, List.append_assoc]

theorem toList_wordPlaceholder (number : Nat) :
    (wordPlaceholder number).toList = "__ZENITH_EXPR_".toList ++ (numeral number ++ "__".toList) :=
  toList_between _ _ _

theorem elementPlaceholder_numbers (number : Nat) :
    Numbers (elementPlaceholder number).toList number := by
  intro run html found unmarked alone _
  have written : (elementPlaceholder number).toList ++ html =
      "<template ".toList ++ ('d' :: ("ata-zen-expr=\"".toList ++ (numeral number ++
        ("\"></template>".toList ++ html)))) := by
    have parts : (elementPlaceholder number).toList =
        "<template data-zen-expr=\"".toList ++ (numeral number ++ "\"></template>".toList) :=
      toList_between _ _ _
    calc (elementPlaceholder number).toList ++ html
        = "<template data-zen-expr=\"".toList ++
            (numeral number ++ "\"></template>".toList) ++ html := congrArg (· ++ html) parts
      _ = "<template data-zen-expr=\"".toList ++
            (numeral number ++ ("\"></template>".toList ++ html)) := by
          rw [List.append_assoc, List.append_assoc]
      _ = _ := rfl
  have stops : Stops ((elementPlaceholder number).toList ++ html) :=
    .inl ⟨'<', _, written, by decide⟩
  have mark : mark? ('d' :: ("ata-zen-expr=\"".toList ++ (numeral number ++
      ("\"></template>".toList ++ html)))) = some (numeral number) := by
    have read := placeholder?_numeral (numberAttribute ++ "=\"").toList "\"".toList number
      ("></template>".toList ++ html) (by decide +kernel)
    have other (more : List Char) : ¬ "__ZENITH_EXPR_".toList.isPrefixOf ('d' :: more) = true :=
      fun starts => absurd (List.cons_prefix_cons.mp (List.isPrefixOf_iff_prefix.mp starts)).1
        (by decide)
    rw [mark?, placeholder?, if_neg (other _), Option.none_or]
    exact read
  have before : "<template ".toList.all isPlain = true := by decide
  have inside : "ata-zen-expr=\"".toList.all isPlain = true := by decide
  have behind : "\"></template>".toList.all isPlain = true := by decide
  rw [marks_append_of_unmarked unmarked stops, written, marks_append_of_plain before, marks, mark,
    marks_append_of_plain inside, marks_append_of_plain (numeral_plain number),
    marks_append_of_plain behind, alone]
  rfl

theorem wordPlaceholder_numbers (number : Nat) :
    Numbers (wordPlaceholder number).toList number := by
  intro run html found unmarked _ joined
  have written : (wordPlaceholder number).toList ++ html =
      '_' :: ("_ZENITH_EXPR_".toList ++ (numeral number ++ ("__".toList ++ html))) := by
    calc (wordPlaceholder number).toList ++ html
        = "__ZENITH_EXPR_".toList ++ (numeral number ++ "__".toList) ++ html :=
          congrArg (· ++ html) (toList_wordPlaceholder number)
      _ = "__ZENITH_EXPR_".toList ++ (numeral number ++ ("__".toList ++ html)) := by
          rw [List.append_assoc, List.append_assoc]
      _ = _ := rfl
  have stops : Stops ((wordPlaceholder number).toList ++ html) := .inr (.inl ⟨_, written⟩)
  have mark : mark? ('_' :: ("_ZENITH_EXPR_".toList ++ (numeral number ++
      ("__".toList ++ html)))) = some (numeral number) := by
    have read := placeholder?_numeral "__ZENITH_EXPR_".toList "__".toList number html
      (by decide +kernel)
    rw [mark?, Option.map_or]
    exact Option.or_eq_some_iff.mpr (.inl read)
  -- inside the word no underscore is followed by another one
  have digits : (numeral number ++ ("__".toList ++ html)).head? ≠ some '_' := by
    rw [List.head?_append]
    cases shape : numeral number with
    | nil => exact absurd (numeral_eq number ▸ shape) Nat.toDigits_ne_nil
    | cons d others =>
        have digit := List.all_eq_true.mp (numeral_plain number) d (shape ▸ List.mem_cons_self)
        rw [isPlain, Bool.and_eq_true, bne_iff_ne] at digit
        simpa using digit.1
  have zenith : "ZENITH".toList.all isPlain = true := by decide
  have expr : "EXPR".toList.all isPlain = true := by decide
  have inside : marks ("_ZENITH_EXPR_".toList ++ (numeral number ++ ("__".toList ++ html))) =
      marks (numeral number ++ ("__".toList ++ html)) := by
    show marks ('_' :: ("ZENITH".toList ++ ('_' :: ("EXPR".toList ++ ('_' ::
      (numeral number ++ ("__".toList ++ html))))))) = _
    rw [marks_underscore (by simp), marks_append_of_plain zenith, marks_underscore (by simp),
      marks_append_of_plain expr, marks_underscore digits]
  rw [marks_append_of_unmarked unmarked stops, written, marks, mark, inside,
    marks_append_of_plain (numeral_plain number), joined]
  rfl

theorem quoted_wordPlaceholder_numbers (number : Nat) :
    Numbers ("\"" ++ wordPlaceholder number ++ "\"").toList number := by
  intro run html found unmarked alone _
  have written : run ++ (("\"" ++ wordPlaceholder number ++ "\"").toList ++ html) =
      (run ++ ['"']) ++ ((wordPlaceholder number).toList ++ ('"' :: html)) := by
    simp
  have quote : '"' ∈ separators := by decide
  have closed : marks ('"' :: html) = found := by
    rw [marks_cons_of_plain (by decide), alone]
  have underscores : Unmarked "__".toList := Unmarked.nil.underscores
  have joined : marks ("__".toList ++ '"' :: html) = found := by
    rw [marks_append_of_unmarked underscores (.inl ⟨'"', html, rfl, quote⟩), closed]
  rw [written]
  exact wordPlaceholder_numbers number (unmarked.append .nil quote) closed joined

/-- A text without the words that is apart from what stands before and behind it. -/
structure Breaks (text : List Char) : Prop where
  unmarked : Unmarked text
  before : ∃ c ∈ separators, text.head? = some c
  behind : ∃ c ∈ separators, text.getLast? = some c

theorem Breaks.between (opening closing : Char) (unmarked : Unmarked text)
    (before : opening ∈ separators) (behind : closing ∈ separators) :
    Breaks (opening :: (text ++ [closing])) :=
  ⟨Unmarked.nil.append (unmarked.append .nil behind) before, ⟨opening, before, rfl⟩, closing,
    behind, by rw [← List.cons_append, List.getLast?_concat]⟩

/-- Nothing is found in such a text, and what follows it is read for itself. -/
theorem Breaks.marks (breaks : Breaks text) (unmarked : Unmarked run) (html : List Char) :
    marks (run ++ (text ++ html)) = marks html := by
  obtain ⟨own, ⟨first, opens, head⟩, last, closes, ends⟩ := breaks
  obtain ⟨front, rfl⟩ := List.getLast?_eq_some_iff.mp ends
  have whole : Unmarked (run ++ (front ++ [last])) := by
    obtain ⟨others, shape⟩ := List.head?_eq_some_iff.mp head
    rw [shape] at own ⊢
    exact unmarked.append (own.part (List.suffix_cons first others).isInfix) opens
  rw [← List.append_assoc] at whole
  have lead : run ++ (front ++ [last] ++ html) = (run ++ front) ++ last :: html := by simp
  have plain : separators.all isPlain = true := by decide
  rw [lead, marks_append_of_unmarked whole.left (.inl ⟨last, html, rfl, closes⟩),
    marks_cons_of_plain (List.all_eq_true.mp plain last closes)]

end Template
end ReactiveTemplate
