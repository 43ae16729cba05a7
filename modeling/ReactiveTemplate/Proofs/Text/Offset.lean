import Mathlib.Data.List.Infix
import ReactiveTemplate.Text.Offset

/-!
# Parts of a text

A part of a text is as long as its ends are apart.  The bytes of a text are those of its parts, so
that a part of a text stands between two positions of the string, whose byte offsets are the sizes
of what is in front of them.
-/

namespace ReactiveTemplate
namespace Text

variable {text part : List Char} {start : Nat}

theorem length_slice (text : List Char) (start stop : Nat) :
    (slice text start stop).length = min stop text.length - start := by
  rw [slice, List.length_drop, List.length_take]

theorem length_slice_le (text : List Char) (start stop : Nat) :
    (slice text start stop).length ≤ stop - start := by
  rw [length_slice]
  omega

theorem byteSize_append (first rest : List Char) :
    byteSize (first ++ rest) = byteSize first + byteSize rest := by
  induction first with
  | nil => exact (Nat.zero_add _).symm
  | cons c others induction =>
      rw [List.cons_append, byteSize, byteSize, induction, Nat.add_assoc]

theorem byteSize_pos (nonempty : text ≠ []) : 0 < byteSize text := by
  obtain ⟨c, rest, rfl⟩ := List.exists_cons_of_ne_nil nonempty
  exact Nat.lt_of_lt_of_le c.utf8Size_pos (Nat.le_add_right _ _)

/-- A part of a text has fewer bytes if it has fewer characters. -/
theorem byteSize_lt_of_isInfix (inside : part <:+: text) (shorter : part.length < text.length) :
    byteSize part < byteSize text := by
  obtain ⟨front, rest, rfl⟩ := inside
  rw [byteSize_append, byteSize_append]
  rw [List.length_append, List.length_append] at shorter
  by_cases empty : front = []
  · have more : 0 < byteSize rest := byteSize_pos (List.ne_nil_of_length_pos (by simp_all))
    omega
  · have more : 0 < byteSize front := byteSize_pos empty
    omega

/-- The size of a string is that of the text it spells. -/
theorem utf8ByteSize_ofList (text : List Char) :
    (String.ofList text).utf8ByteSize = byteSize text := by
  induction text with
  | nil => rfl
  | cons c rest induction =>
      rw [← List.singleton_append, String.ofList_append, String.utf8ByteSize_append, induction,
        ← String.singleton_eq_ofList, String.utf8ByteSize_singleton]
      rfl

/-! ## Offsets -/

theorem byteOffset_of_le (inside : start ≤ text.length) :
    byteOffset text start = byteSize (text.take start) := by
  rw [byteOffset, Nat.sub_eq_zero_of_le inside, Nat.add_zero]

/-- The offset behind a part of a text. -/
theorem byteOffset_add_length (starts : part <+: text.drop start) (inside : start ≤ text.length) :
    byteOffset text (start + part.length) = byteOffset text start + byteSize part := by
  have short := starts.length_le
  rw [List.length_drop] at short
  rw [byteOffset_of_le inside, byteOffset_of_le (by omega), List.take_add, byteSize_append,
    ← List.prefix_iff_eq_take.mp starts]

theorem byteOffset_le_byteOffset {start' : Nat} (before : start ≤ start')
    (inside : start' ≤ text.length) : byteOffset text start ≤ byteOffset text start' := by
  obtain ⟨more, rfl⟩ := Nat.exists_eq_add_of_le before
  rw [byteOffset_of_le inside, byteOffset_of_le (by omega), List.take_add, byteSize_append]
  exact Nat.le_add_right _ _

theorem byteOffset_zero (text : List Char) : byteOffset text 0 = 0 := by
  rw [byteOffset_of_le (Nat.zero_le _)]
  rfl

theorem byteOffset_cons (c : Char) (text : List Char) (index : Nat) :
    byteOffset (c :: text) (index + 1) = c.utf8Size + byteOffset text index := by
  rw [byteOffset, byteOffset, List.take_succ_cons, byteSize, List.length_cons,
    Nat.add_sub_add_right, Nat.add_assoc]

theorem byteOffset_append (front text : List Char) (index : Nat) :
    byteOffset (front ++ text) (front.length + index) = byteSize front + byteOffset text index := by
  rw [byteOffset, byteOffset, List.take_length_add_append, byteSize_append, List.length_append,
    Nat.add_sub_add_left, Nat.add_assoc]

theorem byteOffset_length (text : List Char) : byteOffset text text.length = byteSize text := by
  rw [byteOffset_of_le (Nat.le_refl _), List.take_length]

/-- The offset behind a character. -/
theorem byteOffset_succ {c : Char} (there : text[start]? = some c) :
    byteOffset text (start + 1) = byteOffset text start + c.utf8Size := by
  obtain ⟨inside, rfl⟩ := List.getElem?_eq_some_iff.mp there
  rw [byteOffset_of_le inside, byteOffset_of_le (Nat.le_of_lt inside), ← List.take_append_getElem inside,
    byteSize_append]
  rfl

theorem byteOffset_length_of_isPrefix (starts : part <+: text) :
    byteOffset text part.length = byteSize part := by
  rw [byteOffset_of_le starts.length_le, ← List.prefix_iff_eq_take.mp starts]

private theorem extract_between (before part after : ByteArray) :
    (before ++ (part ++ after)).extract before.size (before.size + part.size) = part := by
  have front := ByteArray.extract_append_size_add (a := before) (b := part ++ after) (i := 0)
    (j := part.size)
  rw [Nat.add_zero] at front
  rw [front, ByteArray.extract_append_size_left, ByteArray.extract_zero_size]

/-- A part of a string stands between two of its positions. -/
theorem exists_extract {whole : String} (starts : part <+: whole.toList.drop start)
    (inside : start ≤ whole.toList.length) :
    ∃ first last : whole.Pos, first.offset.byteIdx = byteOffset whole.toList start ∧
      last.offset.byteIdx = byteOffset whole.toList start + byteSize part ∧
      whole.extract first last = String.ofList part := by
  obtain ⟨after, split⟩ := starts
  have spelled : whole = String.ofList (whole.toList.take start) ++
      (String.ofList part ++ String.ofList after) := by
    rw [← String.ofList_append, ← String.ofList_append, split, List.take_append_drop,
      String.ofList_toList]
  rw [byteOffset_of_le inside]
  generalize whole.toList.take start = before at spelled ⊢
  clear split inside
  subst spelled
  have valid : String.Pos.Raw.IsValid _ (String.ofList before).rawEndPos :=
    String.Pos.Raw.isValid_iff_exists_append.mpr
      ⟨_, String.ofList part ++ String.ofList after, rfl, rfl⟩
  have valid' : String.Pos.Raw.IsValid _ (String.ofList before ++ String.ofList part).rawEndPos :=
    String.Pos.Raw.isValid_iff_exists_append.mpr
      ⟨_, String.ofList after, (String.append_assoc ..).symm, rfl⟩
  have size : (String.ofList before ++ String.ofList part).utf8ByteSize =
      byteSize before + byteSize part := by
    rw [String.utf8ByteSize_append, utf8ByteSize_ofList, utf8ByteSize_ofList]
  refine ⟨⟨_, valid⟩, ⟨_, valid'⟩, utf8ByteSize_ofList before, size, ?_⟩
  rw [← String.toByteArray_inj, String.toByteArray_extract]
  simp only [String.byteIdx_rawEndPos, ← String.size_toByteArray, String.toByteArray_append,
    ByteArray.size_append]
  exact extract_between _ _ _

end Text
end ReactiveTemplate
