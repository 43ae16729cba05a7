import ReactiveTemplate.Proofs.Text.Offset

/-!
# Bytes

The bytes of a text in UTF-8, written as a text again: each byte is the character with its number.
A character of ASCII is its own byte, and the bytes of all others lie beyond ASCII, so that what
looks for characters of ASCII finds the same ones among the bytes.
-/

namespace ReactiveTemplate
namespace Text

variable {text rest before ahead : List Char} {b c : Char} {index start stop : Nat} {whole : String}

/-- The bytes of a character. -/
def encodeChar (c : Char) : List Char := (String.utf8EncodeChar c).map Char.ofUInt8

/-- The bytes of a text. -/
def encode (text : List Char) : List Char := text.flatMap encodeChar

/-- The bytes that a string is stored in. -/
def bytes (whole : String) : List Char := whole.toByteArray.data.toList.map Char.ofUInt8

theorem bytes_eq_encode (whole : String) : bytes whole = encode whole.toList := by
  rw [bytes, ← String.ofList_toList (s := whole), String.toByteArray_ofList, String.toList_ofList,
    List.utf8Encode, List.toList_data_toByteArray, List.map_flatMap]
  rfl

theorem encode_nil : encode [] = [] := rfl

theorem encode_cons (c : Char) (rest : List Char) : encode (c :: rest) = encodeChar c ++ encode rest :=
  List.flatMap_cons

theorem encode_append (text more : List Char) : encode (text ++ more) = encode text ++ encode more :=
  List.flatMap_append

theorem length_encodeChar (c : Char) : (encodeChar c).length = c.utf8Size := by
  rw [encodeChar, List.length_map, String.length_utf8EncodeChar]

theorem length_encode (text : List Char) : (encode text).length = byteSize text := by
  induction text with
  | nil => rfl
  | cons c rest induction =>
      rw [encode_cons, List.length_append, length_encodeChar, induction, byteSize]

/-- A character of ASCII is its own byte. -/
theorem encodeChar_of_ascii (ascii : c.toNat < 0x80) : encodeChar c = [c] := by
  have small : c.val.toNat ≤ 127 := Nat.le_of_lt_succ ascii
  have same : Char.ofUInt8 (UInt8.ofNat c.val.toNat) = c := by
    apply Char.toNat_inj.mp
    change (UInt8.ofNat c.val.toNat).toNat = c.val.toNat
    rw [UInt8.toNat_ofNat']
    omega
  rw [encodeChar, String.utf8EncodeChar, if_pos small, List.map_singleton, same]

/-- The bytes of all other characters lie beyond ASCII. -/
theorem le_of_mem_encodeChar (beyond : 0x80 ≤ c.toNat) (member : b ∈ encodeChar c) :
    0x80 ≤ b.toNat := by
  have large : ¬ c.val.toNat ≤ 127 := Nat.not_le.mpr beyond
  have high (number : Nat) (low : 0x80 ≤ number) (small : number < 0x100) :
      0x80 ≤ (UInt8.ofNat number).toNat := by
    rw [UInt8.toNat_ofNat']
    omega
  have follows (number : Nat) : 0x80 ≤ (UInt8.ofNat (number % 64 + 128)).toNat :=
    high _ (by omega) (by omega)
  obtain ⟨byte, listed, rfl⟩ := List.mem_map.mp member
  change 0x80 ≤ byte.toNat
  unfold String.utf8EncodeChar at listed
  rw [if_neg large] at listed
  split_ifs at listed <;>
    · rcases List.mem_cons.mp listed with rfl | behind
      · exact high _ (by omega) (by omega)
      · simp only [List.mem_cons, List.not_mem_nil, or_false] at behind
        rcases behind with rfl | rfl | rfl <;> exact follows _

theorem utf8Size_of_ascii (ascii : c.toNat < 0x80) : c.utf8Size = 1 := by
  rw [← length_encodeChar, encodeChar_of_ascii ascii, List.length_singleton]

theorem exists_encodeChar (c : Char) : ∃ first others, encodeChar c = first :: others := by
  refine List.exists_cons_of_ne_nil fun none => ?_
  exact String.utf8EncodeChar_ne_nil (List.map_eq_nil_iff.mp none)

/-- Text of ASCII is its own encoding, and has no other one. -/
theorem encode_eq_iff_of_ascii (ascii : ∀ c ∈ text, c.toNat < 0x80) :
    encode rest = text ↔ rest = text := by
  induction text generalizing rest with
  | nil =>
      cases rest with
      | nil => exact Iff.rfl
      | cons c rest =>
          obtain ⟨first, others, same⟩ := exists_encodeChar c
          rw [encode_cons, same]
          exact iff_of_false (List.cons_ne_nil _ _) (List.cons_ne_nil _ _)
  | cons sign text induction =>
      obtain ⟨low, ascii⟩ := List.forall_mem_cons.mp ascii
      cases rest with
      | nil => exact iff_of_false (List.cons_ne_nil _ _).symm (List.cons_ne_nil _ _).symm
      | cons c rest =>
          rw [encode_cons]
          rcases Nat.lt_or_ge c.toNat 0x80 with small | beyond
          · rw [encodeChar_of_ascii small, List.singleton_append, List.cons.injEq, List.cons.injEq,
              induction ascii]
          · -- no byte of the character is of ASCII
            obtain ⟨first, others, same⟩ := exists_encodeChar c
            rw [same]
            refine iff_of_false (fun equal => ?_) fun equal => ?_
            · obtain ⟨rfl, -⟩ := List.cons.inj equal
              have high := le_of_mem_encodeChar beyond (same ▸ List.mem_cons_self)
              omega
            · obtain ⟨rfl, -⟩ := List.cons.inj equal
              omega

theorem byteSize_of_ascii (ascii : ∀ c ∈ text, c.toNat < 0x80) : byteSize text = text.length := by
  rw [← length_encode, (encode_eq_iff_of_ascii ascii).mpr rfl]

theorem byteOffset_of_ascii (part : List Char) (ascii : ∀ c ∈ part, c.toNat < 0x80)
    (starts : part <+: text) : byteOffset text part.length = part.length := by
  rw [byteOffset_length_of_isPrefix starts, byteSize_of_ascii ascii]

/-- All bytes of a character but the first lie beyond ASCII. -/
theorem le_of_mem_others {others : List Char} (same : encodeChar c = b :: others) :
    ∀ other ∈ others, 0x80 ≤ other.toNat := by
  rcases Nat.lt_or_ge c.toNat 0x80 with ascii | beyond
  · rw [encodeChar_of_ascii ascii] at same
    cases same
    exact List.forall_mem_nil _
  · exact fun other member =>
      le_of_mem_encodeChar beyond (same ▸ List.mem_cons_of_mem b member)

theorem utf8Size_of_encodeChar {others : List Char} (same : encodeChar c = b :: others) :
    c.utf8Size = others.length + 1 := by
  rw [← length_encodeChar, same, List.length_cons]

/-- A byte of ASCII is a character of the text, and the bytes around it are those of the text around
that character. -/
theorem exists_split_of_encode (ascii : c.toNat < 0x80) (split : encode text = before ++ c :: ahead) :
    ∃ front behind, text = front ++ c :: behind ∧ encode front = before ∧ encode behind = ahead := by
  induction text generalizing before with
  | nil => simp [encode_nil] at split
  | cons first rest induction =>
      rw [encode_cons, List.append_eq_append_iff] at split
      rcases split with ⟨more, rfl, split⟩ | ⟨more, same, split⟩
      · obtain ⟨front, behind, rfl, rfl, rfl⟩ := induction split
        exact ⟨first :: front, behind, rfl, encode_cons first front, rfl⟩
      · rcases more with _ | ⟨b, more⟩
        · obtain ⟨front, behind, rfl, none, rfl⟩ := @induction [] split.symm
          rw [List.append_nil] at same
          exact ⟨first :: front, behind, rfl, by rw [encode_cons, none, List.append_nil, same], rfl⟩
        · obtain ⟨rfl, rfl⟩ := List.cons.inj split
          -- other characters have no byte of ASCII
          have single : first.toNat < 0x80 := by
            by_contra beyond
            have listed : c ∈ encodeChar first := same ▸ List.mem_append_right _ List.mem_cons_self
            exact absurd ascii (Nat.not_lt.mpr (le_of_mem_encodeChar (Nat.not_lt.mp beyond) listed))
          rw [encodeChar_of_ascii single, eq_comm, List.append_eq_singleton_iff] at same
          obtain ⟨rfl, here⟩ | ⟨-, none⟩ := same
          · obtain ⟨rfl, rfl⟩ := List.cons.inj here
            exact ⟨[], rest, rfl, rfl, rfl⟩
          · cases none

/-! ## Slices -/

/-- The part of a string between two byte offsets is in range and divides no character. -/
structure Sliceable (whole : String) (start stop : Nat) : Prop where
  /-- The first offset does not lie behind the second one. -/
  le : start ≤ stop
  /-- A character starts at the first offset, or the string ends there. -/
  start : String.Pos.Raw.IsValid whole ⟨start⟩
  /-- A character starts at the second offset, or the string ends there. -/
  stop : String.Pos.Raw.IsValid whole ⟨stop⟩

theorem isValid_byteOffset (inside : index ≤ whole.toList.length) :
    String.Pos.Raw.IsValid whole ⟨byteOffset whole.toList index⟩ := by
  obtain ⟨first, -, same, -⟩ := exists_extract (List.nil_prefix : [] <+: whole.toList.drop index) inside
  exact same ▸ first.isValid

theorem sliceable_byteOffset (ordered : start ≤ stop) (inside : stop ≤ whole.toList.length) :
    Sliceable whole (byteOffset whole.toList start) (byteOffset whole.toList stop) :=
  ⟨byteOffset_le_byteOffset ordered inside, isValid_byteOffset (ordered.trans inside),
    isValid_byteOffset inside⟩

theorem byteSize_toList (whole : String) : byteSize whole.toList = whole.utf8ByteSize := by
  rw [← utf8ByteSize_ofList, String.ofList_toList]

/-- A part of a string lies behind what is in front of it. -/
theorem sliceable_of_append {part behind : List Char}
    (split : whole.toList = before ++ (part ++ behind)) :
    Sliceable whole (byteSize before) (byteSize before + byteSize part) := by
  have front : before <+: whole.toList := ⟨part ++ behind, split.symm⟩
  have long : before ++ part <+: whole.toList := ⟨behind, by rw [split, List.append_assoc]⟩
  rw [← byteSize_append, ← byteOffset_length_of_isPrefix front, ← byteOffset_length_of_isPrefix long,
    List.length_append]
  refine sliceable_byteOffset (Nat.le_add_right _ _) ?_
  rw [← List.length_append]
  exact long.length_le

theorem isValid_within (valid : String.Pos.Raw.IsValid whole ⟨index⟩) (front back : String) :
    String.Pos.Raw.IsValid (front ++ whole ++ back) ⟨front.utf8ByteSize + index⟩ := by
  obtain ⟨first, second, rfl, same⟩ := String.Pos.Raw.isValid_iff_exists_append.mp valid
  refine String.Pos.Raw.isValid_iff_exists_append.mpr ⟨front ++ first, second ++ back, ?_, ?_⟩
  · simp only [String.append_assoc]
  · rw [String.Pos.Raw.ext_iff, String.byteIdx_rawEndPos] at same ⊢
    rw [String.utf8ByteSize_append, ← same]

/-- A slice of a part of a string is a slice of the string. -/
theorem Sliceable.within (sliceable : Sliceable whole start stop) (front back : String) :
    Sliceable (front ++ whole ++ back) (front.utf8ByteSize + start) (front.utf8ByteSize + stop) :=
  ⟨Nat.add_le_add_left sliceable.le _, isValid_within sliceable.start front back,
    isValid_within sliceable.stop front back⟩

end Text
end ReactiveTemplate
