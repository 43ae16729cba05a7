import ReactiveTemplate.Proofs.Code.Locality
import ReactiveTemplate.Proofs.Text.Bytes

/-!
# Code as bytes

The lexer may as well be run on the bytes of a text.  It asks of a character only which character of
ASCII it is, if it is one, and the bytes of all others lie beyond ASCII like the characters
themselves.  So looking ahead it finds the same in the bytes, and what it reads at once, such as a
word or a regular expression, is as long there as its bytes are.
-/

namespace ReactiveTemplate
namespace Code

open Text

variable {text rest : List Char} {c : Char} {state : LexState} {kind : Char → Bool}

/-! ## Looking ahead -/

/-- A text is empty, or starts with a character of ASCII, or with bytes that are none. -/
theorem encode_cases (text : List Char) :
    text = [] ∨ (∃ c rest, text = c :: rest ∧ c.toNat < 0x80 ∧ encode text = c :: encode rest) ∨
      ∃ c rest b more, text = c :: rest ∧ 0x80 ≤ c.toNat ∧ encode text = b :: more ∧ 0x80 ≤ b.toNat := by
  cases text with
  | nil => exact .inl rfl
  | cons c rest =>
      right
      rcases Nat.lt_or_ge c.toNat 0x80 with ascii | beyond
      · exact .inl ⟨c, rest, rfl, ascii, by rw [encode_cons, encodeChar_of_ascii ascii]; rfl⟩
      · obtain ⟨b, others, same⟩ := exists_encodeChar c
        refine .inr ⟨c, rest, b, others ++ encode rest, rfl, beyond, by rw [encode_cons, same]; rfl, ?_⟩
        exact le_of_mem_encodeChar beyond (same ▸ List.mem_cons_self)

/-- Characters of ASCII are found in the bytes. -/
theorem head?_encode (ascii : c.toNat < 0x80) (text : List Char) :
    (encode text).head? = some c ↔ text.head? = some c := by
  rcases encode_cases text with rfl | ⟨first, rest, rfl, -, same⟩ |
    ⟨first, rest, b, more, rfl, beyond, same, beyond'⟩
  · exact Iff.rfl
  · rw [same, List.head?_cons, List.head?_cons]
  · rw [same, List.head?_cons, List.head?_cons, Option.some_inj, Option.some_inj]
    refine iff_of_false ?_ ?_ <;>
      · rintro rfl
        omega

theorem any_head?_encode (apart : ∀ c : Char, 0x80 ≤ c.toNat → kind c = false) (text : List Char) :
    (encode text).head?.any kind = text.head?.any kind := by
  rcases encode_cases text with rfl | ⟨first, rest, rfl, -, same⟩ |
    ⟨first, rest, b, more, rfl, beyond, same, beyond'⟩
  · rfl
  · rw [same, List.head?_cons, List.head?_cons]
  · rw [same, List.head?_cons, List.head?_cons, Option.any_some, Option.any_some, apart _ beyond,
      apart _ beyond']

theorem isAlphanum_of_beyond (beyond : 0x80 ≤ c.toNat) : c.isAlphanum = false := by
  rw [Bool.eq_false_iff]
  intro word
  have range := toNat_of_isAlphanum word
  omega

theorem isAlpha_of_beyond (c : Char) (beyond : 0x80 ≤ c.toNat) : c.isAlpha = false := by
  have word := isAlphanum_of_beyond beyond
  rw [Char.isAlphanum, Bool.or_eq_false_iff] at word
  exact word.1

theorem isDigit_of_beyond (c : Char) (beyond : 0x80 ≤ c.toNat) : c.isDigit = false := by
  have word := isAlphanum_of_beyond beyond
  rw [Char.isAlphanum, Bool.or_eq_false_iff] at word
  exact word.2

theorem ne_of_beyond (beyond : 0x80 ≤ c.toNat) (sign : Char) (ascii : sign.toNat < 0x80) :
    c ≠ sign := by
  rintro rfl
  omega

theorem isTagNamePart_of_beyond (c : Char) (beyond : 0x80 ≤ c.toNat) : isTagNamePart c = false := by
  have apart (sign : Char) (ascii : sign.toNat < 0x80) : (c == sign) = false :=
    beq_false_of_ne (ne_of_beyond beyond _ ascii)
  simp [isTagNamePart, isAlphanum_of_beyond beyond, apart '.' (by decide), apart '-' (by decide),
    apart '_' (by decide), apart ':' (by decide)]

theorem startsTag_encode (text : List Char) : startsTag (encode text) = startsTag text := by
  have head (text : List Char) :
      startsTag text = text.head?.any fun c => c.isAlpha || c == '>' := by
    cases text <;> rfl
  rw [head, head, any_head?_encode]
  intro c beyond
  rw [isAlpha_of_beyond c beyond, Bool.false_or]
  exact beq_false_of_ne (ne_of_beyond beyond _ (by decide))

/-- The characters at the start of a text that are of a kind within ASCII. -/
theorem takeWhile_encode (apart : ∀ c : Char, 0x80 ≤ c.toNat → kind c = false) (text : List Char) :
    (encode text).takeWhile kind = text.takeWhile kind := by
  induction text with
  | nil => rfl
  | cons c rest induction =>
      rcases encode_cases (c :: rest) with none | ⟨first, behind, whole, -, same⟩ |
        ⟨first, behind, b, more, whole, beyond, same, beyond'⟩
      · cases none
      · cases whole
        rw [same, List.takeWhile_cons, List.takeWhile_cons, induction]
      · cases whole
        rw [same, List.takeWhile_cons_of_neg (by simp [apart b beyond']),
          List.takeWhile_cons_of_neg (by simp [apart _ beyond])]

/-- The bytes at the start of a text that are of a kind with all that lies beyond ASCII. -/
theorem takeWhile_encode_of_beyond (beyond : ∀ c : Char, 0x80 ≤ c.toNat → kind c = true)
    (text : List Char) : (encode text).takeWhile kind = encode (text.takeWhile kind) := by
  induction text with
  | nil => rfl
  | cons c rest induction =>
      rw [encode_cons, List.takeWhile_cons]
      rcases Nat.lt_or_ge c.toNat 0x80 with ascii | high
      · rw [encodeChar_of_ascii ascii, List.singleton_append, List.takeWhile_cons]
        split
        · rw [induction, encode_cons, encodeChar_of_ascii ascii, List.singleton_append]
        · rfl
      · rw [beyond c high, if_pos rfl, List.takeWhile_append_of_pos, induction, encode_cons]
        exact fun b member => beyond b (le_of_mem_encodeChar high member)

theorem find?_encode (apart : ∀ c : Char, 0x80 ≤ c.toNat → kind c = true) (sign : Char)
    (ascii : sign.toNat < 0x80) (text : List Char) :
    ((encode text).find? kind).any (· == sign) = (text.find? kind).any (· == sign) := by
  induction text with
  | nil => rfl
  | cons c rest induction =>
      rcases encode_cases (c :: rest) with none | ⟨first, behind, whole, -, same⟩ |
        ⟨first, behind, b, more, whole, beyond, same, beyond'⟩
      · cases none
      · cases whole
        rw [same, List.find?_cons, List.find?_cons]
        split
        · rfl
        · exact induction
      · cases whole
        rw [same, List.find?_cons_of_pos (apart b beyond'), List.find?_cons_of_pos (apart _ beyond),
          Option.any_some, Option.any_some, beq_false_of_ne (ne_of_beyond beyond _ ascii),
          beq_false_of_ne (ne_of_beyond beyond' _ ascii)]

theorem encode_cons_of_ascii (ascii : c.toNat < 0x80) (rest : List Char) :
    encode (c :: rest) = c :: encode rest := by
  rw [encode_cons, encodeChar_of_ascii ascii, List.singleton_append]

/-- A byte of ASCII at the start is the first character. -/
theorem eq_cons_of_encode (ascii : c.toNat < 0x80) {own : List Char} (same : encode text = c :: own) :
    ∃ rest, text = c :: rest ∧ encode rest = own := by
  have head : text.head? = some c := (head?_encode ascii text).mp (by rw [same, List.head?_cons])
  obtain ⟨rest, rfl⟩ := List.head?_eq_some_iff.mp head
  rw [encode_cons_of_ascii ascii] at same
  exact ⟨rest, rfl, (List.cons.inj same).2⟩

/-- A method called "map": no word goes on behind its name, and a bracket is next. -/
theorem startsMapCall_name (after : List Char) :
    startsMapCall ('m' :: 'a' :: 'p' :: after) =
      ((!after.head?.any fun c => c.isAlphanum || c == '_' || c == '$') &&
        (after.find? fun c => !isAsciiSpace c).any (· == '(')) := by
  simp only [startsMapCall]
  refine congrArg₂ and ?_ ?_
  · cases after <;> rfl
  · cases after.find? fun c => !isAsciiSpace c <;> rfl

theorem startsMapCall_encode (text : List Char) :
    startsMapCall (encode text) = startsMapCall text := by
  fun_cases startsMapCall text with
  | case1 after =>
      rw [encode_cons_of_ascii (by decide), encode_cons_of_ascii (by decide),
        encode_cons_of_ascii (by decide), startsMapCall_name]
      refine .trans (congrArg₂ and (congrArg not ?_) ?_) (startsMapCall_name after).symm
      · refine any_head?_encode ?_ after
        intro c beyond
        simp [isAlphanum_of_beyond beyond, ne_of_beyond beyond '_' (by decide),
          ne_of_beyond beyond '$' (by decide)]
      · refine find?_encode ?_ '(' (by decide) after
        intro c beyond
        simp [isAsciiSpace, ne_of_beyond beyond ' ' (by decide),
          ne_of_beyond beyond '\t' (by decide),
          ne_of_beyond beyond '\n' (by decide),
          ne_of_beyond beyond '\r' (by decide),
          ne_of_beyond beyond '\x0c' (by decide)]
  | case2 _ plain =>
      rw [startsMapCall]
      intro after same
      obtain ⟨second, rfl, same₂⟩ := eq_cons_of_encode (by decide) same
      obtain ⟨third, rfl, same₃⟩ := eq_cons_of_encode (by decide) same₂
      obtain ⟨fourth, rfl, -⟩ := eq_cons_of_encode (by decide) same₃
      exact plain fourth rfl

theorem assignable_encode (state : LexState) (kind : TokenKind) (text : List Char) :
    state.assignable kind (encode text) = state.assignable kind text := by
  have cases (text : List Char) : state.assignable kind text =
      if text.head? = some '=' then state.operator kind 3 else state.operator kind 2 := by
    unfold LexState.assignable
    split
    · exact (if_pos rfl).symm
    · rename_i other
      rw [if_neg]
      intro head
      obtain ⟨after, rfl⟩ := List.head?_eq_some_iff.mp head
      exact other after rfl
  rw [cases, cases]
  exact ite_congr (propext (head?_encode (by decide) text)) (fun _ => rfl) fun _ => rfl

/-- The words that an operand follows are of ASCII. -/
theorem operatorWords_encode (word : List Char) :
    operatorWords.contains (String.ofList (encode word)) =
      operatorWords.contains (String.ofList word) := by
  have plain : operatorWords.all (fun operator => operator.toList.all fun c => c.toNat < 0x80) := by
    decide
  simp only [List.all_eq_true, decide_eq_true_eq] at plain
  rw [Bool.eq_iff_iff, List.contains_iff_mem, List.contains_iff_mem]
  constructor
  · intro member
    have ascii := plain _ member
    rw [String.toList_ofList] at ascii
    rwa [← (encode_eq_iff_of_ascii ascii).mp rfl] at member
  · intro member
    have ascii := plain _ member
    rw [String.toList_ofList] at ascii
    rwa [(encode_eq_iff_of_ascii ascii).mpr rfl]

/-! ## Lengths in bytes -/

theorem byteOffset_takeWhile (apart : ∀ c : Char, 0x80 ≤ c.toNat → kind c = false)
    (text : List Char) :
    byteOffset text (text.takeWhile kind).length = ((encode text).takeWhile kind).length := by
  rw [byteOffset_length_of_isPrefix (List.takeWhile_prefix kind), takeWhile_encode apart,
    byteSize_of_ascii]
  intro c member
  by_contra beyond
  have other := apart c (Nat.not_lt.mp beyond)
  rw [List.mem_takeWhile_imp member] at other
  cases other

theorem flagsLength_encode (text : List Char) :
    flagsLength (encode text) = byteOffset text (flagsLength text) :=
  (byteOffset_takeWhile isAlpha_of_beyond text).symm

/-- What lies beyond ASCII belongs to a regular expression. -/
theorem regexLength_append_of_beyond (beyond : ∀ b ∈ text, 0x80 ≤ b.toNat) (inClass : Bool)
    (rest : List Char) :
    regexLength inClass (text ++ rest) = text.length + regexLength inClass rest := by
  induction text with
  | nil => exact (Nat.zero_add _).symm
  | cons b text induction =>
      obtain ⟨high, beyond⟩ := List.forall_mem_cons.mp beyond
      rw [List.cons_append, regexLength_cons (ne_of_beyond high _ (by decide))
          (ne_of_beyond high _ (by decide)) (ne_of_beyond high _ (by decide)),
        if_neg fun slash => ne_of_beyond high _ (by decide) slash.1,
        if_neg (ne_of_beyond high _ (by decide)), induction beyond, List.length_cons,
        Nat.add_right_comm]

theorem regexLength_encode (inClass : Bool) (text : List Char) :
    regexLength inClass (encode text) = byteOffset text (regexLength inClass text) := by
  fun_induction regexLength inClass text with
  | case1 inClass => rfl
  | case2 inClass => rfl
  | case3 inClass escaped rest induction =>
      -- one byte of the character is passed over, the others are read
      obtain ⟨b, others, same⟩ := exists_encodeChar escaped
      rw [encode_cons_of_ascii (by decide), encode_cons, same, List.cons_append, regexLength,
        regexLength_append_of_beyond (le_of_mem_others same), induction, byteOffset_cons,
        byteOffset_cons, utf8Size_of_encodeChar same, utf8Size_of_ascii (by decide)]
      omega
  | case4 _ rest induction | case5 _ rest induction =>
      rw [encode_cons_of_ascii (by decide), regexLength, induction, byteOffset_cons,
        utf8Size_of_ascii (by decide), Nat.add_comm]
  | case6 inClass c rest lone escape opening closing slash =>
      obtain ⟨rfl, rfl⟩ := slash
      rw [encode_cons_of_ascii (by decide), regexLength_cons (by decide) (by decide) (by decide),
        if_pos ⟨rfl, rfl⟩, flagsLength_encode, byteOffset_cons, utf8Size_of_ascii (by decide),
        Nat.add_comm]
  | case7 inClass rest =>
      rw [encode_cons_of_ascii (by decide), regexLength_cons (by decide) (by decide) (by decide),
        if_neg (by simp), if_pos rfl, byteOffset_zero]
  | case8 inClass c rest lone escape opening closing slash line induction =>
      rw [byteOffset_cons, ← induction]
      rcases Nat.lt_or_ge c.toNat 0x80 with ascii | beyond
      · rw [encode_cons_of_ascii ascii, regexLength_cons (ne_backslash lone escape) opening closing,
          if_neg slash, if_neg line, utf8Size_of_ascii ascii, Nat.add_comm]
      · rw [encode_cons, regexLength_append_of_beyond fun b => le_of_mem_encodeChar beyond,
          length_encodeChar]

end Code
end ReactiveTemplate
