import ReactiveTemplate.Proofs.Code.ByteRuns
import ReactiveTemplate.Proofs.Code.Extents

/-!
# Character boundaries

Every token starts and ends between two characters of the string, also if the lexer goes through its
bytes one by one.  Behind a backslash it may stand inside a character for a while, but it reads code
only in front of whole characters, and so it cuts words, arguments and segments out of the string
without dividing a character.
-/

namespace ReactiveTemplate
namespace Code

open Text

variable {text before ahead : List Char} {c : Char} {state : LexState} {listed : List Token} {size : Nat}
  {code : String}

/-! ## Tokens -/

/-- The places that tokens divide a text of the given size at, and its ends. -/
def cuts (size : Nat) (listed : List Token) : List Nat :=
  0 :: listed.flatMap (fun token => [token.start, token.stop]) ++ [size]

theorem mem_cuts {place : Nat} :
    place ∈ cuts size listed ↔
      place = 0 ∨ (∃ token ∈ listed, place = token.start ∨ place = token.stop) ∨ place = size := by
  simp [cuts]

/-- Tokens that do not overlap divide a text into parts that are in order. -/
theorem cuts_ordered (bounds : ∀ token ∈ listed, token.start < token.stop ∧ token.stop ≤ size)
    (apart : listed.Pairwise fun first second => first.stop ≤ second.start) :
    (cuts size listed).Pairwise (· ≤ ·) := by
  have inner : (listed.flatMap fun token => [token.start, token.stop]).Pairwise (· ≤ ·) := by
    rw [List.pairwise_flatMap]
    refine ⟨fun token member => ?_, apart.imp_of_mem fun {first second} earlier later gap => ?_⟩
    · simpa using (bounds token member).1.le
    · have nonempty := (bounds first earlier).1
      have nonempty' := (bounds second later).1
      simp only [List.mem_cons, List.not_mem_nil, or_false]
      omega
  have below : ∀ place ∈ listed.flatMap (fun token => [token.start, token.stop]), place ≤ size := by
    intro place member
    obtain ⟨token, member, here⟩ := List.mem_flatMap.mp member
    have inside := bounds token member
    simp only [List.mem_cons, List.not_mem_nil, or_false] at here
    omega
  rw [cuts, List.cons_append, List.pairwise_cons]
  refine ⟨fun place _ => Nat.zero_le place, List.pairwise_append.mpr ⟨inner, ?_, ?_⟩⟩
  · exact List.pairwise_singleton _ _
  · simpa using below

/-- A token of the bytes of a string lies between two positions of the string. -/
theorem bounds_of_mem_tokens_bytes {token : Token} (member : token ∈ tokens (bytes code)) :
    token.start < token.stop ∧ token.stop ≤ code.utf8ByteSize ∧
      String.Pos.Raw.IsValid code ⟨token.start⟩ ∧ String.Pos.Raw.IsValid code ⟨token.stop⟩ := by
  have inside := bounds_of_mem_tokensFrom member
  rw [Nat.zero_add, bytes_eq_encode, length_encode, byteSize_toList] at inside
  rw [tokens_bytes] at member
  obtain ⟨original, listed, rfl⟩ := List.mem_map.mp member
  have bounds := bounds_of_mem_tokensFrom listed
  rw [Nat.zero_add] at bounds
  exact ⟨inside.1, inside.2, isValid_byteOffset (by omega), isValid_byteOffset bounds.2⟩

/-- A string can be divided at its tokens. -/
theorem sliceable_cuts (code : String) :
    (cuts code.utf8ByteSize (tokens (bytes code))).Pairwise (Sliceable code) := by
  have valid {place : Nat} (member : place ∈ cuts code.utf8ByteSize (tokens (bytes code))) :
      String.Pos.Raw.IsValid code ⟨place⟩ := by
    rcases mem_cuts.mp member with rfl | ⟨token, listed, rfl | rfl⟩ | rfl
    · exact String.Pos.Raw.isValid_zero
    · exact (bounds_of_mem_tokens_bytes listed).2.2.1
    · exact (bounds_of_mem_tokens_bytes listed).2.2.2
    · exact String.Pos.Raw.isValid_rawEndPos
  have ordered : (cuts code.utf8ByteSize (tokens (bytes code))).Pairwise (· ≤ ·) := by
    refine cuts_ordered (fun token listed => ?_) (tokensFrom_apart {} 0 (bytes code))
    obtain ⟨nonempty, inside, -⟩ := bounds_of_mem_tokens_bytes listed
    exact ⟨nonempty, inside⟩
  exact ordered.imp_of_mem fun first last le => ⟨le, valid first, valid last⟩

/-! ## Brackets -/

theorem toNat_of_isOpening (opens : isOpening c = true) : c.toNat < 0x80 := by
  simp only [isOpening, Bool.or_eq_true, beq_iff_eq] at opens
  rcases opens with (rfl | rfl) | rfl <;> decide

/-- Brackets match in the bytes of a text where they match in the text. -/
theorem matching?_encode (opens : isOpening c = true) (front rest : List Char) :
    matching? (encode (front ++ c :: rest)) (byteSize front) =
      (matching? (front ++ c :: rest) front.length).map (byteOffset (front ++ c :: rest)) := by
  have ascii := toNat_of_isOpening opens
  have closing := closingFrom_encode rest proper_afterOpening
  rw [LexState.inBytes_of_fresh rfl] at closing
  rw [encode_append, ← length_encode, matching?_append_length, matching?_append_length,
    encode_cons_of_ascii ascii, matching?, matching?, List.drop_zero, List.drop_zero]
  dsimp only
  rw [if_pos opens, if_pos opens, closing]
  cases closingFrom .afterOpening rest with
  | none => rfl
  | some length =>
      simp only [Option.map_some, Nat.zero_add, byteOffset_append, length_encode]
      rw [Nat.add_comm 1 length, byteOffset_cons, utf8Size_of_ascii ascii]

/-- A pair of brackets stands in the text. -/
theorem exists_of_matching? {opening closing : Nat} (found : matching? text opening = some closing) :
    ∃ front bracket rest length, text = front ++ bracket :: rest ∧ front.length = opening ∧
      isOpening bracket = true ∧ closing = opening + 1 + length ∧ length < rest.length := by
  rw [matching?] at found
  split at found
  · rename_i bracket rest behind
    split_ifs at found with opens
    obtain ⟨length, inner, rfl⟩ := Option.map_eq_some_iff.mp found
    obtain ⟨-, _, there, -⟩ := closingFrom_place inner
    refine ⟨text.take opening, bracket, rest, length, ?_, ?_, opens, rfl,
      (List.getElem?_eq_some_iff.mp there).1⟩
    · rw [← behind, List.take_append_drop]
    · have nonempty := congrArg List.length behind
      rw [List.length_drop, List.length_cons] at nonempty
      rw [List.length_take]
      omega
  · cases found

/-- What a pair of brackets contains can be cut out of the string. -/
theorem sliceable_of_matching? {opening closing : Nat}
    (found : matching? (bytes code) opening = some closing) :
    Sliceable code (opening + 1) closing := by
  rw [bytes_eq_encode] at found
  obtain ⟨before, bracket, ahead, -, whole, rfl, opens, -⟩ := exists_of_matching? found
  have ascii := toNat_of_isOpening opens
  obtain ⟨front, rest, split, rfl, -⟩ := exists_split_of_encode ascii whole
  rw [split, length_encode, matching?_encode opens, ← split] at found
  obtain ⟨last, inner, rfl⟩ := Option.map_eq_some_iff.mp found
  obtain ⟨_, _, rest', length, whole', same, -, rfl, short⟩ := exists_of_matching? inner
  have inside : front.length + 1 + length ≤ code.toList.length := by
    rw [whole', List.length_append, List.length_cons, same]
    omega
  have first : byteOffset code.toList (front.length + 1) = (encode front).length + 1 := by
    rw [split, byteOffset_append, byteOffset_cons, byteOffset_zero, utf8Size_of_ascii ascii,
      length_encode]
  rw [← first]
  exact sliceable_byteOffset (Nat.le_add_right _ _) inside

/-! ## Words -/

/-- Where the lexer reads code, it stands in front of a character, and so does what is behind the
word that starts there. -/
def ReadsWords (code : String) (state : LexState) (ahead : List Char) : Prop :=
  state.Settled →
    Sliceable code (code.utf8ByteSize - ahead.length)
      (code.utf8ByteSize - (ahead.dropWhile isWordPart).length)

theorem dropWhile_encode (text : List Char) :
    (encode text).dropWhile isWordPart = encode (text.dropWhile isWordPart) := by
  have whole := congrArg encode (List.takeWhile_append_dropWhile (p := isWordPart) (l := text))
  rw [encode_append, ← takeWhile_encode_of_beyond isWordPart_of_beyond] at whole
  conv at whole => rhs; rw [← List.takeWhile_append_dropWhile (p := isWordPart) (l := encode text)]
  exact (List.append_cancel_left whole).symm

theorem LexState.Proper.readsWords (proper : state.Proper) (suffix : text <:+ code.toList) :
    LexState.Always (ReadsWords code) (state.inBytes text) (encode text) := by
  refine proper.always_settled fun rest shorter => ?_
  obtain ⟨front, split⟩ := shorter.trans suffix
  have parts := List.takeWhile_append_dropWhile (p := isWordPart) (l := rest)
  have word := sliceable_of_append (split.symm.trans (congrArg (front ++ ·) parts.symm))
  have size := byteSize_toList code
  have length := congrArg byteSize parts
  rw [← split, byteSize_append] at size
  rw [byteSize_append] at length
  have start : code.utf8ByteSize - byteSize rest = byteSize front := by omega
  have stop : code.utf8ByteSize - byteSize (rest.dropWhile isWordPart) =
      byteSize front + byteSize (rest.takeWhile isWordPart) := by omega
  rwa [dropWhile_encode, length_encode, length_encode, start, stop]

/-- In the bytes of a string, words are read as a whole, also in the code that a bracket opens. -/
theorem readsWords_bytes (code : String) : LexState.Always (ReadsWords code) {} (bytes code) := by
  have run : LexState.Always (ReadsWords code) (LexState.inBytes {} code.toList) _ :=
    LexState.Proper.readsWords (.of_code rfl) List.suffix_rfl
  rwa [LexState.inBytes_of_fresh rfl, ← bytes_eq_encode] at run

theorem readsWords_afterOpening (opens : isOpening c = true)
    (split : bytes code = before ++ c :: ahead) :
    LexState.Always (ReadsWords code) .afterOpening ahead := by
  rw [bytes_eq_encode] at split
  obtain ⟨front, rest, whole, -, rfl⟩ := exists_split_of_encode (toNat_of_isOpening opens) split
  have suffix : rest <:+ code.toList := ⟨front ++ [c], by rw [whole]; simp⟩
  have run := proper_afterOpening.readsWords suffix
  rwa [LexState.inBytes_of_fresh rfl] at run

/-- A tag can be cut out of the string with all that follows it, and so can its name. -/
theorem sliceable_of_tag (split : bytes code = before ++ '<' :: ahead) :
    Sliceable code before.length code.utf8ByteSize ∧
      Sliceable code (before.length + 1)
        (before.length + 1 + (ahead.takeWhile isTagNamePart).length) := by
  rw [bytes_eq_encode] at split
  obtain ⟨front, rest, whole, rfl, rfl⟩ := exists_split_of_encode (by decide) split
  have markup : code.toList = front ++ ('<' :: rest ++ []) := by rw [whole, List.append_nil]
  have name : code.toList = (front ++ ['<']) ++
      (rest.takeWhile isTagNamePart ++ rest.dropWhile isTagNamePart) := by
    rw [List.takeWhile_append_dropWhile, whole, List.append_assoc, List.singleton_append]
  have tag := sliceable_of_append markup
  have named := sliceable_of_append name
  rw [← byteSize_append, ← whole, byteSize_toList] at tag
  rw [byteSize_append, ← byteOffset_length_of_isPrefix (List.takeWhile_prefix isTagNamePart),
    byteOffset_takeWhile isTagNamePart_of_beyond] at named
  rw [length_encode]
  exact ⟨tag, named⟩

/-- The tokens of a string can be cut out of it, though a backslash passes over one byte.  They are
found in the bytes where they are found in the text, they have characters, do not overlap and lie
between positions of the string.  So any part between ends of tokens is in range and divides no
character, also if the string is itself a part of a longer one.  The same holds of what a pair of
brackets contains, of the words that are read anywhere in code, and of tags and their names. -/
theorem tokens_sliceable (front code back : String) :
    tokens (bytes code) = (tokens code.toList).map (Token.inBytes code.toList) ∧
    (∀ token ∈ tokens (bytes code), token.start < token.stop ∧ token.stop ≤ code.utf8ByteSize ∧
      String.Pos.Raw.IsValid code ⟨token.start⟩ ∧ String.Pos.Raw.IsValid code ⟨token.stop⟩) ∧
    (tokens (bytes code)).Pairwise (fun first second => first.stop ≤ second.start) ∧
    (cuts code.utf8ByteSize (tokens (bytes code))).Pairwise (fun start stop =>
      Sliceable (front ++ code ++ back) (front.utf8ByteSize + start) (front.utf8ByteSize + stop)) ∧
    (∀ opening closing, matching? (bytes code) opening = some closing →
      Sliceable code (opening + 1) closing) ∧
    LexState.Always (ReadsWords code) {} (bytes code) ∧
    ∀ before c ahead, bytes code = before ++ c :: ahead →
      (isOpening c = true → LexState.Always (ReadsWords code) .afterOpening ahead) ∧
      (c = '<' → Sliceable code before.length code.utf8ByteSize ∧
        Sliceable code (before.length + 1)
          (before.length + 1 + (ahead.takeWhile isTagNamePart).length)) := by
  refine ⟨tokens_bytes code, fun _ => bounds_of_mem_tokens_bytes, tokensFrom_apart {} 0 _, ?_,
    fun _ _ => sliceable_of_matching?, readsWords_bytes code, fun before c ahead split => ⟨?_, ?_⟩⟩
  · exact (sliceable_cuts code).imp fun sliceable => sliceable.within front back
  · exact fun opens => readsWords_afterOpening opens split
  · rintro rfl
    exact sliceable_of_tag split

/-- Code with a letter of two bytes behind a backslash: in a regular expression, in a string and in a
template. -/
def escapedLetters : String := "/\\é/.test(a) && <b title=\x7bf(\"\\é\")\x7d>\x7b\x60\\é\x60\x7d</b>"

theorem tokens_sliceable_escaped :
    (tokens (bytes escapedLetters)).map (fun token => (token.kind, token.start, token.stop)) =
        [(.opening, 10, 11), (.closing, 12, 13), (.andAnd, 14, 16), (.markup, 17, 48)] ∧
      matching? (bytes escapedLetters) 28 = some 34 ∧ Sliceable escapedLetters 29 34 :=
  ⟨by decide +kernel, by decide +kernel,
    (tokens_sliceable "" escapedLetters "").2.2.2.2.1 28 34 (by decide +kernel)⟩

end Code
end ReactiveTemplate
