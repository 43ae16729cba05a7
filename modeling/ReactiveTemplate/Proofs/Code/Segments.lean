import ReactiveTemplate.Proofs.Code.Unwrapping

/-!
# Where segments stand

The shape of an expression is made of segments of its code, and each segment is where it says: its
text stands in the code at its start, whatever blank characters, parentheses, parameters or words
have been left out around it.
-/

namespace ReactiveTemplate

namespace Text

theorem slice_isPrefix (text : List Char) (start stop : Nat) :
    slice text start stop <+: text.drop start :=
  List.IsPrefix.drop (List.take_prefix stop text) start

theorem trim_isPrefix (text : List Char) : trim text <+: text.drop (blankLead text) := by
  rw [drop_blankLead]
  exact isPrefix_trimEnd _

/-- Nothing is left out at the start of a text that starts like a text with a visible start. -/
theorem trimStart_of_isPrefix {text whole : List Char} (starts : text <+: trimStart whole) :
    trimStart text = text := by
  cases text with
  | nil => rfl
  | cons c rest =>
      have visible : isBlank c = false :=
        visible_of_head?_trimStart (head?_of_starts starts rfl)
      rw [trimStart, List.dropWhile_cons_of_neg (by simp [visible])]

end Text

namespace Code

variable {code : List Char} {segment body : Segment}

/-- The text of the segment stands in the code at its start. -/
def Segment.Placed (code : List Char) (segment : Segment) : Prop :=
  segment.text <+: code.drop segment.start

theorem Segment.Placed.inside (placed : segment.Placed code) : segment.text <:+: code :=
  List.IsInfix.trans (List.IsPrefix.isInfix placed) (List.drop_suffix segment.start code).isInfix

theorem slice_isInfix (code : List Char) (start stop : Nat) : Text.slice code start stop <:+: code :=
  (Text.slice_isPrefix code start stop).isInfix.trans (List.drop_suffix start code).isInfix

theorem Segment.between_placed (code : List Char) (start stop : Nat) :
    (between code start stop).Placed code := by
  have whole := Text.slice_isPrefix code start stop
  have visible := Text.trim_isPrefix (Text.slice code start stop)
  rw [Segment.Placed, between, ← List.drop_drop]
  exact visible.trans (whole.drop _)

theorem Segment.Placed.shift {start stop : Nat}
    (placed : segment.Placed (Text.slice code start stop)) :
    (segment.shift start).Placed code := by
  rw [Segment.Placed, Segment.shift, Nat.add_comm, ← List.drop_drop]
  exact List.IsPrefix.trans placed ((Text.slice_isPrefix code start stop).drop segment.start)

/-- What starts behind the word and the white space of a block stands in the block. -/
theorem block_split {block inner behind value : List Char} (opening : block = '{' :: inner)
    (word : inner.drop (Text.blankLead inner) = "return".toList ++ behind)
    (starts : value <+: behind.drop (Text.blankLead behind)) :
    ∃ front rest, block = front ++ Text.trim value ++ rest ∧
      front.length = 1 + Text.blankLead inner + 6 + Text.blankLead behind := by
  rw [Text.drop_blankLead] at word starts
  obtain ⟨rest, last⟩ : Text.trim value <+: Text.trimStart behind := by
    rw [Text.trim, Text.trimStart_of_isPrefix starts]
    exact (Text.isPrefix_trimEnd value).trans starts
  refine ⟨'{' :: (inner.takeWhile Text.isBlank ++ ("return".toList ++
    behind.takeWhile Text.isBlank)), rest, ?_, ?_⟩
  · have visible : inner.takeWhile Text.isBlank ++ Text.trimStart inner = inner :=
      List.takeWhile_append_dropWhile
    have visible' : behind.takeWhile Text.isBlank ++ Text.trimStart behind = behind :=
      List.takeWhile_append_dropWhile
    calc block = '{' :: (inner.takeWhile Text.isBlank ++ Text.trimStart inner) := by
          rw [visible, opening]
      _ = '{' :: (inner.takeWhile Text.isBlank ++ ("return".toList ++
            (behind.takeWhile Text.isBlank ++ (Text.trim value ++ rest)))) := by
          rw [word, last, visible']
      _ = _ := by simp only [List.cons_append, List.append_assoc]
  · simp only [List.length_cons, List.length_append, Text.blankLead]
    change _ + (6 + _) + 1 = _
    omega

/-- What is in front of the closing brace and a semicolon. -/
theorem beforeBrace_isPrefix (value : List Char) :
    (if (Text.trimEnd value.dropLast).getLast? = some ';' then
        (Text.trimEnd value.dropLast).dropLast
      else Text.trimEnd value.dropLast) <+: value := by
  have cut : Text.trimEnd value.dropLast <+: value :=
    (Text.isPrefix_trimEnd _).trans (List.dropLast_prefix _)
  split
  · exact (List.dropLast_prefix _).trans cut
  · exact cut

/-- A block that returns is a brace, the word and white space, what is returned, and the rest. -/
theorem returnedSegment?_split (returned : returnedSegment? body = some segment) :
    ∃ front rest, body.text = front ++ segment.text ++ rest ∧
      segment.start = body.start + front.length ∧ 0 < front.length ∧ Text.Trimmed segment.text := by
  simp only [returnedSegment?, bind] at returned
  split at returned
  · rename_i inner opening
    rw [Option.bind_some] at returned
    split at returned
    · rename_i behind word
      rw [Option.bind_some] at returned
      split at returned
      · cases returned
      · split at returned
        · cases returned
          obtain ⟨front, rest, split, length⟩ :=
            block_split opening word (beforeBrace_isPrefix _)
          refine ⟨front, rest, split, ?_, by omega, Text.trim_trimmed _⟩
          dsimp only
          omega
        · cases returned
    · cases returned
  · cases returned

/-- What a block returns stands in the block. -/
theorem returnedSegment?_placed (placed : body.Placed code)
    (returned : returnedSegment? body = some segment) : segment.Placed code := by
  obtain ⟨front, rest, split, start, -⟩ := returnedSegment?_split returned
  have inside : segment.text <+: body.text.drop front.length := by
    rw [split, List.append_assoc, List.drop_left]
    exact List.prefix_append _ _
  rw [Segment.Placed, start, ← List.drop_drop]
  exact inside.trans (List.IsPrefix.drop placed _)

/-- The body is what follows the arrow, or what a block there returns. -/
def Yields (whole body : Segment) : Prop := body = whole ∨ returnedSegment? whole = some body

theorem Yields.placed {whole : Segment} (yields : Yields whole body) (placed : whole.Placed code) :
    body.Placed code := by
  rcases yields with rfl | returned
  · exact placed
  · exact returnedSegment?_placed placed returned

/-- All segments of the shape. -/
def Shape.segments : Shape → List Segment
  | .primitive | .unknown | .crash => []
  | .conditional condition consequent alternate => [condition, consequent, alternate]
  | .optional condition branch => [condition, branch]
  | .loop source _ body => [source, body]
  | .fragment markup => [markup]

/-- Every segment of the shape stands in the code. -/
def Shape.Placed (code : List Char) (shape : Shape) : Prop :=
  ∀ segment ∈ shape.segments, segment.Placed code

theorem Shape.segments_shift (shape : Shape) (count : Nat) :
    (shape.shift count).segments = shape.segments.map (·.shift count) := by
  cases shape <;> rfl

theorem Shape.Placed.shift {shape : Shape} {start stop : Nat}
    (placed : shape.Placed (Text.slice code start stop)) : (shape.shift start).Placed code := by
  rw [Shape.Placed, Shape.segments_shift, List.forall_mem_map]
  exact fun segment member => (placed segment member).shift

end Code
end ReactiveTemplate
