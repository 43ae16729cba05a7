import ReactiveTemplate.Proofs.Code.Brackets
import ReactiveTemplate.Proofs.Code.Derivation
import ReactiveTemplate.Proofs.Text.Offset

/-!
# Where segments end

Tokens do not overlap, since the lexer passes over all of a token before it reads on.  So the
segments of a shape, which lie between tokens, are in order and apart from each other, and those of
a loop, a choice or a guard leave out at least one character of the code.
-/

namespace ReactiveTemplate
namespace Code

variable {state : LexState} {c : Char} {rest code : List Char} {e : Emission} {token : Token}
  {segment : Segment} {shape : Shape}

/-! ## Tokens -/

theorem length_of_close (fresh : state.skip = 0) (emitted : (state.close c).2 = some e) :
    e.length = (state.close c).1.skip + 1 := by
  rw [skip_close, fresh]
  unfold LexState.close at emitted
  split at emitted
  · cases emitted
  · cases emitted
    rfl

theorem length_of_assignable {kind : TokenKind} {text : List Char}
    (emitted : (state.assignable kind text).2 = some e) :
    e.length = (state.assignable kind text).1.skip + 1 := by
  unfold LexState.assignable at emitted ⊢
  split at emitted <;> cases emitted <;> rfl

/-- The lexer passes over all of a token. -/
theorem length_of_stepCode (fresh : state.skip = 0) {markupLength : Nat}
    (positive : state.opensMarkup c rest = true → 0 < markupLength)
    (emitted : (state.stepCode c rest markupLength).2 = some e) :
    e.length = (state.stepCode c rest markupLength).1.skip + 1 := by
  revert emitted
  fun_cases LexState.stepCode state c rest markupLength with
  | case8 => exact length_of_close fresh
  | case9 | case19 | case20 => exact length_of_assignable
  | case7 =>
      rintro ⟨⟩
      exact fresh ▸ rfl
  | case22 =>
      rintro ⟨⟩
      exact (Nat.sub_add_cancel (positive ‹_›)).symm
  | case10 | case11 | case13 | case14 | case17 | case18 | case21 =>
      rintro ⟨⟩
      rfl
  | _ => rintro ⟨⟩

theorem mode_of_stepCode {markupLength : Nat}
    (emitted : (state.stepCode c rest markupLength).2 = some e) :
    (state.stepCode c rest markupLength).1.mode = state.mode := by
  revert emitted
  fun_cases LexState.stepCode state c rest markupLength with
  | case8 =>
      unfold LexState.close
      split
      · rintro ⟨⟩
      · exact fun _ => rfl
  | case9 | case19 | case20 =>
      unfold LexState.assignable
      split <;> exact fun _ => rfl
  | case7 | case10 | case11 | case13 | case14 | case17 | case18 | case21 | case22 =>
      exact fun _ => rfl
  | _ => rintro ⟨⟩

theorem markupLength_pos (opens : state.opensMarkup c rest = true) :
    0 < state.markupLength c rest := by
  rw [LexState.markupLength, if_pos opens]
  exact Nat.succ_pos _

/-- The lexer passes over all of a token, and no further than the text goes. -/
theorem length_of_read (fresh : state.skip = 0) (emitted : (state.read c rest).2 = some e) :
    e.length = (state.read c rest).1.skip + 1 ∧ e.length ≤ rest.length + 1 := by
  have covered : e.length = (state.read c rest).1.skip + 1 ∧
      (state.read c rest).1.mode = .code := by
    revert emitted
    unfold LexState.read
    fun_cases LexState.step state c rest (state.markupLength c rest) with
    | case11 mode =>
        intro emitted
        exact ⟨length_of_stepCode fresh markupLength_pos emitted,
          (mode_of_stepCode emitted).trans mode⟩
    | _ => rintro ⟨⟩
  have inside := skip_read_le fresh covered.2
  omega

/-- A token has characters, and they are in the text. -/
theorem bounds_of_mem_tokensFrom {text : List Char} {index : Nat}
    (member : token ∈ tokensFrom state index text) :
    token.start < token.stop ∧ token.stop ≤ index + text.length := by
  induction text generalizing state index with
  | nil => cases member
  | cons c rest induction =>
      rw [List.length_cons]
      rcases Nat.eq_zero_or_pos state.skip with fresh | skipped
      · rw [tokensFrom_step fresh, List.mem_append, List.mem_map] at member
        rcases member with ⟨e, emitted, rfl⟩ | later
        · obtain ⟨positive, inside⟩ := length_of_read fresh (Option.mem_toList.mp emitted)
          simp only [Emission.token]
          omega
        · have bounds := induction later
          omega
      · rw [tokensFrom_skip skipped] at member
        have bounds := induction member
        omega

/-- Each token ends in front of the next one. -/
theorem tokensFrom_apart (state : LexState) (index : Nat) (text : List Char) :
    (tokensFrom state index text).Pairwise fun first second => first.stop ≤ second.start := by
  induction text generalizing state index with
  | nil => exact List.Pairwise.nil
  | cons c rest induction =>
      rcases Nat.eq_zero_or_pos state.skip with fresh | skipped
      · rw [tokensFrom_step fresh, List.pairwise_append]
        refine ⟨?_, induction _ _, ?_⟩
        · cases (state.read c rest).2 <;> simp
        · intro first member second later
          obtain ⟨e, emitted, rfl⟩ := List.mem_map.mp member
          obtain ⟨covered, -⟩ := length_of_read fresh (Option.mem_toList.mp emitted)
          have behind := (start_bounds later).1
          simp only [Emission.token]
          omega
      · rw [tokensFrom_skip skipped]
        exact induction _ _

theorem bounds_of_mem_topLevel (listed : token ∈ topLevel (tokens code)) :
    token.start < token.stop ∧ token.stop ≤ code.length := by
  have bounds := bounds_of_mem_tokensFrom (List.mem_of_mem_filter listed)
  rwa [Nat.zero_add] at bounds

/-! ## Segments -/

/-- Index after the last character of the segment. -/
def Segment.stop (segment : Segment) : Nat := segment.start + segment.text.length

/-- The segment lies between two indices and has no blank ends. -/
structure Segment.Within (start stop : Nat) (segment : Segment) : Prop where
  /-- It does not start before the first index. -/
  start_le : start ≤ segment.start
  /-- It does not end after the second one. -/
  stop_le : segment.stop ≤ stop
  /-- Its first and its last character are visible. -/
  trimmed : Text.Trimmed segment.text

namespace Segment

theorem Within.mono {start stop start' stop' : Nat} (within : segment.Within start stop)
    (first : start' ≤ start) (last : stop ≤ stop') : segment.Within start' stop' :=
  ⟨first.trans within.start_le, within.stop_le.trans last, within.trimmed⟩

theorem Within.shift {start stop : Nat} (within : segment.Within start stop) (count : Nat) :
    (segment.shift count).Within (start + count) (stop + count) := by
  refine ⟨Nat.add_le_add_right within.start_le count, ?_, within.trimmed⟩
  have ends := within.stop_le
  simp only [Segment.stop, Segment.shift] at ends ⊢
  omega

theorem between_within (code : List Char) {start stop : Nat} (ordered : start ≤ stop) :
    (between code start stop).Within start stop := by
  refine ⟨Nat.le_add_right _ _, ?_, Text.trim_trimmed _⟩
  have inside := (Text.slice_blankLead (Text.slice code start stop)).2
  have short := Text.length_slice_le code start stop
  simp only [Segment.stop, between]
  omega

end Segment

/-- What a block returns is inside of it. -/
theorem Yields.within {whole body : Segment} {start stop : Nat} (yields : Yields whole body)
    (within : whole.Within start stop) : body.Within start stop := by
  rcases yields with rfl | returned
  · exact within
  · obtain ⟨front, rest, split, first, -, trimmed⟩ := returnedSegment?_split returned
    have ends := within.stop_le
    have starts := within.start_le
    simp only [Segment.stop, split, List.length_append] at ends
    refine ⟨by omega, ?_, trimmed⟩
    rw [Segment.stop]
    omega

/-! ## Shapes -/

/-- The segments of the shape lie in the code one after the other, and only a piece of markup is all
of the code. -/
structure Shape.Laid (code : List Char) (shape : Shape) : Prop where
  /-- Every segment lies in the code and has no blank ends. -/
  within : ∀ segment ∈ shape.segments, segment.Within 0 code.length
  /-- Each segment ends in front of the next one. -/
  ordered : shape.segments.Pairwise fun first second => first.stop ≤ second.start
  /-- Something is left out of the code. -/
  shorter : shape.output ≠ .fragment →
    ∀ segment ∈ shape.segments, segment.text.length < code.length

theorem Shape.Laid.of_segments_eq_nil (plain : shape.segments = []) : shape.Laid code :=
  ⟨by simp [plain], by simp [plain], by simp [plain]⟩

/-- Segments lie in parts of the code, pair by pair. -/
def Fills (parts : List (Nat × Nat)) (segments : List Segment) : Prop :=
  List.Forall₂ (fun part segment => segment.Within part.1 part.2) parts segments

variable {parts : List (Nat × Nat)} {segments : List Segment}

theorem Fills.cons {start stop : Nat} (within : segment.Within start stop)
    (rest : Fills parts segments) : Fills ((start, stop) :: parts) (segment :: segments) :=
  List.Forall₂.cons within rest

theorem Fills.part (fills : Fills parts segments) (member : segment ∈ segments) :
    ∃ part ∈ parts, segment.Within part.1 part.2 := by
  induction fills with
  | nil => cases member
  | cons within _ induction =>
      rcases List.mem_cons.mp member with rfl | later
      · exact ⟨_, List.mem_cons_self, within⟩
      · obtain ⟨part, listed, within⟩ := induction later
        exact ⟨part, List.mem_cons_of_mem _ listed, within⟩

/-- Segments in parts that are in order are in order. -/
theorem Fills.ordered (fills : Fills parts segments)
    (ordered : parts.Pairwise fun first second => first.2 ≤ second.1) :
    segments.Pairwise fun first second => first.stop ≤ second.start := by
  induction fills with
  | nil => exact .nil
  | cons within rest induction =>
      rw [List.pairwise_cons] at ordered
      refine .cons ?_ (induction ordered.2)
      intro second later
      obtain ⟨part, listed, within'⟩ := Fills.part rest later
      exact within.stop_le.trans ((ordered.1 part listed).trans within'.start_le)

theorem Fills.laid (fills : Fills parts shape.segments)
    (inside : ∀ part ∈ parts, part.2 ≤ code.length)
    (ordered : parts.Pairwise fun first second => first.2 ≤ second.1)
    (shorter : shape.output ≠ .fragment → ∀ part ∈ parts, part.2 < part.1 + code.length) :
    shape.Laid code where
  within segment member := by
    obtain ⟨part, listed, within⟩ := fills.part member
    exact within.mono (Nat.zero_le _) (inside part listed)
  ordered := fills.ordered ordered
  shorter divided segment member := by
    obtain ⟨part, listed, within⟩ := fills.part member
    have less := shorter divided part listed
    have ends := within.stop_le
    have starts := within.start_le
    rw [Segment.stop] at ends
    omega

/-- The segments of a shape are what its tokens leave of the code, and tokens have characters. -/
theorem Derives.laid (derives : Derives code shape) : shape.Laid code := by
  cases derives with
  | primitive | unknown | crash => exact .of_segments_eq_nil rfl
  | @loop call arrow opening close _ _ _ _ called _ behind _ last function _ yields =>
      obtain ⟨sign, inside⟩ := bounds_of_mem_topLevel called
      have short := (bounds_of_mem_topLevel function).2.trans (Text.length_slice_le ..)
      have sign' := (bounds_of_mem_topLevel function).1
      have source := Segment.between_within code (Nat.zero_le call.start)
      have returned := yields.within (Segment.between_within code (by omega))
      have fills := Fills.cons source (.cons returned .nil)
      refine fills.laid ?_ ?_ fun _ => ?_ <;> simp <;> omega
  | @conditional before middle after question colon split kind =>
      have asked : question ∈ topLevel (tokens code) := by simp [split]
      have answered : colon ∈ topLevel (tokens code) := by simp [split]
      obtain ⟨sign, -⟩ := bounds_of_mem_topLevel asked
      obtain ⟨sign', inside⟩ := bounds_of_mem_topLevel answered
      have apart : question.stop ≤ colon.start := by
        have ordered : (topLevel (tokens code)).Pairwise _ := (tokensFrom_apart {} 0 code).filter _
        rw [split, List.pairwise_append, List.pairwise_cons] at ordered
        exact ordered.2.1.1 colon (List.mem_append_right _ List.mem_cons_self)
      have condition := Segment.between_within code (Nat.zero_le question.start)
      have consequent := Segment.between_within code apart
      have alternate := Segment.between_within code inside
      have fills := Fills.cons condition (.cons consequent (.cons alternate .nil))
      refine fills.laid ?_ ?_ fun _ => ?_ <;> simp <;> omega
  | @optional conjunction listed kind markup clean =>
      obtain ⟨sign, inside⟩ := bounds_of_mem_topLevel listed
      have condition := Segment.between_within code (Nat.zero_le conjunction.start)
      have branch := Segment.between_within code inside
      have fills := Fills.cons condition (.cons branch .nil)
      refine fills.laid ?_ ?_ fun _ => ?_ <;> simp <;> omega
  | fragment =>
      have whole := Segment.between_within code (Nat.zero_le code.length)
      exact (Fills.cons whole .nil).laid (by simp) (by simp) (fun divided => absurd rfl divided)

/-- The shape of an expression is that of a part of it. -/
theorem Shape.Laid.shift {part : List Char} {count : Nat} (laid : shape.Laid part)
    (inside : part.length + count ≤ code.length) : (shape.shift count).Laid code := by
  refine ⟨?_, ?_, ?_⟩
  · rw [Shape.segments_shift, List.forall_mem_map]
    intro segment member
    exact ((laid.within segment member).shift count).mono (Nat.zero_le _) inside
  · rw [Shape.segments_shift, List.pairwise_map]
    refine laid.ordered.imp ?_
    intro first second apart
    simp only [Segment.stop, Segment.shift] at apart ⊢
    omega
  · rw [Shape.segments_shift, Shape.output_shift, List.forall_mem_map]
    intro divided segment member
    exact (laid.shorter divided segment member).trans_le (by omega)

theorem analyze_laid (code : List Char) : (analyze code).Laid code := by
  rw [analyze]
  dsimp only
  split
  · exact .of_segments_eq_nil rfl
  · rename_i ordered
    have length := length_unwrapped code
    have bounds := (unwrap_bare code).2.1
    exact (analyzeBare_derives (unwrapped code)).laid.shift (by omega)

/-- A piece of markup alone is all that is left of the code without parentheses, and it starts with
an angle bracket. -/
theorem text_of_fragment {markup : Segment} (fragment : analyze code = .fragment markup) :
    markup.text = unwrapped code ∧ (unwrapped code).head? = some '<' := by
  have trimmed := (unwrap_bare code).1
  have derives := analyzeBare_derives (unwrapped code)
  rw [analyze_eq_shift] at fragment
  generalize analyzeBare (unwrapped code) = shape at derives fragment
  cases derives with
  | @fragment element alone kind first last =>
      cases fragment
      refine ⟨?_, ?_⟩
      · change Text.trim (Text.slice (unwrapped code) 0 (unwrapped code).length) = _
        rw [Text.slice, List.take_length, List.drop_zero, Text.trim, ← Text.drop_blankLead,
          trimmed.blankLead, List.drop_zero, trimmed.trimEnd]
      · have member : element ∈ tokens (unwrapped code) :=
          List.mem_of_mem_filter (alone ▸ List.mem_singleton_self element)
        rw [List.head?_eq_getElem?, ← first]
        exact angle_of_token member kind
  | _ => cases fragment

/-- Every segment of an expression is a part of its text, between two positions of the string,
without blank ends.  The segments are in order and do not overlap, and only a piece of markup can be
all of the expression. -/
theorem analyze_extents (code : String) :
    (∀ segment ∈ (analyze code.toList).segments,
      Text.Trimmed segment.text ∧ ∃ first last : code.Pos,
        first.offset.byteIdx = Text.byteOffset code.toList segment.start ∧
        last.offset.byteIdx =
          Text.byteOffset code.toList segment.start + Text.byteSize segment.text ∧
        code.extract first last = String.ofList segment.text) ∧
    (analyze code.toList).segments.Pairwise (fun first second =>
      Text.byteOffset code.toList first.start + Text.byteSize first.text ≤
        Text.byteOffset code.toList second.start) ∧
    ((analyze code.toList).output = .fragment ∨
      ∀ segment ∈ (analyze code.toList).segments,
        Text.byteSize segment.text < code.utf8ByteSize) := by
  have laid := analyze_laid code.toList
  have placed := analyze_placed code.toList
  have starts {segment : Segment} (member : segment ∈ (analyze code.toList).segments) :
      segment.start ≤ code.toList.length :=
    (Nat.le_add_right _ _).trans (laid.within segment member).stop_le
  refine ⟨fun segment member => ⟨(laid.within segment member).trimmed,
    Text.exists_extract (placed segment member) (starts member)⟩, ?_, ?_⟩
  · refine laid.ordered.imp_of_mem ?_
    intro first second member member' apart
    rw [← Text.byteOffset_add_length (placed first member) (starts member)]
    exact Text.byteOffset_le_byteOffset apart (starts member')
  · by_cases whole : (analyze code.toList).output = .fragment
    · exact .inl whole
    · refine .inr fun segment member => ?_
      have shorter := Text.byteSize_lt_of_isInfix (placed segment member).inside
        (laid.shorter whole segment member)
      rwa [← Text.utf8ByteSize_ofList code.toList, String.ofList_toList] at shorter

end Code
end ReactiveTemplate
