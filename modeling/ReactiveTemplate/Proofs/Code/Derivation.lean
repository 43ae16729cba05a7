import ReactiveTemplate.Proofs.Code.Interpolation
import ReactiveTemplate.Proofs.Code.Segments

/-!
# How shapes are found

The shape of code is found in its top-level tokens: a loop in a call that ends the code, a choice in
a question mark and its colon, a guard in a conjunction.  `Derives` says for each shape what it is
found in, and the shape of an expression is derived from what is left without parentheses around it.
There is no shape if the lexer crashes in the code or in a part of it that is looked at.
-/

namespace ReactiveTemplate
namespace Code

variable {code : List Char} {shape : Shape} {found : List Token}

/-! ## Whether code contains markup -/

theorem containsMarkup_of_findsMarkup? {text : List Char} {answer : Bool}
    (found : findsMarkup? text = some answer) : containsMarkup text = answer := by
  unfold findsMarkup? at found
  split_ifs at found with markup crashed
  · exact markup.trans (Option.some_inj.mp found)
  · exact (Bool.eq_false_iff.mpr markup).trans (Option.some_inj.mp found)

theorem crashes_of_findsMarkup? {text : List Char} (found : findsMarkup? text = none) :
    crashes text = true := by
  unfold findsMarkup? at found
  split_ifs at found with markup crashed
  exact crashed

theorem crashes_of_anyMarkup? {branches : List Segment} (found : anyMarkup? branches = none) :
    ∃ branch ∈ branches, crashes branch.text = true := by
  fun_induction anyMarkup? branches with
  | case1 => cases found
  | case2 branch rest clean induction =>
      obtain ⟨other, member, crashed⟩ := induction found
      exact ⟨other, List.mem_cons_of_mem _ member, crashed⟩
  | case3 branch rest other =>
      exact ⟨branch, List.mem_cons_self, crashes_of_findsMarkup? found⟩

theorem scan?_eq_some {text : List Char} (scanned : scan? text = some found) :
    found = tokens text := by
  unfold scan? at scanned
  split_ifs at scanned
  exact (Option.some_inj.mp scanned).symm

theorem crashes_of_scan? {text : List Char} (scanned : scan? text = none) :
    crashes text = true := by
  unfold scan? at scanned
  split_ifs at scanned
  assumption

/-! ## The shapes of code -/

/-- What the shape of code without parentheses around it is found in. -/
inductive Derives (code : List Char) : Shape → Prop where
  /-- Code without markup has a plain value. -/
  | primitive (clean : containsMarkup code = false) : Derives code .primitive
  /-- A call up to the end of the code applies a function to each item. -/
  | loop {call arrow : Token} {opening close : Nat} {params : List Char} {item : String}
      {parameters : Script.LoopParameters} {body : Segment}
      (called : call ∈ topLevel (tokens code)) (kind : call.kind = .mapCall)
      (behind : call.stop ≤ opening) (matched : matching? code opening = some close)
      (last : close + 1 = code.length)
      (function : arrow ∈ topLevel (tokens (Text.slice code (opening + 1) close)))
      (read : Script.loopParameters? params = some parameters)
      (yields : Yields (Segment.between code (opening + 1 + arrow.stop) close) body)
      (markup : containsMarkup body.text = true) :
      Derives code (.loop (Segment.between code 0 call.start)
        ⟨item, parameters.texts[1]?, parameters.names⟩ body)
  /-- A question mark and a colon behind it divide the code. -/
  | conditional {before middle after : List Token} {question colon : Token}
      (split : topLevel (tokens code) = before ++ question :: (middle ++ colon :: after))
      (kind : question.kind = .question) :
      Derives code (.conditional (Segment.between code 0 question.start)
        (Segment.between code question.stop colon.start)
        (Segment.between code colon.stop code.length))
  /-- A conjunction has markup behind it and none in front. -/
  | optional {conjunction : Token} (listed : conjunction ∈ topLevel (tokens code))
      (kind : conjunction.kind = .andAnd)
      (markup : containsMarkup (Segment.between code conjunction.stop code.length).text = true)
      (clean : containsMarkup (Segment.between code 0 conjunction.start).text = false) :
      Derives code (.optional (Segment.between code 0 conjunction.start)
        (Segment.between code conjunction.stop code.length))
  /-- An element is all of the code. -/
  | fragment {element : Token} (alone : topLevel (tokens code) = [element])
      (kind : element.kind = .markup) (first : element.start = 0)
      (last : element.stop = code.length) :
      Derives code (.fragment (Segment.between code 0 code.length))
  /-- Nothing that can be enumerated is found. -/
  | unknown : Derives code .unknown
  /-- The lexer crashes in a part of the code. -/
  | crash {part : List Char} (inside : part <:+: code) (crashed : crashes part = true) :
      Derives code .crash

theorem readFunction?_eq_some {arguments : List Char} {top : List Token} {start stop : Nat}
    {source : Segment} (made : readFunction? arguments top start stop code source = some shape) :
    ∃ arrow ∈ top, ∃ body, Yields (Segment.between code (start + arrow.stop) stop) body ∧
      ((∃ params parameters item, Script.loopParameters? params = some parameters ∧
          containsMarkup body.text = true ∧
          shape = .loop source ⟨item, parameters.texts[1]?, parameters.names⟩ body) ∨
        crashes body.text = true ∧ shape = .crash) := by
  simp only [readFunction?, bind, Option.bind_eq_some_iff] at made
  obtain ⟨arrow, first, made⟩ := made
  split at made
  · cases made
  simp only [Option.bind_eq_some_iff] at made
  obtain ⟨parameters, read, item, -, body, returned, made⟩ := made
  refine ⟨arrow, List.mem_of_find?_eq_some first, body, ?_, ?_⟩
  · unfold loopBody? at returned
    split at returned
    · exact .inr returned
    · exact .inl (Option.some_inj.mp returned).symm
  · split at made
    · rename_i markup
      cases made
      exact .inl ⟨_, parameters, item, read, containsMarkup_of_findsMarkup? markup, rfl⟩
    · cases made
    · rename_i crashed
      cases made
      exact .inr ⟨crashes_of_findsMarkup? crashed, rfl⟩

theorem loopFunction?_derives {call : Token} {opening close : Nat}
    (called : call ∈ topLevel (tokens code)) (kind : call.kind = .mapCall)
    (behind : call.stop ≤ opening) (matched : matching? code opening = some close)
    (last : close + 1 = code.length)
    (made : loopFunction? code (opening + 1) close (Segment.between code 0 call.start) = some shape) :
    Derives code shape := by
  unfold loopFunction? at made
  dsimp only at made
  split at made
  · rename_i crashed
    cases made
    exact .crash (slice_isInfix _ _ _) (crashes_of_scan? crashed)
  · rename_i all scanned
    obtain rfl := scan?_eq_some scanned
    obtain ⟨arrow, function, body, yields, ⟨params, parameters, item, read, markup, rfl⟩ |
      ⟨crashed, rfl⟩⟩ := readFunction?_eq_some made
    · exact .loop called kind behind matched last function read yields markup
    · exact .crash (yields.placed (Segment.between_placed _ _ _)).inside crashed

theorem findLoop_derives {before : List Token} (listed : found ⊆ topLevel (tokens code))
    (made : findLoop code before found = some shape) : Derives code shape := by
  fun_induction findLoop code before found with
  | case1 | case2 | case3 | case4 => cases made
  | case5 before call rest kind tight distance found opening close matched last made' function =>
      cases made
      exact loopFunction?_derives (listed List.mem_cons_self) kind (Nat.le_add_right ..) matched last
        function
  | case6 | case7 | case8 =>
      rename_i induction
      exact induction (List.subset_of_cons_subset listed) made

/-- The colon of a question mark is one of the tokens behind it. -/
theorem mem_of_pairedColon {nesting : Nat} {colon : Token}
    (paired : pairedColon nesting found = some colon) : colon ∈ found := by
  fun_induction pairedColon nesting found with
  | case1 => cases paired
  | case3 =>
      cases paired
      exact List.mem_cons_self
  | _ =>
      rename_i induction
      exact List.mem_cons_of_mem _ (induction paired)

theorem splitChoice?_derives {condition consequent alternate : Segment}
    (made : splitChoice? code (topLevel (tokens code)) = some (condition, consequent, alternate)) :
    Derives code (.conditional condition consequent alternate) ∧ consequent.Placed code ∧
      alternate.Placed code := by
  simp only [splitChoice?, bind] at made
  split at made
  · cases made
  · rename_i question after rest
    split at made
    · cases made
    · rw [Option.bind_eq_some_iff] at made
      obtain ⟨colon, paired, made⟩ := made
      cases made
      obtain ⟨middle, after, rfl⟩ := List.append_of_mem (mem_of_pairedColon paired)
      rw [Text.drop_length_takeWhile] at rest
      have split := List.takeWhile_append_dropWhile (p := (·.kind != TokenKind.question))
        (l := topLevel (tokens code))
      have first := List.head?_dropWhile_not (·.kind != TokenKind.question)
        (topLevel (tokens code))
      rw [rest] at split first
      exact ⟨.conditional split.symm (by simpa using first), Segment.between_placed _ _ _,
        Segment.between_placed _ _ _⟩

theorem findChoice_derives (made : findChoice code (topLevel (tokens code)) = some shape) :
    Derives code shape := by
  simp only [findChoice, bind, Option.bind_eq_some_iff] at made
  obtain ⟨⟨condition, consequent, alternate⟩, divided, made⟩ := made
  obtain ⟨derives, placed, placed'⟩ := splitChoice?_derives divided
  dsimp only at made
  split at made
  · cases made
    exact derives
  · cases made
  · rename_i found
    cases made
    obtain ⟨branch, member, crashed⟩ := crashes_of_anyMarkup? found
    simp only [List.mem_cons, List.not_mem_nil, or_false] at member
    rcases member with rfl | rfl
    · exact .crash placed.inside crashed
    · exact .crash placed'.inside crashed

theorem findGuard_derives (made : findGuard code (topLevel (tokens code)) = some shape) :
    Derives code shape := by
  simp only [findGuard, bind] at made
  split at made
  · cases made
  · rw [Option.bind_eq_some_iff] at made
    obtain ⟨conjunction, last, made⟩ := made
    have crash {start stop : Nat}
        (found : findsMarkup? (Segment.between code start stop).text = none) : Derives code .crash :=
      .crash (Segment.between_placed code start stop).inside (crashes_of_findsMarkup? found)
    split at made
    · rename_i markup
      split at made
      · rename_i clean
        cases made
        exact .optional (List.mem_reverse.mp (List.mem_of_find?_eq_some last))
          (by simpa using List.find?_some last) (containsMarkup_of_findsMarkup? markup)
          (containsMarkup_of_findsMarkup? clean)
      · cases made
      · rename_i crashed
        cases made
        exact crash crashed
    · cases made
    · rename_i crashed
      cases made
      exact crash crashed

theorem shapeOfElement_derives (code : List Char) :
    Derives code (shapeOfElement code (topLevel (tokens code))) := by
  unfold shapeOfElement
  split
  · rename_i element alone
    split
    · rename_i bounds
      exact .fragment alone bounds.1 bounds.2.1 bounds.2.2
    · exact .unknown
  · exact .unknown

theorem shapeOfMarkup_derives (code : List Char) :
    Derives code (shapeOfMarkup code (topLevel (tokens code))) := by
  unfold shapeOfMarkup
  cases loop : findLoop code [] (topLevel (tokens code)) with
  | some shape => exact findLoop_derives (List.Subset.refl _) loop
  | none =>
      cases choice : findChoice code (topLevel (tokens code)) with
      | some shape => exact findChoice_derives choice
      | none =>
          cases guard : findGuard code (topLevel (tokens code)) with
          | some shape => exact findGuard_derives guard
          | none => exact shapeOfElement_derives code

theorem analyzeBare_derives (code : List Char) : Derives code (analyzeBare code) := by
  unfold analyzeBare
  split
  · rename_i crashed
    exact .crash List.infix_rfl (crashes_of_scan? crashed)
  · rename_i all scanned
    obtain rfl := scan?_eq_some scanned
    split
    · rename_i clean
      exact .primitive (by simpa [containsMarkup] using clean)
    · exact shapeOfMarkup_derives code

/-! ## Places -/

theorem Derives.placed (derives : Derives code shape) : shape.Placed code := by
  cases derives with
  | primitive | unknown | crash =>
      intro segment member
      cases member
  | loop _ _ _ _ _ _ _ yields =>
      simp [Shape.Placed, Shape.segments, Segment.between_placed,
        yields.placed (Segment.between_placed _ _ _)]
  | conditional | optional | fragment =>
      simp [Shape.Placed, Shape.segments, Segment.between_placed]

/-- Every segment of an expression stands in its code. -/
theorem analyze_placed (code : List Char) : (analyze code).Placed code := by
  rw [analyze_eq_shift]
  exact (analyzeBare_derives _).placed.shift

/-! ## Crashes -/

/-- Code has no shape if the lexer crashes in what is left of it without parentheses. -/
theorem analyze_of_crashes (crashed : crashes (unwrapped code) = true) : analyze code = .crash := by
  rw [analyze_eq_shift, analyzeBare, scan?, if_pos crashed]
  rfl

/-- Where code has no shape, the lexer crashes in a part of it. -/
theorem crashes_of_analyze (none : analyze code = .crash) :
    ∃ part, part <:+: code ∧ crashes part = true := by
  rw [analyze_eq_shift] at none
  have derives := analyzeBare_derives (unwrapped code)
  generalize analyzeBare (unwrapped code) = shape at derives none
  cases derives with
  | crash inside crashed => exact ⟨_, inside.trans (slice_isInfix _ _ _), crashed⟩
  | _ => cases none

/-- Code in which no interpolation starts has a shape. -/
theorem analyze_ne_crash (plain : ¬ ['$', '\x7b'] <:+: code) : analyze code ≠ .crash := by
  intro none
  obtain ⟨part, inside, crashed⟩ := crashes_of_analyze none
  exact plain ((interpolation_of_crashes crashed).trans inside)

end Code
end ReactiveTemplate
