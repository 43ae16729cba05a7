import ReactiveTemplate.Proofs.Diagnostic
import ReactiveTemplate.Proofs.Source.Places
import ReactiveTemplate.Proofs.Template.Placeholders
import ReactiveTemplate.Proofs.Text.Offset
import ReactiveTemplate.Template.Draft

/-!
# Conservation of code

A source is read part by part.  A part is copied, leaves nothing behind, or another text is written
for it, and where code is taken out that text is a placeholder.  So the placeholders in the markup
are those of the code that was taken out, in order, each once; and the code stands in the source,
one after the other, at its locations.
-/

namespace ReactiveTemplate
namespace Template

/-- The name of the tag in which the next character stands, if any. -/
def Position.name : Position → List Char
  | .content => []
  | .tag here => here.name.toList
  | .quoted _ here => here.name.toList

namespace Draft

variable {draft next after result : Draft} {c : Char} {source rest : List Char}
  {html : List Char} {codes : List Captured} {start : Location}

/-! ## Reading one part -/

/-- What becomes of a draft with the character that starts a part. -/
inductive Reads (draft : Draft) (c : Char) (rest : List Char) : Draft → Prop where
  /-- The part is copied. -/
  | kept (more : Nat) (position : Position)
      (named : Unmarked draft.position.name → Unmarked position.name) :
      Reads draft c rest { draft.copy c more with position }
  /-- The part leaves nothing behind in the markup. -/
  | dropped (more : Nat) (scripts : List Script) (styles : List String) :
      Reads draft c rest { draft.passOver c more with scripts, styles }
  /-- Another text is written for the part. -/
  | replaced (text : List Char) (more : Nat) (position : Position) (visible : text ≠ [])
      (breaks : Unmarked draft.position.name → Unmarked (c :: rest.take more) →
        Breaks text ∧ Unmarked position.name) :
      Reads draft c rest { (draft.write text).passOver c more with position }
  /-- Code is taken out, and its placeholder is written. -/
  | captured (code : Captured) (text : List Char) (more : Nat)
      (numbers : Numbers text draft.captured.length) (written : text ≠ [])
      (stands : Stands (c :: rest.take more) draft.location code.code.toList code.location)
      (visible : code.code ≠ "") :
      Reads draft c rest
        ({ draft.passOver c more with captured := draft.captured ++ [code] }.write text)

/-- Code in braces is passed over; what is taken out stands there. -/
theorem capture_cases {number? : Option Nat}
    (taken : draft.capture rest = .ok (number?, after)) :
    ∃ more, (number? = none ∧ after = draft.passOver '{' more) ∨
      ∃ code, number? = some draft.captured.length ∧
        after = { draft.passOver '{' more with captured := draft.captured ++ [code] } ∧
        Stands ('{' :: rest.take more) draft.location code.code.toList code.location ∧
        code.code ≠ "" := by
  rw [capture] at taken
  split at taken
  · cases taken
  · rename_i length closing
    dsimp only at taken
    refine ⟨length + 1, ?_⟩
    split at taken
    · cases taken
      exact .inl ⟨rfl, rfl⟩
    · rename_i visible
      cases taken
      rw [Bool.or_eq_true, not_or, Bool.not_eq_true, List.isEmpty_eq_false_iff] at visible
      have inside : rest.take length <+: rest.take (length + 1) :=
        List.take_prefix_take_left (Nat.le_succ length)
      refine .inr ⟨_, rfl, rfl, ?_, ?_⟩
      · exact (((Stands.self ('{' :: rest.take (length + 1)) draft.location).tail).starts
          inside).trim.ofList
      · intro empty
        refine visible.1 ?_
        rw [← String.toList_ofList (l := Text.trim (rest.take length))]
        exact congrArg String.toList empty

/-! ## Texts that are written for tags -/

theorem unmarked_locationMark (location : Location) :
    ∃ text, (locationMark location).toList = ' ' :: (text ++ ['"']) ∧ Unmarked text := by
  have word : Unmarked "data-zen-loc=".toList := by decide +kernel
  refine ⟨"data-zen-loc=".toList ++ '"' ::
    (numeral location.line.toNat ++ ':' :: numeral location.column.toNat), ?_,
    word.append ((Unmarked.numeral _).append (.numeral _) (by decide)) (by decide)⟩
  have line : (toString location.line).toList = numeral location.line.toNat := rfl
  have column : (toString location.column).toList = numeral location.column.toNat := rfl
  simp [locationMark, locationAttribute, line, column]

/-- The start of an opening tag. -/
theorem breaks_openTag {name : String} (unmarked : Unmarked name.toList) (location : Location) :
    Breaks ((if Markup.isComponentTag name then
      "<" ++ usageTag ++ " " ++ nameAttribute ++ "=\"" ++ name ++ "\"" else "<" ++ name) ++
        locationMark location).toList := by
  obtain ⟨place, written, plain⟩ := unmarked_locationMark location
  rw [String.toList_append, written]
  split
  · have tag : Unmarked usageTag.toList := by decide +kernel
    have word : Unmarked (nameAttribute ++ "=").toList := by decide +kernel
    have value : Unmarked (name.toList ++ '"' :: ([] ++ ' ' :: place)) :=
      unmarked.append (Unmarked.nil.append plain (by decide)) (by decide)
    have inside := tag.append (c := ' ') (word.append (c := '"') value (by decide)) (by decide)
    have whole := Breaks.between '<' '"' inside (by decide) (by decide)
    simpa using whole
  · have inside := unmarked.append (c := ' ') plain (by decide)
    have whole := Breaks.between '<' '"' inside (by decide) (by decide)
    simpa using whole

/-- The end of a tag that closes itself. -/
theorem breaks_closing {name : List Char} (unmarked : Unmarked name) :
    Breaks ('>' :: '<' :: '/' :: (name ++ ['>'])) := by
  have slash := Unmarked.nil.append (c := '/') unmarked (by decide)
  have angle := Unmarked.nil.append (c := '<') slash (by decide)
  exact Breaks.between '>' '>' angle (by decide) (by decide)

theorem unmarked_markupTag {name : String} (unmarked : Unmarked name.toList) :
    Unmarked (markupTag name).toList := by
  rw [markupTag]
  split
  · decide +kernel
  · exact unmarked

/-! ## Each kind of part -/

theorem closeTag_reads (draft : Draft) (rest : List Char) :
    Reads draft '<' rest (draft.closeTag rest) := by
  rw [closeTag]
  split
  · have breaks : Breaks ("</" ++ usageTag ++ ">").toList :=
      ⟨by decide +kernel, ⟨'<', by decide, rfl⟩, '>', by decide, by decide +kernel⟩
    exact .replaced _ _ draft.position (by decide +kernel) fun named _ => ⟨breaks, named⟩
  · exact .kept _ draft.position id

theorem openTag_reads (draft : Draft) {name : String} (starts : name.toList <+: rest) :
    Reads draft '<' rest (draft.openTag name) := by
  rw [openTag]
  refine .replaced _ _ (.tag ⟨name, draft.location⟩) ?_ ?_
  · rw [String.toList_append, (unmarked_locationMark draft.location).choose_spec.1]
    simp
  · intro _ unmarked
    have named : Unmarked name.toList := by
      refine unmarked.part ((List.IsPrefix.isInfix ?_).trans (List.suffix_cons '<' _).isInfix)
      rw [← String.length_toList, ← List.prefix_iff_eq_take.mp starts]
    exact ⟨breaks_openTag named draft.location, named⟩

theorem block_reads {name lower : String} (read : draft.block name lower rest = .ok next) :
    Reads draft '<' rest next := by
  unfold block at read
  dsimp only at read
  generalize tagLength? none (rest.drop name.length) = tagLength? at read
  cases tagLength? with
  | none => cases read
  | some tagLength =>
      simp only [bind, Except.bind] at read
      split at read
      · cases read
        split
        · refine .replaced _ _ draft.position (by simp) fun named unmarked => ⟨?_, named⟩
          have copied : Unmarked (rest.take (name.length + tagLength - 1)) :=
            unmarked.part (((List.take_prefix_take_left (by omega)).isInfix).trans
              (List.suffix_cons '<' _).isInfix)
          have script : Unmarked "</script".toList := by decide +kernel
          have inside := copied.append (c := '>') script (by decide)
          have whole := Breaks.between '<' '>' inside (by decide) (by decide)
          simpa using whole
        · exact .dropped _ draft.scripts draft.styles
      · generalize Text.find? ("</" ++ lower).toList
          (((rest.drop name.length).drop (tagLength + 1)).map Char.toLower) = bodyLength? at read
        cases bodyLength? with
        | none => cases read
        | some bodyLength =>
            dsimp only at read
            split at read
            · cases read
              exact .kept _ draft.position id
            · split at read
              · cases read
                exact .dropped _ _ draft.styles
              · cases read
                exact .dropped _ draft.scripts _

theorem readContent_reads (read : draft.readContent c rest = .ok next) :
    Reads draft c rest next := by
  have copied (more : Nat) : Reads draft c rest (draft.copy c more) :=
    .kept more draft.position id
  unfold readContent at read
  split at read
  · rename_i brace
    subst brace
    obtain ⟨⟨number?, after⟩, taken, read⟩ := bind_eq_ok.mp read
    obtain ⟨more, ⟨rfl, rfl⟩ | ⟨code, rfl, rfl, stands, visible⟩⟩ := capture_cases taken
    · cases read
      exact .dropped more draft.scripts draft.styles
    · cases read
      exact .captured code _ more (elementPlaceholder_numbers _) (by simp [elementPlaceholder])
        stands visible
  split at read
  · exact Except.ok.inj read ▸ copied _
  · rename_i angle
    rw [ne_eq, Decidable.not_not] at angle
    subst angle
    split at read
    · exact Except.ok.inj read ▸ copied _
    · exact Except.ok.inj read ▸ copied _
    · exact Except.ok.inj read ▸ copied _
    · cases read
      exact closeTag_reads draft _
    · split at read
      · dsimp only at read
        split at read
        · exact block_reads read
        · cases read
          refine openTag_reads draft ?_
          rw [String.toList_ofList]
          exact List.takeWhile_prefix _
      · exact Except.ok.inj read ▸ copied _
    · exact Except.ok.inj read ▸ copied _

theorem readTag_reads {tag : OpenTag} (position : draft.position = .tag tag)
    (read : draft.readTag tag c rest = .ok next) : Reads draft c rest next := by
  have same : draft.position.name = tag.name.toList := by rw [position]; rfl
  unfold readTag at read
  split at read
  · cases read
    exact .kept 0 (.quoted c tag) (by rw [same]; exact id)
  split at read
  · rename_i brace
    subst brace
    obtain ⟨⟨number?, after⟩, taken, read⟩ := bind_eq_ok.mp read
    obtain ⟨more, ⟨rfl, rfl⟩ | ⟨code, rfl, rfl, stands, visible⟩⟩ := capture_cases taken
    · cases read
      have breaks : Breaks "\"\"".toList :=
        ⟨by decide +kernel, ⟨'"', by decide, rfl⟩, '"', by decide, rfl⟩
      exact .replaced _ more draft.position (by decide) fun named _ => ⟨breaks, named⟩
    · cases read
      exact .captured code _ more (quoted_wordPlaceholder_numbers _) (by simp) stands visible
  split at read
  · cases read
    refine .replaced _ 1 .content ?_ fun named _ => ⟨?_, .nil⟩
    · split <;> simp
    · rw [same] at named
      split
      · exact ⟨by decide +kernel, ⟨'>', by decide, rfl⟩, '>', by decide, rfl⟩
      · have whole := breaks_closing (unmarked_markupTag named)
        simpa using whole
  split at read
  · cases read
    exact .kept 0 .content fun _ => .nil
  · cases read
    exact .kept 0 draft.position id

theorem readQuoted_reads {quote : Char} {tag : OpenTag}
    (position : draft.position = .quoted quote tag)
    (read : draft.readQuoted quote tag c rest = .ok next) : Reads draft c rest next := by
  have same : draft.position.name = tag.name.toList := by rw [position]; rfl
  unfold readQuoted at read
  split at read
  · cases read
    exact .kept 0 (.tag tag) (by rw [same]; exact id)
  split at read
  · rename_i brace
    subst brace
    obtain ⟨⟨number?, after⟩, taken, read⟩ := bind_eq_ok.mp read
    obtain ⟨more, ⟨rfl, rfl⟩ | ⟨code, rfl, rfl, stands, visible⟩⟩ := capture_cases taken
    · cases read
      exact .dropped more draft.scripts draft.styles
    · cases read
      have written : (wordPlaceholder draft.captured.length).toList ≠ [] := by
        rw [toList_wordPlaceholder]
        exact List.append_ne_nil_of_left_ne_nil (by decide) _
      exact .captured code _ more (wordPlaceholder_numbers _) written stands visible
  · cases read
    exact .kept 0 draft.position id

/-- A character that starts a part is read in one of four ways. -/
theorem step_reads (fresh : draft.skip = 0) (read : draft.step c rest = .ok next) :
    Reads draft c rest next := by
  rw [step, if_neg (by omega)] at read
  split at read
  · exact readContent_reads read
  · rename_i tag position
    exact readTag_reads position read
  · rename_i quote tag position
    exact readQuoted_reads position read

/-! ## Reading on -/

/-- The source without the parts that leave nothing behind in the markup. -/
def remainsFrom (draft : Draft) : List Char → List Char
  | [] => []
  | c :: rest =>
    match draft.step c rest with
    | .ok next =>
      (if 0 < draft.skip ∨ next.written = draft.written then [] else c :: rest.take next.skip) ++
        next.remainsFrom rest
    | .error _ => []

/-- What is still to be copied of a part that has been recognized. -/
def pending (draft : Draft) (source : List Char) : List Char :=
  if draft.copying then source.take draft.skip else []

/-- The code stands in the source, one after the other, at its locations. -/
def Follows : Location → List Char → List Captured → Prop
  | _, _, [] => True
  | start, source, code :: others =>
    ∃ gap tail, source = gap ++ (code.code.toList ++ tail) ∧ code.location = start.advance gap ∧
      code.code ≠ "" ∧ Follows ((start.advance gap).advance code.code.toList) tail others

theorem Follows.behind (gap : List Char) (follows : Follows (start.advance gap) source codes) :
    Follows start (gap ++ source) codes := by
  cases codes with
  | nil => exact trivial
  | cons code others =>
      obtain ⟨inner, tail, rfl, located, visible, later⟩ := follows
      refine ⟨gap ++ inner, tail, (List.append_assoc gap inner _).symm, ?_, visible, ?_⟩
      · rw [Location.advance_append, located]
      · rwa [Location.advance_append]

/-- Code that stands in the text in front comes first. -/
theorem Follows.cons {part : List Char} {code : Captured}
    (stands : Stands part start code.code.toList code.location) (visible : code.code ≠ "")
    (follows : Follows (start.advance part) source codes) :
    Follows start (part ++ source) (code :: codes) := by
  obtain ⟨before, ⟨tail, rfl⟩, located⟩ := stands
  rw [Location.advance_append, Location.advance_append] at follows
  exact ⟨before, tail ++ source, by simp, located, visible, follows.behind tail⟩

/-- What a run adds to a draft: the rest of the markup and more code.  The placeholders in the
markup are those of the code, whatever stands in front of it. -/
structure Delivers (draft : Draft) (source : List Char) (result : Draft) (html : List Char)
    (codes : List Captured) : Prop where
  markup : result.markup = draft.markup ++ (draft.pending source ++ html)
  captured : result.captured = draft.captured ++ codes
  follows : Follows (draft.location.advance (source.take draft.skip)) (source.drop draft.skip) codes
  found : Unmarked draft.position.name → ∀ run, Unmarked (run ++ draft.remainsFrom source) →
    marks (run ++ html) = (List.range' draft.captured.length codes.length).map numeral

theorem remainsFrom_skip (skipped : 0 < draft.skip) (c : Char) (rest : List Char) :
    draft.remainsFrom (c :: rest) = (draft.follow c).remainsFrom rest := by
  rw [remainsFrom, step, if_pos skipped]
  dsimp only
  rw [if_pos (.inl skipped), List.nil_append]

theorem remainsFrom_part (fresh : draft.skip = 0) (read : draft.step c rest = .ok next)
    (visible : next.written ≠ draft.written) :
    draft.remainsFrom (c :: rest) = c :: rest.take next.skip ++ next.remainsFrom rest := by
  have apart : ¬ (0 < draft.skip ∨ next.written = draft.written) := by
    rintro (skipped | same)
    · omega
    · exact visible same
  rw [remainsFrom, read]
  dsimp only
  rw [if_neg apart]

theorem remainsFrom_dropped (read : draft.step c rest = .ok next)
    (same : next.written = draft.written) :
    draft.remainsFrom (c :: rest) = next.remainsFrom rest := by
  rw [remainsFrom, read]
  dsimp only
  rw [if_pos (.inr same), List.nil_append]

theorem Delivers.finish (draft : Draft) : draft.Delivers [] draft [] [] where
  markup := by simp [pending]
  captured := (List.append_nil _).symm
  follows := trivial
  found := by
    intro _ run unmarked
    rw [marks_append_of_unmarked unmarked.left (.inr (.inr rfl))]
    rfl


/-- A character of a part that has been recognized. -/
theorem Delivers.follow (skipped : 0 < draft.skip)
    (later : (draft.follow c).Delivers rest result html codes) :
    draft.Delivers (c :: rest) result html codes := by
  obtain ⟨more, skip⟩ := Nat.exists_eq_add_of_lt skipped
  rw [Nat.zero_add] at skip
  obtain ⟨markup, captured, follows, found⟩ := later
  refine ⟨?_, captured, ?_, ?_⟩
  · rw [markup]
    simp only [Draft.markup, pending, Draft.follow, skip]
    split <;> simp
  · simpa only [Draft.follow, skip, List.take_succ_cons, List.drop_succ_cons,
      Location.advance_cons, Nat.add_sub_cancel] using follows
  · rw [remainsFrom_skip skipped]
    exact found

/-- A draft that is not in the midst of a part. -/
theorem Delivers.fresh (fresh : draft.skip = 0) (markup : result.markup = draft.markup ++ html)
    (captured : result.captured = draft.captured ++ codes)
    (follows : Follows draft.location source codes)
    (found : Unmarked draft.position.name → ∀ run, Unmarked (run ++ draft.remainsFrom source) →
      marks (run ++ html) = (List.range' draft.captured.length codes.length).map numeral) :
    draft.Delivers source result html codes where
  markup := by simpa [pending, fresh] using markup
  captured := captured
  follows := by simpa [fresh] using follows
  found := found

/-- A character that starts a part. -/
theorem Delivers.part (fresh : draft.skip = 0) (read : draft.step c rest = .ok next)
    (later : next.Delivers rest result html codes) :
    ∃ html codes, draft.Delivers (c :: rest) result html codes := by
  have whole (more : Nat) : (c :: rest.take more) ++ rest.drop more = c :: rest := by
    rw [List.cons_append, List.take_append_drop]
  have reads := step_reads fresh read
  obtain ⟨markup, captured, follows, found⟩ := later
  cases reads with
  | kept more position named =>
      have visible : c :: draft.written ≠ draft.written := List.cons_ne_self c _
      refine ⟨c :: rest.take more ++ html, codes, .fresh fresh ?_ captured ?_ ?_⟩
      · rw [markup]
        simp [Draft.markup, pending, Draft.copy]
      · exact whole more ▸ Follows.behind (c :: rest.take more) follows
      · intro name run unmarked
        rw [remainsFrom_part fresh read visible, ← List.append_assoc] at unmarked
        rw [← List.append_assoc]
        exact found (named name) _ unmarked
  | dropped more scripts styles =>
      refine ⟨html, codes, .fresh fresh ?_ captured ?_ ?_⟩
      · rw [markup]
        simp [Draft.markup, pending, Draft.passOver]
      · exact whole more ▸ Follows.behind (c :: rest.take more) follows
      · intro name run unmarked
        rw [remainsFrom_dropped read rfl] at unmarked
        exact found name run unmarked
  | replaced text more position visible breaks =>
      refine ⟨text ++ html, codes, .fresh fresh ?_ captured ?_ ?_⟩
      · rw [markup]
        simp [Draft.markup, pending, Draft.passOver, Draft.write]
      · exact whole more ▸ Follows.behind (c :: rest.take more) follows
      · intro name run unmarked
        rw [remainsFrom_part fresh read (by simpa [Draft.passOver, Draft.write] using visible)]
          at unmarked
        -- the text is apart from both sides, so that what follows is read for itself
        obtain ⟨apart, named⟩ := breaks name unmarked.right.left
        rw [apart.marks unmarked.left]
        exact found named [] unmarked.right.right
  | captured code text more numbers written stands visible =>
      refine ⟨text ++ html, code :: codes, .fresh fresh ?_ ?_ ?_ ?_⟩
      · rw [markup]
        simp [Draft.markup, pending, Draft.passOver, Draft.write]
      · rw [captured]
        exact List.append_assoc _ [code] codes
      · exact whole more ▸ Follows.cons stands visible follows
      · intro name run unmarked
        rw [remainsFrom_part fresh read (by simpa [Draft.passOver, Draft.write] using written)]
          at unmarked
        -- a bare word leaves its last underscores to what follows
        have behind := unmarked.right.right
        have alone : marks html = _ := found name [] behind
        have length : (draft.captured ++ [code]).length = draft.captured.length + 1 :=
          List.length_append
        rw [numbers unmarked.left alone (found name _ behind.underscores), List.length_cons,
          List.range'_succ, List.map_cons, ← length]
        rfl

/-- A run adds what its parts add. -/
theorem runFrom_delivers (read : draft.runFrom source = .ok result) :
    ∃ html codes, draft.Delivers source result html codes := by
  induction source generalizing draft with
  | nil =>
      rw [runFrom, Draft.finish] at read
      split at read
      · cases read
        exact ⟨[], [], .finish _⟩
      · cases read
      · cases read
  | cons c rest induction =>
      rw [runFrom] at read
      split at read
      · rename_i next step
        obtain ⟨html, codes, later⟩ := induction read
        rcases Nat.eq_zero_or_pos draft.skip with fresh | skipped
        · exact later.part fresh step
        · rw [Draft.step, if_pos skipped] at step
          cases step
          exact ⟨html, codes, later.follow skipped⟩
      · cases read

end Draft

/-! ## Where the code stands -/

/-- The code stands in the source at the byte offset, and its location is that of the offset. -/
def Captured.StandsAt (source : List Char) (code : Captured) (offset : Nat) : Prop :=
  ∃ before, before ++ code.code.toList <+: source ∧ Text.byteSize before = offset ∧
    code.location = Location.start.advance before

/-- Code with its byte offset. -/
abbrev Place := Captured × Nat

/-- The first code starts in front of the second one and ends there at the latest. -/
def Place.Before (place place' : Place) : Prop :=
  place.2 < place'.2 ∧ place.2 + Text.byteSize place.1.code.toList ≤ place'.2

/-- Code that stands in a text, one after the other, has offsets behind that of the text. -/
theorem Draft.Follows.places (front : List Char) {rest : List Char} {codes : List Captured}
    (follows : Draft.Follows (Location.start.advance front) rest codes) :
    ∃ places : List Place, places.map Prod.fst = codes ∧
      (∀ place ∈ places, place.1.StandsAt (front ++ rest) place.2 ∧
        Text.byteSize front ≤ place.2) ∧
      places.Pairwise Place.Before := by
  induction codes generalizing front rest with
  | nil => exact ⟨[], rfl, by simp, .nil⟩
  | cons code others induction =>
      obtain ⟨gap, tail, rfl, located, visible, later⟩ := follows
      rw [← Location.advance_append, ← Location.advance_append] at later
      obtain ⟨places, same, stand, apart⟩ := induction _ later
      have own : code.StandsAt (front ++ (gap ++ (code.code.toList ++ tail)))
          (Text.byteSize (front ++ gap)) :=
        ⟨front ++ gap, ⟨tail, by simp⟩, rfl, by rw [located, Location.advance_append]⟩
      have size : 0 < Text.byteSize code.code.toList :=
        Text.byteSize_pos fun empty => visible (String.toList_eq_nil_iff.mp empty)
      refine ⟨(code, Text.byteSize (front ++ gap)) :: places, congrArg (code :: ·) same, ?_,
        .cons ?_ apart⟩
      · refine List.forall_mem_cons.mpr ⟨⟨own, ?_⟩, fun place member => ?_⟩
        · rw [Text.byteSize_append]
          exact Nat.le_add_right _ _
        · obtain ⟨stands, behind⟩ := stand place member
          rw [Text.byteSize_append, Text.byteSize_append] at behind
          exact ⟨by simpa using stands, by omega⟩
      · intro place member
        obtain ⟨-, behind⟩ := stand place member
        rw [← List.append_assoc, Text.byteSize_append] at behind
        exact ⟨Nat.lt_of_lt_of_le (Nat.lt_add_of_pos_right size) behind, behind⟩

/-- The source without the parts that leave nothing behind in the markup. -/
def remains (source : List Char) : List Char := Draft.remainsFrom {} source

/-- No code of a source is lost, duplicated or displaced.  If the words of placeholders do not occur
in what remains of the source, the placeholders in the markup are those of the code that was taken
out, in order, each once.  The code stands in the source, without overlap, at its locations. -/
theorem ofSource_conserves {source : List Char} {draft : Draft}
    (read : Draft.ofSource source = .ok draft) :
    (Unmarked (remains source) →
      marks draft.markup = (List.range draft.captured.length).map numeral) ∧
    ∃ places : List Place, places.map Prod.fst = draft.captured ∧
      (∀ place ∈ places, place.1.StandsAt source place.2) ∧ places.Pairwise Place.Before := by
  obtain ⟨html, codes, markup, captured, follows, found⟩ := Draft.runFrom_delivers read
  refine ⟨fun unmarked => ?_, ?_⟩
  · have written : draft.markup = html := markup
    have numerals : marks html = _ := found .nil [] unmarked
    rw [written, numerals, captured, List.range_eq_range']
    rfl
  · obtain ⟨places, same, stand, apart⟩ := follows.places []
    exact ⟨places, same.trans captured.symm, fun place member => (stand place member).1, apart⟩

/-- A value with code, and behind it the parts of a word around empty code. -/
def forgedSource : List Char := "<p title=\"\x7ba\x7d__ZENITH_EX\x7b\x7dPR_0__\"></p>".toList

/-- Empty code leaves nothing behind, so that what stands around it is joined: here to a second
placeholder of the same code. -/
theorem placeholder_forged :
    Unmarked forgedSource ∧ ∃ draft, Draft.ofSource forgedSource = .ok draft ∧
      draft.captured.map (·.code) = ["a"] ∧ marks draft.markup = [numeral 0, numeral 0] ∧
      marks draft.markup ≠ (List.range draft.captured.length).map numeral := by
  have evaluates : (Draft.ofSource forgedSource).toOption.any (fun draft =>
      draft.captured.map (·.code) == ["a"] && marks draft.markup == [numeral 0, numeral 0]) =
        true := by
    decide +kernel
  obtain ⟨draft, read, shape⟩ := exists_ok _ evaluates
  rw [Bool.and_eq_true, beq_iff_eq, beq_iff_eq] at shape
  obtain ⟨codes, found⟩ := shape
  have length : draft.captured.length = 1 := by
    rw [← List.length_map, codes]
    rfl
  refine ⟨by decide +kernel, draft, read, codes, found, ?_⟩
  rw [found, length]
  decide

/-- Code in all places, with parts between that leave nothing behind. -/
def mixedSource : List Char :=
  ("<p é=\x7bx\x7d b='\x7b\x7d\x7b y\x7d'>\n" ++
    "<style></style>\x7b/* only */\x7d\x7bf(\x7b\x7d)\x7d</p>").toList

theorem ofSource_conserves_mixed :
    ∃ draft, Draft.ofSource mixedSource = .ok draft ∧ Unmarked (remains mixedSource) ∧
      draft.captured = [⟨"x", ⟨1, 7⟩⟩, ⟨"y", ⟨1, 17⟩⟩, ⟨"f(\x7b\x7d)", ⟨2, 29⟩⟩] ∧
      marks draft.markup = [numeral 0, numeral 1, numeral 2] ∧
      ∃ places : List Place, places.map Prod.fst = draft.captured ∧
        (∀ place ∈ places, place.1.StandsAt mixedSource place.2) ∧
        places.Pairwise Place.Before := by
  have evaluates : (Draft.ofSource mixedSource).toOption.any (fun draft =>
      draft.captured == [⟨"x", ⟨1, 7⟩⟩, ⟨"y", ⟨1, 17⟩⟩, ⟨"f(\x7b\x7d)", ⟨2, 29⟩⟩]) = true := by
    decide +kernel
  obtain ⟨draft, read, codes⟩ := exists_ok _ evaluates
  have unmarked : Unmarked (remains mixedSource) := by decide +kernel
  obtain ⟨found, places⟩ := ofSource_conserves read
  rw [beq_iff_eq] at codes
  refine ⟨draft, read, unmarked, codes, ?_, places⟩
  rw [found unmarked, codes]
  rfl

end Template
end ReactiveTemplate
