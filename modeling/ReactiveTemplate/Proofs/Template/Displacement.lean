import ReactiveTemplate.Proofs.Diagnostic
import ReactiveTemplate.Proofs.Tree.Displacement
import ReactiveTemplate.Template.Parse

/-!
# Templates at other places

Where a source starts decides the locations in its draft and nothing else: the same code is taken
out, in the same order.  The tags of the draft carry these locations, and a document that has them
as attributes is read as the same nodes, displaced.
-/

namespace ReactiveTemplate
namespace Template

variable {captured captured' : List Captured} {registry registry' : Registry}

/-- The code that was taken out, without its locations. -/
def codes (captured : List Captured) : List String := captured.map (·.code)

/-- Where code was found in both runs or in none, and the same code. -/
theorem none_or_code_eq {found found' : Option Captured}
    (same : found.map (·.code) = found'.map (·.code)) :
    (found = none ∧ found' = none) ∨
      ∃ code location location', found = some ⟨code, location⟩ ∧ found' = some ⟨code, location'⟩ := by
  cases found with
  | none =>
      cases found' with
      | none => exact .inl ⟨rfl, rfl⟩
      | some _ => cases same
  | some captured =>
      cases found' with
      | none => cases same
      | some captured' =>
          obtain ⟨code, location⟩ := captured
          obtain ⟨code', location'⟩ := captured'
          obtain rfl : code = code' := Option.some.inj same
          exact .inr ⟨code, location, location', rfl, rfl⟩

theorem getElem?_code (same : codes captured = codes captured') (number : Nat) :
    (captured[number]?).map (·.code) = (captured'[number]?).map (·.code) := by
  rw [← List.getElem?_map, ← List.getElem?_map]
  exact congrArg (·[number]?) same

/-! ## Drafts -/

/-- Positions are the same but for where the tag starts. -/
inductive Position.Displaced : Position → Position → Prop where
  | content : Displaced .content .content
  | tag (name : String) (location location' : Location) :
      Displaced (.tag ⟨name, location⟩) (.tag ⟨name, location'⟩)
  | quoted (quote : Char) (name : String) (location location' : Location) :
      Displaced (.quoted quote ⟨name, location⟩) (.quoted quote ⟨name, location'⟩)

namespace Draft

/-- Drafts are read further in the same way. -/
structure Displaced (draft draft' : Draft) : Prop where
  position : draft.position.Displaced draft'.position
  skip : draft.skip = draft'.skip
  codes : codes draft.captured = codes draft'.captured

namespace Displaced

variable {draft draft' : Draft}

theorem write (displaced : draft.Displaced draft') (text text' : List Char) :
    (draft.write text).Displaced (draft'.write text') :=
  ⟨displaced.position, displaced.skip, displaced.codes⟩

theorem copy (displaced : draft.Displaced draft') (c : Char) (more : Nat) :
    (draft.copy c more).Displaced (draft'.copy c more) :=
  ⟨displaced.position, rfl, displaced.codes⟩

theorem passOver (displaced : draft.Displaced draft') (c : Char) (more : Nat) :
    (draft.passOver c more).Displaced (draft'.passOver c more) :=
  ⟨displaced.position, rfl, displaced.codes⟩

theorem follow (displaced : draft.Displaced draft') (c : Char) :
    (draft.follow c).Displaced (draft'.follow c) :=
  ⟨displaced.position, congrArg (· - 1) displaced.skip, displaced.codes⟩

/-- The draft goes on at another position. -/
theorem turn (displaced : draft.Displaced draft') {position position' : Position}
    (same : position.Displaced position') :
    Displaced { draft with position } { draft' with position := position' } :=
  ⟨same, displaced.skip, displaced.codes⟩

theorem capture (displaced : draft.Displaced draft') (rest : List Char) :
    Concurs (fun taken taken' => taken.1 = taken'.1 ∧ taken.2.Displaced taken'.2)
      (draft.capture rest) (draft'.capture rest) := by
  rw [Draft.capture, Draft.capture]
  cases Code.closingFrom .afterOpening rest with
  | none => exact .error _ _
  | some length =>
      have after := displaced.passOver '{' (length + 1)
      dsimp only
      split
      · exact .ok ⟨rfl, after⟩
      · have length := congrArg List.length displaced.codes
        rw [Template.codes, Template.codes, List.length_map, List.length_map] at length
        refine .ok ⟨congrArg some length, after.position, after.skip, ?_⟩
        simp only [Template.codes, List.map_append, List.map_cons, List.map_nil]
        exact congrArg (· ++ _) displaced.codes

theorem closeTag (displaced : draft.Displaced draft') (rest : List Char) :
    (draft.closeTag rest).Displaced (draft'.closeTag rest) := by
  unfold Draft.closeTag
  dsimp only
  split
  · exact (displaced.write _ _).passOver _ _
  · exact displaced.copy _ _

theorem openTag (displaced : draft.Displaced draft') (name : String) :
    (draft.openTag name).Displaced (draft'.openTag name) := by
  rw [Draft.openTag, Draft.openTag]
  exact ((displaced.write _ _).passOver _ _).turn (.tag name _ _)

theorem block (displaced : draft.Displaced draft') (name lower : String) (rest : List Char) :
    Concurs Displaced (draft.block name lower rest) (draft'.block name lower rest) := by
  unfold Draft.block
  dsimp only
  cases tagLength? none (rest.drop name.length) with
  | none => exact .error _ _
  | some tagLength =>
      simp only [bind, Except.bind]
      split
      · refine .ok ?_
        split
        · exact (displaced.write _ _).passOver _ _
        · exact displaced.passOver _ _
      · cases Text.find? ("</" ++ lower).toList
            (((rest.drop name.length).drop (tagLength + 1)).map Char.toLower) with
        | none => exact .error _ _
        | some bodyLength =>
            dsimp only
            split
            · exact .ok (displaced.copy _ _)
            · split
              · exact .ok ⟨displaced.position, rfl, displaced.codes⟩
              · exact .ok ⟨displaced.position, rfl, displaced.codes⟩

/-- Code in braces, with a placeholder in its place. -/
theorem captureWith (displaced : draft.Displaced draft') (rest : List Char)
    {next : Option Nat × Draft → Except Misstep Draft}
    (goes : ∀ number? taken taken', Displaced taken taken' →
      Concurs Displaced (next (number?, taken)) (next (number?, taken'))) :
    Concurs Displaced (draft.capture rest >>= next) (draft'.capture rest >>= next) := by
  refine (displaced.capture rest).bind fun taken taken' both => ?_
  obtain ⟨number?, taken⟩ := taken
  obtain ⟨number?', taken'⟩ := taken'
  obtain ⟨rfl, after⟩ := both
  exact goes _ _ _ after

theorem readContent (displaced : draft.Displaced draft') (c : Char) (rest : List Char) :
    Concurs Displaced (draft.readContent c rest) (draft'.readContent c rest) := by
  unfold Draft.readContent
  split
  · refine displaced.captureWith rest fun number? taken taken' after => ?_
    cases number? with
    | none => exact .ok after
    | some number => exact .ok (after.write _ _)
  split
  · exact .ok (displaced.copy _ _)
  split
  · exact .ok (displaced.copy _ _)
  · exact .ok (displaced.copy _ _)
  · exact .ok (displaced.copy _ _)
  · exact .ok (displaced.closeTag _)
  · split
    · dsimp only
      split
      · exact displaced.block _ _ _
      · exact .ok (displaced.openTag _)
    · exact .ok (displaced.copy _ _)
  · exact .ok (displaced.copy _ _)

theorem readTag (displaced : draft.Displaced draft') (name : String)
    (location location' : Location) (c : Char) (rest : List Char) :
    Concurs Displaced (draft.readTag ⟨name, location⟩ c rest)
      (draft'.readTag ⟨name, location'⟩ c rest) := by
  unfold Draft.readTag
  split
  · exact .ok ((displaced.copy _ _).turn (.quoted c name location location'))
  split
  · refine displaced.captureWith rest fun number? taken taken' after => ?_
    cases number? with
    | none => exact .ok (after.write _ _)
    | some number => exact .ok (after.write _ _)
  split
  · exact .ok (((displaced.write _ _).passOver _ _).turn .content)
  split
  · exact .ok ((displaced.copy _ _).turn .content)
  · exact .ok (displaced.copy _ _)

theorem readQuoted (displaced : draft.Displaced draft') (quote : Char) (name : String)
    (location location' : Location) (c : Char) (rest : List Char) :
    Concurs Displaced (draft.readQuoted quote ⟨name, location⟩ c rest)
      (draft'.readQuoted quote ⟨name, location'⟩ c rest) := by
  unfold Draft.readQuoted
  split
  · exact .ok ((displaced.copy _ _).turn (.tag name location location'))
  split
  · refine displaced.captureWith rest fun number? taken taken' after => ?_
    cases number? with
    | none => exact .ok after
    | some number => exact .ok (after.write _ _)
  · exact .ok (displaced.copy _ _)

/-- One character is read in the same way. -/
theorem step (displaced : draft.Displaced draft') (c : Char) (rest : List Char) :
    Concurs Displaced (draft.step c rest) (draft'.step c rest) := by
  obtain ⟨position, skip, -⟩ := id displaced
  rw [Draft.step, Draft.step, skip]
  split
  · exact .ok (displaced.follow c)
  · generalize draft.position = here at position
    generalize draft'.position = here' at position
    cases position with
    | content => exact displaced.readContent c rest
    | tag name location location' => exact displaced.readTag name location location' c rest
    | quoted quote name location location' =>
        exact displaced.readQuoted quote name location location' c rest

/-- The same text is read in the same way up to its end. -/
theorem runFrom (displaced : draft.Displaced draft') (text : List Char) :
    Concurs Displaced (draft.runFrom text) (draft'.runFrom text) := by
  induction text generalizing draft draft' with
  | nil =>
      have here := displaced.position
      rw [Draft.runFrom, Draft.runFrom, Draft.finish, Draft.finish]
      generalize draft.position = position at here
      generalize draft'.position = position' at here
      cases here with
      | content => exact .ok displaced
      | tag name location location' => exact .error _ _
      | quoted quote name location location' => exact .error _ _
  | cons c rest induction =>
      rw [Draft.runFrom, Draft.runFrom]
      rcases (displaced.step c rest).error_or_ok with
        ⟨fault, fault', left, right⟩ | ⟨next, next', both, left, right⟩
      · rw [left, right]
        exact .error _ _
      · rw [left, right]
        exact induction both

end Displaced
end Draft

/-! ## Documents -/

/-- The attributes without those that carry a location. -/
def unplaced (attributes : List (String × String)) : List (String × String) :=
  attributes.filter (·.1 != locationAttribute)

mutual

/-- The nodes of two documents are the same but for the locations that elements carry, and for the
texts of comments. -/
def alike : Markup.Dom → Markup.Dom → Bool
  | .doctype name publicId systemId, .doctype name' publicId' systemId' =>
    name == name' && publicId == publicId' && systemId == systemId'
  | .text text, .text text' => text == text'
  | .comment _, .comment _ => true
  | .element vocabulary name attributes children, .element vocabulary' name' attributes' children' =>
    vocabulary == vocabulary' && name == name' && unplaced attributes == unplaced attributes' &&
      alikeAll children children'
  | _, _ => false

/-- The nodes of two lists are the same one by one, in the same sense. -/
def alikeAll : List Markup.Dom → List Markup.Dom → Bool
  | [], [] => true
  | node :: rest, node' :: rest' => alike node node' && alikeAll rest rest'
  | _, _ => false

end

/-! ## Reading -/

theorem readAttributes_unplaced (captured : List Captured) (registry : Registry)
    (element : Location) (attributes : List (String × String)) :
    readAttributes captured registry element (unplaced attributes) =
      readAttributes captured registry element attributes := by
  induction attributes generalizing registry with
  | nil => rfl
  | cons attr rest induction =>
      obtain ⟨name, raw⟩ := attr
      by_cases located : name = locationAttribute
      · have dropped : unplaced ((name, raw) :: rest) = unplaced rest :=
          List.filter_cons_of_neg (by simp [located])
        rw [dropped, induction, readAttributes, if_pos (.inr located)]
      · have kept : unplaced ((name, raw) :: rest) = (name, raw) :: unplaced rest :=
          List.filter_cons_of_pos (by simp [located])
        rw [kept, readAttributes, readAttributes]
        split
        · exact induction registry
        · simp only [induction]

/-- An attribute of another name is found without those that carry a location. -/
theorem find?_unplaced {name : String} (other : name ≠ locationAttribute)
    (attributes : List (String × String)) :
    (unplaced attributes).find? (·.1 == name) = attributes.find? (·.1 == name) := by
  rw [unplaced, List.find?_filter]
  congr 1
  funext attr
  by_cases same : attr.1 = name
  · simp [same, other]
  · simp [same]

theorem codeFor?_displaced (same : codes captured = codes captured') (digits : List Char) :
    (codeFor? captured digits).map (·.code) = (codeFor? captured' digits).map (·.code) := by
  rw [codeFor?, codeFor?]
  split
  · exact getElem?_code same _
  · rfl

theorem literal_displaced (same : codes captured = codes captured') (pieces : List Piece) :
    literal captured pieces = literal captured' pieces := by
  have part (piece : Piece) : literalPart captured piece = literalPart captured' piece := by
    cases piece with
    | plain text => rfl
    | placeholder digits =>
        rw [literalPart, literalPart]
        rcases none_or_code_eq (codeFor?_displaced same digits) with
          ⟨left, right⟩ | ⟨code, location, location', left, right⟩
        · rw [left, right]
        · rw [left, right]
  rw [literal, literal, funext part]

/-- The value of an attribute is code in both runs, and the same code. -/
theorem dynamicValue?_displaced (same : codes captured = codes captured') (raw : String)
    (fallback fallback' : Location) :
    (dynamicValue? captured raw fallback).map (·.code) =
      (dynamicValue? captured' raw fallback').map (·.code) := by
  unfold dynamicValue?
  dsimp only
  split
  · rfl
  · rw [literal_displaced same]
    split
    · rename_i piece _
      cases piece with
      | plain text => rfl
      | placeholder digits =>
          rw [Piece.code?, Piece.code?]
          rcases none_or_code_eq (codeFor?_displaced same digits) with
            ⟨left, right⟩ | ⟨code, location, location', left, right⟩
          · rw [left, right]
            rfl
          · rw [left, right]
            rfl
    · rfl

theorem readAttribute_displaced (same : codes captured = codes captured')
    (level : registry.SameIds registry') (element element' : Location) (name raw : String) :
    (readAttribute captured registry element name raw).1.Displaced
        (readAttribute captured' registry' element' name raw).1 ∧
      (readAttribute captured registry element name raw).2.SameIds
        (readAttribute captured' registry' element' name raw).2 := by
  rw [readAttribute, readAttribute]
  rcases none_or_code_eq (dynamicValue?_displaced same raw element element') with
    ⟨left, right⟩ | ⟨code, location, location', left, right⟩
  · rw [left, right]
    exact ⟨⟨rfl, .fixed raw, rfl⟩, level⟩
  · rw [left, right]
    obtain ⟨new, after⟩ := level.register "expr" code code location location' none none
    exact ⟨⟨rfl, .dynamic ⟨new, rfl, rfl⟩, rfl⟩, after⟩

theorem readAttributes_displaced (same : codes captured = codes captured')
    (level : registry.SameIds registry') (element element' : Location)
    (attributes : List (String × String)) :
    Attribute.AllDisplaced (readAttributes captured registry element attributes).1
        (readAttributes captured' registry' element' attributes).1 ∧
      (readAttributes captured registry element attributes).2.SameIds
        (readAttributes captured' registry' element' attributes).2 := by
  induction attributes generalizing registry registry' with
  | nil => exact ⟨.nil, level⟩
  | cons attr rest induction =>
      obtain ⟨name, raw⟩ := attr
      rw [readAttributes, readAttributes]
      split
      · exact induction level
      · obtain ⟨own, later⟩ := readAttribute_displaced same level element element' name raw
        obtain ⟨others, after⟩ := induction later
        exact ⟨.cons own others, after⟩

theorem readExpression_displaced (same : codes captured = codes captured')
    (level : registry.SameIds registry') (number? : Option Nat) :
    MadeDisplaced (readExpression captured registry number?)
      (readExpression captured' registry' number?) := by
  have found : (number?.bind (captured[·]?)).map (·.code) =
      (number?.bind (captured'[·]?)).map (·.code) := by
    cases number? with
    | none => rfl
    | some number => exact getElem?_code same number
  rw [readExpression, readExpression]
  rcases none_or_code_eq found with ⟨left, right⟩ | ⟨code, location, location', left, right⟩
  · rw [left, right]
    exact ⟨.nil, level⟩
  · rw [left, right]
    obtain ⟨new, after⟩ := level.register "expr" code code location location' none none
    exact ⟨.expression ⟨new, rfl, rfl⟩ .nil, after⟩

theorem readPieces_displaced (same : codes captured = codes captured')
    (level : registry.SameIds registry') (location location' : Location) (pieces : List Piece) :
    MadeDisplaced (readPieces captured registry location pieces)
      (readPieces captured' registry' location' pieces) := by
  induction pieces generalizing registry registry' with
  | nil => exact ⟨.nil, level⟩
  | cons piece rest induction =>
      cases piece with
      | plain text =>
          obtain ⟨others, after⟩ := induction level
          rw [readPieces, readPieces]
          dsimp only
          split
          · exact ⟨others, after⟩
          · exact ⟨.text rfl others, after⟩
      | placeholder digits =>
          obtain ⟨first, later⟩ := readExpression_displaced same level (Text.digits? digits)
          obtain ⟨others, after⟩ := induction later
          rw [readPieces, readPieces]
          exact ⟨first.append others, after⟩

theorem elementNode_displaced (name : String) {attributes attributes' : List Attribute}
    {children children' : List Node} (location location' : Location)
    (own : Attribute.AllDisplaced attributes attributes')
    (below : Node.Displaced children children') :
    Node.Displaced [elementNode name attributes children location]
      [elementNode name attributes' children' location'] := by
  rw [elementNode, elementNode]
  split
  · exact .component own rfl below .nil
  · exact .element own rfl below .nil

mutual

theorem readNode_displaced (same : codes captured = codes captured') :
    ∀ (node node' : Markup.Dom), alike node node' = true → ∀ {registry registry' : Registry},
      registry.SameIds registry' → ∀ around around' : Location,
        MadeDisplaced (readNode captured registry around node)
          (readNode captured' registry' around' node')
  | .doctype name publicId systemId, .doctype name' publicId' systemId', both, _, _, level, _, _ => by
      simp only [alike, Bool.and_eq_true, beq_iff_eq] at both
      obtain ⟨⟨rfl, rfl⟩, rfl⟩ := both
      exact ⟨.doctype .nil, level⟩
  | .comment _, .comment _, _, _, _, level, _, _ => ⟨.nil, level⟩
  | .text text, .text text', both, _, _, level, around, around' => by
      simp only [alike, beq_iff_eq] at both
      subst both
      rw [readNode, readNode]
      exact readPieces_displaced same level around around' (textPieces text)
  | .element _ name attributes children, .element _ name' attributes' children', both, registry,
      registry', level, around, around' => by
      simp only [alike, Bool.and_eq_true, beq_iff_eq] at both
      obtain ⟨⟨⟨rfl, rfl⟩, unplaced⟩, inner⟩ := both
      have finds {other : String} (apart : other ≠ locationAttribute) :
          attributes.find? (·.1 == other) = attributes'.find? (·.1 == other) := by
        rw [← find?_unplaced apart, ← find?_unplaced apart attributes', unplaced]
      have named : elementName name attributes = elementName name attributes' := by
        rw [elementName, elementName, finds (by decide)]
      rw [readNode, readNode, named, finds (by decide)]
      dsimp only
      split
      · exact readExpression_displaced same level _
      · obtain ⟨own, later⟩ := readAttributes_displaced same level
          (elementLocation around attributes) (elementLocation around' attributes')
          (Template.unplaced attributes)
        rw [readAttributes_unplaced, unplaced, readAttributes_unplaced] at own later
        obtain ⟨below, after⟩ := readNodes_displaced same children children' inner later
          (elementLocation around attributes) (elementLocation around' attributes')
        exact ⟨elementNode_displaced _ _ _ own below, after⟩

/-- Documents that are alike are read as displaced nodes. -/
theorem readNodes_displaced (same : codes captured = codes captured') :
    ∀ (nodes nodes' : List Markup.Dom), alikeAll nodes nodes' = true →
      ∀ {registry registry' : Registry}, registry.SameIds registry' →
        ∀ around around' : Location,
          MadeDisplaced (readNodes captured registry around nodes)
            (readNodes captured' registry' around' nodes')
  | [], [], _, _, _, level, _, _ => ⟨.nil, level⟩
  | node :: rest, node' :: rest', both, _, _, level, around, around' => by
      rw [alikeAll, Bool.and_eq_true] at both
      obtain ⟨first, later⟩ := readNode_displaced same node node' both.1 level around around'
      obtain ⟨others, after⟩ := readNodes_displaced same rest rest' both.2 later around around'
      rw [readNodes, readNodes]
      exact ⟨first.append others, after⟩

end

/-! ## Whole templates -/

theorem alikeAll_append : ∀ {first first' second second' : List Markup.Dom},
    alikeAll first first' = true → alikeAll second second' = true →
      alikeAll (first ++ second) (first' ++ second') = true
  | [], [], _, _, _, both => both
  | node :: rest, node' :: rest', _, _, first, second => by
      rw [alikeAll, Bool.and_eq_true] at first
      rw [List.cons_append, List.cons_append, alikeAll, Bool.and_eq_true]
      exact ⟨first.1, alikeAll_append first.2 second⟩

mutual

theorem contentOf_alike : ∀ {node node' : Markup.Dom}, alike node node' = true →
    alikeAll (contentOf node) (contentOf node') = true
  | .doctype .., .doctype .., _ => rfl
  | .comment _, .comment _, _ => rfl
  | .text text, .text text', both => by
      rw [contentOf, contentOf, alikeAll, both]
      rfl
  | .element _ name attributes children, .element _ name' attributes' children', both => by
      have parts := both
      simp only [alike, Bool.and_eq_true, beq_iff_eq] at parts
      obtain ⟨⟨⟨-, rfl⟩, -⟩, inner⟩ := parts
      rw [contentOf, contentOf]
      split
      · exact contentOfAll_alike inner
      · rw [alikeAll, both]
        rfl

theorem contentOfAll_alike : ∀ {nodes nodes' : List Markup.Dom}, alikeAll nodes nodes' = true →
    alikeAll (contentOfAll nodes) (contentOfAll nodes') = true
  | [], [], _ => rfl
  | node :: rest, node' :: rest', both => by
      rw [alikeAll, Bool.and_eq_true] at both
      rw [contentOfAll, contentOfAll]
      exact alikeAll_append (contentOf_alike both.1) (contentOfAll_alike both.2)

end

/-- Sources whose drafts describe documents that are alike are read as displaced templates. -/
theorem parse_displaced {source source' file : String}
    (drafts : Concurs Draft.Displaced (Draft.ofSource source.toList)
      (Draft.ofSource source'.toList))
    (whole : isFullDocument source.toList = isFullDocument source'.toList)
    (documents : ∀ draft draft', Draft.ofSource source.toList = .ok draft →
      Draft.ofSource source'.toList = .ok draft' →
      alikeAll (Markup.document draft.markup) (Markup.document draft'.markup) = true)
    (level : registry.SameIds registry') :
    Concurs (fun read read' => Node.Displaced read.1.nodes read'.1.nodes ∧ read.2.SameIds read'.2)
      (parse source file registry) (parse source' file registry') := by
  rcases drafts.error_or_ok with ⟨fault, fault', left, right⟩ | ⟨draft, draft', both, left, right⟩
  · rw [parse, parse, left, right]
    exact .error _ _
  · have described := documents draft draft' left right
    have content : alikeAll
        (if isFullDocument source'.toList then Markup.document draft.markup
          else contentOfAll (Markup.document draft.markup))
        (if isFullDocument source'.toList then Markup.document draft'.markup
          else contentOfAll (Markup.document draft'.markup)) = true := by
      split
      · exact described
      · exact contentOfAll_alike described
    obtain ⟨nodes, after⟩ := readNodes_displaced both.codes _ _ content level {} {}
    rw [parse, parse, left, right, whole]
    exact .ok ⟨nodes.filter_blank, after⟩

end Template
end ReactiveTemplate
