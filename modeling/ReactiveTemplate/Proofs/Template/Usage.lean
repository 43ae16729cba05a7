import ReactiveTemplate.Proofs.Code.Passage
import ReactiveTemplate.Proofs.Markup.Document
import ReactiveTemplate.Template.Parse

/-!
# A component usage as a template

A template that is one usage of a component with plain text inside is read as exactly that, also
where the name is the name of an element without children but for its case: the tag is written as a
tag of its own before the rules of markup see it.
-/

namespace ReactiveTemplate
namespace Template

variable {draft : Draft} {name content : List Char}

/-- The text of a usage without attributes around the given text. -/
def usageText (name content : List Char) : List Char :=
  '<' :: (name ++ '>' :: (content ++ Code.closingTag name))

/-! ## The draft -/

namespace Draft

/-- The draft is between tags, has the given markup, and nothing has been taken out. -/
structure Between (draft : Draft) (written : List Char) : Prop where
  position_eq : draft.position = .content
  fresh : draft.skip = 0
  markup_eq : draft.markup = written
  captured_eq : draft.captured = []
  scripts_eq : draft.scripts = []
  styles_eq : draft.styles = []

/-- Characters of a part that is passed over. -/
theorem runFrom_passed (silent : draft.copying = false) (passed : draft.skip = content.length)
    (more : List Char) :
    draft.runFrom (content ++ more) =
      { draft with location := draft.location.advance content, skip := 0 }.runFrom more := by
  induction content generalizing draft with
  | nil =>
      rw [List.length_nil] at passed
      simp [← passed]
  | cons c rest induction =>
      have first : draft.step c (rest ++ more) = .ok (draft.follow c) := by
        rw [step, if_pos (by simp [passed])]
      rw [List.cons_append, runFrom, first]
      have passed' : (draft.follow c).skip = rest.length := by
        simp [follow, passed]
      have silent' : (draft.follow c).copying = false := silent
      have behind := induction silent' passed'
      simpa [follow, silent] using behind

/-- Plain text is copied. -/
theorem Between.text {written : List Char} (between : draft.Between written)
    (angle : '<' ∉ content) (brace : '{' ∉ content) (more : List Char) :
    ∃ draft' : Draft, draft'.Between (written ++ content) ∧
      draft.runFrom (content ++ more) = draft'.runFrom more := by
  induction content generalizing draft written with
  | nil => exact ⟨draft, by rwa [List.append_nil], rfl⟩
  | cons c rest induction =>
      rw [List.mem_cons, not_or] at angle brace
      have first : draft.step c (rest ++ more) = .ok (draft.copy c 0) := by
        simp [step, between.fresh, between.position_eq, readContent, Ne.symm angle.1,
          Ne.symm brace.1]
      have copied : (draft.copy c 0).Between (written ++ [c]) := by
        refine ⟨between.position_eq, rfl, ?_, between.captured_eq, between.scripts_eq,
          between.styles_eq⟩
        rw [← between.markup_eq]
        simp [markup, copy]
      obtain ⟨draft', between', behind⟩ := induction copied angle.2 brace.2
      refine ⟨draft', ?_, ?_⟩
      · rwa [List.append_assoc, List.singleton_append] at between'
      · rw [List.cons_append, runFrom, first]
        exact behind

/-- A tag that opens no script or style block. -/
theorem readContent_tag {first : Char} {rest : List Char} (alpha : first.isAlpha = true)
    (script : Text.asciiLowercase
      (String.ofList ((first :: rest).takeWhile Code.isTagNamePart)) ≠ "script")
    (style : Text.asciiLowercase
      (String.ofList ((first :: rest).takeWhile Code.isTagNamePart)) ≠ "style") :
    draft.readContent '<' (first :: rest) =
      .ok (draft.openTag (String.ofList ((first :: rest).takeWhile Code.isTagNamePart))) := by
  have other : ∀ c : Char, c.isAlpha = false → first ≠ c := by
    rintro c special rfl
    rw [alpha] at special
    cases special
  rw [readContent, if_neg (by decide), if_neg (by decide), if_pos alpha]
  · simp only [script, style, or_self, if_false]
  · exact fun _ bang => absurd bang (other '!' rfl)
  · exact other '!' rfl
  · exact other '?' rfl
  · exact other '/' rfl

/-- The text that the opening tag of a component leaves in the markup. -/
def usageMark (name : String) (location : Location) : List Char :=
  ("<" ++ usageTag ++ " " ++ nameAttribute ++ "=\"" ++ name ++ "\"" ++
    locationMark location).toList ++ ['>']

/-- An opening tag of a component is written as a tag of its own. -/
theorem Between.usage {written : List Char} (between : draft.Between written)
    (named : Code.isTagName name = true) (usage : Markup.isComponentTag (String.ofList name) = true)
    (script : Text.asciiLowercase (String.ofList name) ≠ "script")
    (style : Text.asciiLowercase (String.ofList name) ≠ "style") (more : List Char) :
    ∃ draft' : Draft, draft'.Between (written ++ usageMark (String.ofList name) draft.location) ∧
      draft.runFrom ('<' :: (name ++ '>' :: more)) = draft'.runFrom more := by
  let opened := draft.openTag (String.ofList name)
  have first : draft.step '<' (name ++ '>' :: more) = .ok opened := by
    have parts : Code.Parts Code.isTagNamePart ('>' :: more) := ⟨'>', more, rfl, rfl⟩
    have whole := parts.takeWhile_append (Code.all_isTagNamePart named)
    cases name with
    | nil => cases named
    | cons letter rest =>
        rw [Code.isTagName, Bool.and_eq_true] at named
        rw [List.cons_append] at whole ⊢
        rw [step, if_neg (by simp [between.fresh]), between.position_eq]
        dsimp only
        rw [readContent_tag named.1 (by rwa [whole]) (by rwa [whole]), whole]
  have length : opened.skip = name.length := by
    simp [opened, openTag, passOver]
  have passed := runFrom_passed rfl length ('>' :: more)
  let closed : Draft :=
    { { opened with location := opened.location.advance name, skip := 0 }.copy '>' 0 with
      position := .content }
  refine ⟨closed, ⟨rfl, rfl, ?_, between.captured_eq, between.scripts_eq, between.styles_eq⟩, ?_⟩
  · rw [← between.markup_eq]
    simp [closed, opened, openTag, usage, write, passOver, copy, markup, usageMark]
  · rw [runFrom, first]
    exact passed

/-- The end of a closing tag behind its first angle bracket. -/
theorem lengthBefore?_closing (named : name.all Code.isTagNamePart = true) (more : List Char) :
    lengthBefore? (· == '>') ('/' :: (name ++ '>' :: more)) = some (name.length + 1) := by
  have other : ∀ c, Code.isTagNamePart c = true → (!(c == '>')) = true := by
    intro c part
    by_contra angle
    have same : c = '>' := by simpa using angle
    rw [same] at part
    cases part
  have all : ('/' :: name).all (fun c => !(c == '>')) = true := by
    rw [List.all_cons, List.all_eq_true.mpr fun c member =>
      other c (List.all_eq_true.mp named c member)]
    rfl
  have lead : ('/' :: name ++ '>' :: more).takeWhile (fun c => !(c == '>')) = '/' :: name :=
    Code.Parts.takeWhile_append ⟨'>', more, rfl, rfl⟩ all
  simp only [List.cons_append] at lead
  simp [lengthBefore?, lead]

/-- A closing tag of a component is written as a tag of its own. -/
theorem Between.close {written : List Char} (between : draft.Between written)
    (named : name.all Code.isTagNamePart = true)
    (usage : Markup.isComponentTag (String.ofList name) = true) (more : List Char) :
    ∃ draft' : Draft, draft'.Between (written ++ Markup.closingTag usageTag) ∧
      draft.runFrom (Code.closingTag name ++ more) = draft'.runFrom more := by
  let rest := '/' :: (name ++ '>' :: more)
  have name_eq : (rest.drop 1).takeWhile Code.isTagNamePart = name :=
    Code.Parts.takeWhile_append ⟨'>', more, rfl, rfl⟩ named
  have length : lengthBefore? (· == '>') rest = some (name.length + 1) :=
    lengthBefore?_closing named more
  let marked := (draft.write ("</" ++ usageTag ++ ">").toList).passOver '<' (name.length + 2)
  have first : draft.step '<' rest = .ok marked := by
    have tag : draft.readContent '<' rest = .ok (draft.closeTag rest) := rfl
    rw [step, if_neg (by simp [between.fresh]), between.position_eq]
    dsimp only
    rw [tag, closeTag, name_eq, length, if_pos usage]
    rfl
  let tail := '/' :: (name ++ ['>'])
  have size : marked.skip = tail.length := by
    simp [marked, passOver, tail]
  have passed := runFrom_passed rfl size more
  let closed : Draft := { marked with location := marked.location.advance tail, skip := 0 }
  refine ⟨closed, ⟨between.position_eq, rfl, ?_, between.captured_eq, between.scripts_eq,
    between.styles_eq⟩, ?_⟩
  · rw [← between.markup_eq]
    simp [closed, marked, write, passOver, markup, Markup.closingTag]
  · have whole : Code.closingTag name ++ more = '<' :: rest := by
      simp [Code.closingTag, rest]
    have shape : rest = tail ++ more := by
      simp [rest, tail]
    rw [whole, runFrom, first]
    dsimp only
    rw [shape]
    exact passed

/-- The draft of a usage with plain text inside. -/
theorem ofSource_usage (named : Code.isTagName name = true)
    (usage : Markup.isComponentTag (String.ofList name) = true)
    (script : Text.asciiLowercase (String.ofList name) ≠ "script")
    (style : Text.asciiLowercase (String.ofList name) ≠ "style")
    (angle : '<' ∉ content) (brace : '{' ∉ content) :
    ∃ draft : Draft, ofSource (usageText name content) = .ok draft ∧
      draft.Between (usageMark (String.ofList name) {} ++ content ++
        Markup.closingTag usageTag) := by
  have start : ({} : Draft).Between [] := ⟨rfl, rfl, rfl, rfl, rfl, rfl⟩
  obtain ⟨draft₁, between₁, opening⟩ := start.usage named usage script style
    (content ++ Code.closingTag name)
  obtain ⟨draft₂, between₂, inside⟩ := between₁.text angle brace (Code.closingTag name)
  obtain ⟨draft₃, between₃, closing⟩ :=
    between₂.close (Code.all_isTagNamePart named) usage []
  have ended : draft₃.runFrom [] = .ok draft₃ := by
    rw [runFrom, finish, between₃.position_eq]
  rw [List.append_nil] at closing
  exact ⟨draft₃, by rw [ofSource, usageText, opening, inside, closing, ended], between₃⟩

end Draft

/-! ## Reading the document -/

theorem Piece.cons_plain (c : Char) (content : List Char) :
    Piece.cons c (if content.isEmpty then [] else [.plain content]) = [.plain (c :: content)] := by
  cases content with
  | nil => rfl
  | cons first rest => rfl

/-- Text in which no placeholder starts is one piece. -/
theorem piecesFrom_plain {mark : Char} {opening closing : List Char} (absent : mark ∉ content) :
    piecesFrom (mark :: opening) closing 0 content =
      if content.isEmpty then [] else [.plain content] := by
  induction content with
  | nil => rfl
  | cons c rest induction =>
      rw [List.mem_cons, not_or] at absent
      have plain : placeholder? (mark :: opening) closing (c :: rest) = none := by
        simp [placeholder?, absent.1]
      rw [piecesFrom, plain]
      dsimp only
      rw [induction absent.2, Piece.cons_plain]
      rfl

theorem readNodes_textDom (captured : List Captured) (registry : Registry) (around : Location)
    (angle : '<' ∉ content) (line : '\n' ∉ content) :
    readNodes captured registry around (Markup.textDom content) =
      (if content.isEmpty then [] else [.text (String.ofList content) ⟨around, none⟩],
        registry) := by
  cases content with
  | nil => rfl
  | cons c rest =>
      have pieces : textPieces (String.ofList (c :: rest)) = [.plain (c :: rest)] := by
        simp only [textPieces, String.toList_ofList]
        exact piecesFrom_plain angle
      have shown : isLayout (c :: rest) = false := by
        have single : (c :: rest).contains '\n' = false := by simpa using line
        rw [isLayout, single]
        simp
      have text : Markup.textDom (c :: rest) = [.text (String.ofList (c :: rest))] := rfl
      simp only [text, readNodes, readNode, pieces, readPieces, shown]
      rfl

/-- The attributes that carry the name and the location of a usage at the start of a source. -/
def usageAttributes (name : String) : List (String × String) :=
  [(nameAttribute, name), (locationAttribute, "1:1")]

theorem usageMark_start (name : String) :
    Draft.usageMark name {} = Markup.openingTag usageTag (usageAttributes name) := by
  have mark : locationMark {} = " data-zen-loc=\"1:1\"" := by decide
  simp [Draft.usageMark, Markup.openingTag, usageAttributes, Markup.writtenAttribute, mark,
    usageTag, nameAttribute, locationAttribute]

theorem isValueChar_of_isTagNamePart {c : Char} (part : Code.isTagNamePart c = true) :
    Markup.isValueChar c = true := by
  have other : c ≠ '"' ∧ c ≠ '&' ∧ c ≠ '\x00' := by
    refine ⟨?_, ?_, ?_⟩ <;>
    · rintro rfl
      cases part
  simp [Markup.isValueChar, other]

theorem isPlainAttribute_usage (named : name.all Code.isTagNamePart = true) :
    (usageAttributes (String.ofList name)).all Markup.isPlainAttribute = true := by
  have value : name.all Markup.isValueChar = true :=
    List.all_eq_true.mpr fun c member =>
      isValueChar_of_isTagNamePart (List.all_eq_true.mp named c member)
  have key : Markup.isPlainAttribute (nameAttribute, "") = true := by decide
  have place : Markup.isPlainAttribute (locationAttribute, "1:1") = true := by decide
  have carried : Markup.isPlainAttribute (nameAttribute, String.ofList name) = true := by
    simp only [Markup.isPlainAttribute, Bool.and_eq_true, String.toList_ofList] at key ⊢
    exact ⟨key.1, value⟩
  simp [usageAttributes, carried, place]

/-- The document of a usage at the start of a source. -/
theorem document_usage (named : name.all Code.isTagNamePart = true)
    (angle : '<' ∉ content) (literal : '&' ∉ content) (line : '\n' ∉ content)
    (carriage : '\r' ∉ content) (null : '\x00' ∉ content) :
    Markup.document (Draft.usageMark (String.ofList name) {} ++ content ++
        Markup.closingTag usageTag) =
      Markup.documentWith (.element .html usageTag (usageAttributes (String.ofList name))
        (Markup.textDom content)) := by
  rw [usageMark_start, List.append_assoc]
  apply Markup.document_element (by decide) (by decide)
    (isPlainAttribute_usage named) (by simp [usageAttributes, nameAttribute, locationAttribute])
    angle literal null line
  have unix : '\r' ∉ name := by
    intro member
    cases List.all_eq_true.mp named _ member
  simp [Markup.openingTag, usageAttributes, Markup.writtenAttribute, Markup.closingTag, usageTag,
    nameAttribute, locationAttribute, unix, carriage]

theorem contentOfAll_usage (attributes : List (String × String)) (children : List Markup.Dom) :
    contentOfAll (Markup.documentWith (.element .html usageTag attributes children)) =
      [.element .html usageTag attributes children] := by
  simp [Markup.documentWith, contentOfAll, contentOf, isWrapper, usageTag]

/-- The element that stands for a usage is read as a usage. -/
theorem readNodes_usage (usage : Markup.isComponentTag (String.ofList name) = true)
    (angle : '<' ∉ content) (line : '\n' ∉ content) (registry : Registry) :
    readNodes [] registry {} [.element .html usageTag (usageAttributes (String.ofList name))
        (Markup.textDom content)] =
      ([.component (String.ofList name) []
        (if content.isEmpty then [] else [.text (String.ofList content) {}]) {}], registry) := by
  have title : elementName usageTag (usageAttributes (String.ofList name)) =
      String.ofList name := by
    simp [elementName, usageAttributes]
  have place : elementLocation {} (usageAttributes (String.ofList name)) = {} := by
    have parsed : location? "1:1" = some {} := by decide
    simp [elementLocation, usageAttributes, nameAttribute, locationAttribute, parsed]
  have bare : readAttributes [] registry {} (usageAttributes (String.ofList name)) =
      ([], registry) := by
    simp [readAttributes, usageAttributes]
  have other : String.ofList name ≠ "template" := by
    intro same
    rw [same] at usage
    revert usage
    decide
  simp only [readNodes, readNode, title, place, bare, other, if_false,
    readNodes_textDom [] registry {} angle line, elementNode, usage, if_true, List.append_nil]

/-- A usage with plain text inside is read as a usage with plain text inside, unless its name makes
it a block or a full document. -/
theorem parse_usage (named : Code.isTagName name = true)
    (usage : Markup.isComponentTag (String.ofList name) = true)
    (script : Text.asciiLowercase (String.ofList name) ≠ "script")
    (style : Text.asciiLowercase (String.ofList name) ≠ "style")
    (rootless : isFullDocument (usageText name content) = false)
    (angle : '<' ∉ content) (brace : '{' ∉ content) (literal : '&' ∉ content)
    (line : '\n' ∉ content) (carriage : '\r' ∉ content) (null : '\x00' ∉ content)
    (file : String) (registry : Registry) :
    parse (String.ofList (usageText name content)) file registry =
      .ok ({ nodes := [.component (String.ofList name) []
              (if content.isEmpty then [] else [.text (String.ofList content) {}]) {}]
             script := none
             styles := [] }, registry) := by
  obtain ⟨draft, draft_ok, between⟩ :=
    Draft.ofSource_usage named usage script style angle brace
  have markup := document_usage (Code.all_isTagNamePart named) angle literal line carriage null
  rw [← between.markup_eq] at markup
  rw [parse, String.toList_ofList, draft_ok]
  simp only [reportIn, rootless, Bool.false_eq_true, if_false, markup, between.captured_eq,
    between.scripts_eq, between.styles_eq, contentOfAll_usage,
    readNodes_usage usage angle line registry]
  simp [mergeScripts, Node.isBlankText]

end Template
end ReactiveTemplate
