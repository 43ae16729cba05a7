import ReactiveTemplate.Markup.Rules
import ReactiveTemplate.Proofs.Markup.Token

/-!
# The document of one element

A text that is one element without rules of its own, with plain text inside, makes a document with
that element in its body.  The opening tag leads through all modes up to the body, and opens the
root, the head and the body on its way; each character of the text goes to the end of the element;
the closing tag closes it again.
-/

namespace ReactiveTemplate
namespace Markup
namespace Construction

/-- The names that some rule for tags mentions. -/
def ruledNames : List String :=
  headElements ++ blockElements ++ headings ++ closableElements ++ formattingElements ++
    impliedEnds ++ ["a", "applet", "area", "body", "br", "button", "caption", "col", "colgroup",
      "embed", "form", "frame", "frameset", "head", "hr", "html", "iframe", "image", "img", "input",
      "keygen", "listing", "marquee", "math", "nobr", "noembed", "noscript", "object", "param",
      "plaintext", "pre", "select", "source", "svg", "table", "tbody", "td", "textarea", "tfoot",
      "th", "thead", "tr", "track", "wbr", "xmp"]

variable {c : Construction} {tag : Tag}

/-! ## Rules -/

theorem bodyStart_ordinary (ordinary : tag.name ∉ ruledNames) :
    c.bodyStart tag = (c.reopenFormatting.openTag tag).done := by
  simp [ruledNames, headElements, blockElements, headings, closableElements, formattingElements,
    impliedEnds] at ordinary
  simp [bodyStart, bodyBlock?, bodyFormatting?, bodyInline, headElements, blockElements, headings,
    formattingElements, ordinary]

theorem bodyEnd_ordinary (ordinary : tag.name ∉ ruledNames) :
    c.bodyEnd tag = (c.closeOrdinary tag.name).done := by
  simp [ruledNames, headElements, blockElements, headings, closableElements, formattingElements,
    impliedEnds] at ordinary
  simp [bodyEnd, closableElements, headings, formattingElements, ordinary]

/-- An ordinary tag forces the root, the head and the body. -/
theorem forces_ordinary (ordinary : tag.name ∉ ruledNames) :
    tag.name ≠ "html" ∧ tag.name ≠ "head" ∧ tag.name ≠ "body" ∧ tag.name ≠ "frameset" ∧
      tag.name ≠ "noscript" ∧ tag.name ≠ "template" ∧ tag.name ∉ headElements := by
  simp [ruledNames] at ordinary
  have template : tag.name ≠ "template" := by
    intro same
    simp [same, headElements] at ordinary
  simp [ordinary, template]

theorem meetsForeign_of_html (home : (c.nameOf c.current).1 = .html) (token : Token) :
    c.meetsForeign token = false := by
  have native : c.isForeign = false := by
    rw [isForeign, home, bne_self_eq_false, Bool.and_false]
  unfold meetsForeign
  dsimp only
  rw [if_pos (by simp [native])]

/-- A token that is handed on to the rules of another mode. -/
theorem takeRounds_again {next : Construction} {token : Token} {rounds : Nat}
    (home : (c.nameOf c.current).1 = .html)
    (reply : c.byMode token = { next, again := true }) :
    c.takeRounds token (rounds + 1) = next.takeRounds token rounds := by
  rw [takeRounds, meetsForeign_of_html home, if_neg Bool.false_ne_true, reply]
  rfl

/-- A token that is used up. -/
theorem takeRounds_done {next : Construction} {token : Token} {rounds : Nat}
    (home : (c.nameOf c.current).1 = .html) (reply : c.byMode token = next.done) :
    c.takeRounds token (rounds + 1) = (next, .proceed) := by
  rw [takeRounds, meetsForeign_of_html home, if_neg Bool.false_ne_true, reply]
  rfl

/-! ## Stages -/

/-- The document itself. -/
def rootEntry : Entry := { content := .root, children := [1] }

/-- The root element with the given children. -/
def htmlEntry (children : List Nat) : Entry :=
  { content := .element .html "html" [] none, parent := some 0, children }

/-- The head. -/
def headEntry : Entry := { content := .element .html "head" [] none, parent := some 1 }

/-- The body with the given children. -/
def bodyEntry (children : List Nat) : Entry :=
  { content := .element .html "body" [] none, parent := some 1, children }

/-- Before the root element. -/
def beforeRoot : Construction := { old := true, mode := .beforeHtml }

/-- The root element is open. -/
def atHead : Construction :=
  { old := true, mode := .beforeHead, store := ⟨#[rootEntry, htmlEntry []]⟩, opened := [1] }

/-- The head is open. -/
def insideHead : Construction :=
  { old := true, mode := .inHead, store := ⟨#[rootEntry, htmlEntry [2], headEntry]⟩,
    opened := [2, 1], head := some 2 }

/-- The head is closed. -/
def behindHead : Construction := { insideHead with mode := .afterHead, opened := [1] }

/-- The body is open. -/
def insideBody : Construction :=
  { old := true, mode := .inBody
    store := ⟨#[rootEntry, htmlEntry [2, 3], headEntry, bodyEntry []]⟩
    opened := [3, 1], head := some 2 }

/-- The nodes of a document with one element and the given text in it, backwards. -/
def elementStore (name : String) (attributes : List (String × String)) : List Char → Store
  | [] =>
    ⟨#[rootEntry, htmlEntry [2, 3], headEntry, bodyEntry [4],
      { content := .element .html name attributes none, parent := some 3 }]⟩
  | c :: rest =>
    ⟨#[rootEntry, htmlEntry [2, 3], headEntry, bodyEntry [4],
      { content := .element .html name attributes none, parent := some 3, children := [5] },
      { content := .text (c :: rest), parent := some 4 }]⟩

/-- The element is open. -/
def insideElement (name : String) (attributes : List (String × String)) (reversed : List Char)
    (framesAllowed : Bool) : Construction :=
  { old := true, mode := .inBody, store := elementStore name attributes reversed
    opened := [4, 3, 1], head := some 2, framesAllowed }

/-- The element is closed. -/
def behindElement (name : String) (attributes : List (String × String)) (reversed : List Char)
    (framesAllowed : Bool) : Construction :=
  { insideElement name attributes reversed framesAllowed with opened := [3, 1] }

/-! ## The opening tag -/

theorem byMode_beforeRoot (ordinary : tag.name ∉ ruledNames) :
    beforeRoot.byMode (.startTag tag) = { next := atHead, again := true } := by
  have opened : beforeRoot.openRoot [] = { atHead with mode := .beforeHtml } := rfl
  have rule : beforeRoot.byMode (.startTag tag) = beforeRoot.beforeHtml (.startTag tag) := rfl
  simp [rule, beforeHtml, forces_ordinary ordinary, opened, retry, atHead]

theorem byMode_atHead (ordinary : tag.name ∉ ruledNames) :
    atHead.byMode (.startTag tag) = { next := insideHead, again := true } := by
  have opened : atHead.openTag ⟨"head", [], false⟩ =
      { insideHead with mode := .beforeHead, head := none } := rfl
  have rule : atHead.byMode (.startTag tag) = atHead.beforeHead (.startTag tag) := rfl
  simp [rule, beforeHead, forces_ordinary ordinary, opened, retry, insideHead, current]

theorem byMode_insideHead (ordinary : tag.name ∉ ruledNames) :
    insideHead.byMode (.startTag tag) = { next := behindHead, again := true } := by
  have rule : insideHead.byMode (.startTag tag) = insideHead.inHead (.startTag tag) := rfl
  have left : insideHead.pop.retry .afterHead = { next := behindHead, again := true } := rfl
  simp [rule, inHead, forces_ordinary ordinary, left]

theorem byMode_behindHead (ordinary : tag.name ∉ ruledNames) :
    behindHead.byMode (.startTag tag) = { next := insideBody, again := true } := by
  have opened : behindHead.openNamed "body" = { insideBody with mode := .afterHead } := rfl
  have rule : behindHead.byMode (.startTag tag) = behindHead.afterHead (.startTag tag) := rfl
  simp [rule, afterHead, forces_ordinary ordinary, opened, retry, insideBody]

theorem byMode_insideBody (ordinary : tag.name ∉ ruledNames) :
    insideBody.byMode (.startTag tag) = (insideElement tag.name tag.attributes [] true).done := by
  have rule : insideBody.byMode (.startTag tag) = insideBody.bodyStart tag := rfl
  have same : insideBody.reopenFormatting = insideBody := rfl
  have opened : insideBody.openTag tag = insideElement tag.name tag.attributes [] true := by
    obtain ⟨-, -, -, -, -, template, -⟩ := forces_ordinary ordinary
    simp only [openTag, insertOpen, insertClosed, create, template, and_false, if_false]
    rfl
  rw [rule, bodyStart_ordinary ordinary, same, opened]

/-- The opening tag of an ordinary element opens everything around it too. -/
theorem take_openingTag (ordinary : tag.name ∉ ruledNames) :
    take {} (.startTag tag) = (insideElement tag.name tag.attributes [] true, .proceed) := by
  have start : byMode {} (.startTag tag) = { next := beforeRoot, again := true } := rfl
  have rounds : take {} (.startTag tag) = takeRounds {} (.startTag tag) (58 + 6) := rfl
  rw [rounds, takeRounds_again rfl start, takeRounds_again rfl (byMode_beforeRoot ordinary),
    takeRounds_again rfl (byMode_atHead ordinary),
    takeRounds_again rfl (byMode_insideHead ordinary),
    takeRounds_again rfl (byMode_behindHead ordinary),
    takeRounds_done rfl (byMode_insideBody ordinary)]

/-! ## Text and the closing tag -/

variable {name : String} {attributes : List (String × String)} {reversed : List Char}
  {framesAllowed : Bool}

theorem nameOf_element : (insideElement name attributes reversed framesAllowed).nameOf 4 =
    (.html, name) := by
  cases reversed with
  | nil => rfl
  | cons c rest => rfl

/-- A character goes to the end of the text. -/
theorem addChar_insideElement (char : Char) :
    (insideElement name attributes reversed framesAllowed).addChar char =
      insideElement name attributes (char :: reversed) framesAllowed := by
  cases reversed with
  | nil => rfl
  | cons c rest => rfl

theorem take_character (name : String) (attributes : List (String × String))
    (reversed : List Char) (framesAllowed : Bool) {char : Char} (line : char ≠ '\n') :
    ∃ framesAllowed',
      take (insideElement name attributes reversed framesAllowed) (.character char) =
        (insideElement name attributes (char :: reversed) framesAllowed', .proceed) := by
  let c := insideElement name attributes reversed framesAllowed
  have rounds : take c (.character char) = takeRounds c (.character char) (87 + 1) := by
    unfold take
    split
    · rename_i same
      cases same
    · rename_i same
      cases same
      exact absurd rfl line
    · rfl
  have home : (c.nameOf c.current).1 = .html := congrArg Prod.fst nameOf_element
  have rule : c.byMode (.character char) =
      ((if isFiller char then c else c.forbidFrames).addChar char).done := rfl
  refine ⟨if isFiller char then framesAllowed else false, ?_⟩
  rw [rounds]
  apply takeRounds_done home
  rw [rule]
  split
  · rw [addChar_insideElement]
  · exact congrArg done (addChar_insideElement char)

/-- The closing tag closes the element. -/
theorem take_closingTag (ordinary : name ∉ ruledNames) (attributes : List (String × String))
    (reversed : List Char) (framesAllowed : Bool) :
    take (insideElement name attributes reversed framesAllowed) (.endTag ⟨name, [], false⟩) =
      (behindElement name attributes reversed framesAllowed, .proceed) := by
  let c := insideElement name attributes reversed framesAllowed
  have opened : c.opened = [4, 3, 1] := rfl
  have own : c.isNamed name 4 = true := by
    simp [isNamed, isOneOf, c, nameOf_element]
  have reached : reachable (c.isNamed name) (c.isOneOf specialElements) c.opened = true := by
    rw [opened, reachable, own, Bool.true_or]
  have kept : c.closeImpliedExcept name = c := by
    have lasting : ¬c.isOneOf (impliedEnds.filter (· != name)) 4 = true := by
      simp [isOneOf, c, nameOf_element]
    rw [closeImpliedExcept, closeImplied, opened, List.dropWhile_cons_of_neg lasting]
    rfl
  have closed : c.closeOrdinary name = behindElement name attributes reversed framesAllowed := by
    rw [closeOrdinary, if_pos reached, kept, popNamed, popThrough, opened,
      List.dropWhile_cons_of_neg (by simp [own])]
    rfl
  have home : (c.nameOf c.current).1 = .html := congrArg Prod.fst nameOf_element
  have rounds : take c (.endTag ⟨name, [], false⟩) =
      takeRounds c (.endTag ⟨name, [], false⟩) (87 + 1) := rfl
  have rule : c.byMode (.endTag ⟨name, [], false⟩) = c.bodyEnd ⟨name, [], false⟩ := rfl
  rw [rounds]
  apply takeRounds_done home
  rw [rule, bodyEnd_ordinary ordinary, closed]

/-- Nothing is left to do at the end. -/
theorem take_ending (name : String) (attributes : List (String × String)) (reversed : List Char)
    (framesAllowed : Bool) :
    take (behindElement name attributes reversed framesAllowed) .ending =
      (behindElement name attributes reversed framesAllowed, .proceed) := by
  let c := behindElement name attributes reversed framesAllowed
  have rounds : take c .ending = takeRounds c .ending (79 + 1) := rfl
  have home : (c.nameOf c.current).1 = .html := by
    cases reversed with
    | nil => rfl
    | cons first rest => rfl
  rw [rounds]
  exact takeRounds_done home rfl

/-! ## The whole document -/

/-- Plain text goes to the element, character by character. -/
theorem runFrom_text {s : TokenizerState} {text : List Char} (ready : s.Ready)
    (angle : '<' ∉ text) (literal : '&' ∉ text) (null : '\x00' ∉ text) (line : '\n' ∉ text)
    (name : String) (attributes : List (String × String)) (reversed : List Char)
    (framesAllowed : Bool) (more : List Char) :
    ∃ framesAllowed',
      consumer.runFrom s (insideElement name attributes reversed framesAllowed) (text ++ more) =
        consumer.runFrom s (insideElement name attributes (text.reverse ++ reversed) framesAllowed')
          more := by
  induction text generalizing reversed framesAllowed with
  | nil => exact ⟨framesAllowed, rfl⟩
  | cons c rest induction =>
      simp only [List.mem_cons, not_or] at angle literal null line
      obtain ⟨allowed, taken⟩ := take_character name attributes reversed framesAllowed
        (Ne.symm line.1)
      have first := (ready.character (Ne.symm angle.1) (Ne.symm literal.1)
        (Ne.symm null.1)).proceed consumer taken (rest ++ more)
      obtain ⟨allowed', others⟩ :=
        induction angle.2 literal.2 null.2 line.2 (c :: reversed) allowed
      refine ⟨allowed', ?_⟩
      rw [List.reverse_cons, List.append_assoc]
      exact first.trans others

end Construction

theorem normalizeLines_eq {text : List Char} (unix : '\r' ∉ text) : normalizeLines text = text := by
  induction text with
  | nil => rfl
  | cons c rest induction =>
      rw [List.mem_cons, not_or] at unix
      rw [normalizeLines, induction unix.2]
      · exact fun _ same => absurd same.symm unix.1
      · exact fun same => absurd same.symm unix.1

/-- The node of a text, if there is any. -/
def textDom (text : List Char) : List Dom :=
  if text.isEmpty then [] else [.text (String.ofList text)]

/-- A document with one element in its body. -/
def documentWith (element : Dom) : List Dom :=
  [.element .html "html" [] [.element .html "head" [] [], .element .html "body" [] [element]]]

theorem finish_elementStore (name : String) (attributes : List (String × String))
    (text : List Char) :
    (Construction.elementStore name attributes text.reverse).finish =
      documentWith (.element .html name attributes (textDom text)) := by
  cases reversed : text.reverse with
  | nil =>
      rw [List.reverse_eq_nil_iff.mp reversed]
      rfl
  | cons c rest =>
      have text_eq : text = (c :: rest).reverse := by
        rw [← reversed, List.reverse_reverse]
      have shown : textDom text = [.text (String.ofList (c :: rest).reverse)] := by
        rw [textDom, text_eq, if_neg (by simp)]
      rw [shown]
      rfl

/-- A text that is one ordinary element makes a document with that element in its body. -/
theorem document_element {name : String} {attributes : List (String × String)} {text : List Char}
    (ordinary : name ∉ Construction.ruledNames) (named : isPlainTagName name.toList = true)
    (plain : attributes.all isPlainAttribute = true) (distinct : (attributes.map (·.1)).Nodup)
    (angle : '<' ∉ text) (literal : '&' ∉ text) (null : '\x00' ∉ text) (line : '\n' ∉ text)
    (unix : '\r' ∉ openingTag name attributes ++ (text ++ closingTag name)) :
    document (openingTag name attributes ++ (text ++ closingTag name)) =
      documentWith (.element .html name attributes (textDom text)) := by
  have prepared : prepare (openingTag name attributes ++ (text ++ closingTag name)) =
      openingTag name attributes ++ (text ++ closingTag name) := normalizeLines_eq unix
  have ready : ({} : TokenizerState).Ready := ⟨rfl, rfl⟩
  obtain ⟨s₁, ready₁, opening⟩ := ready.openingTag named plain distinct
  obtain ⟨s₂, ready₂, closing⟩ := ready₁.closingTag named
  obtain ⟨allowed, content⟩ := Construction.runFrom_text ready₁ angle literal null line name
    attributes [] true (closingTag name)
  have opened : Construction.consumer.take {} (.startTag ⟨name, attributes, false⟩) =
      (Construction.insideElement name attributes [] true, .proceed) :=
    Construction.take_openingTag ordinary
  have first := opening.proceed Construction.consumer opened (text ++ closingTag name)
  have last := closing.proceed Construction.consumer
    (Construction.take_closingTag ordinary attributes text.reverse allowed) []
  rw [List.append_nil] at content last
  have ended : s₂.finish = [.ending] := by
    rw [TokenizerState.finish, ready₂.reading]
    rfl
  have rest : Construction.consumer.takeAll s₂
      (Construction.behindElement name attributes text.reverse allowed) [.ending] =
        (s₂, Construction.behindElement name attributes text.reverse allowed) := by
    have taken := Construction.take_ending name attributes text.reverse allowed
    simp only [Consumer.takeAll, Construction.consumer, taken]
  rw [document, Consumer.run, prepared, first, content, last, Consumer.runFrom, ended, rest]
  exact finish_elementStore name attributes text

end Markup
end ReactiveTemplate
