import ReactiveTemplate.Proofs.Code.Locality

/-!
# Passages of markup

The end of an element is found by one pass over its text.  A passage is a piece of that text which
takes the reader from one state to another, whatever follows: plain text, code in braces, a quoted
value, an opening tag, a closing tag.  Passages compose, so that the end of an element is known once
its parts are.
-/

namespace ReactiveTemplate
namespace Code

variable {before middle after state : MarkupState} {text first second : List Char}

/-- Reading the text leads from one state to the other, whatever follows. -/
def Passes (before : MarkupState) (text : List Char) (after : MarkupState) : Prop :=
  ∀ more, markupEndFrom before (text ++ more) = (markupEndFrom after more).map (· + text.length)

/-- The markup ends where the text does, whatever follows. -/
def Ends (before : MarkupState) (text : List Char) : Prop :=
  ∀ more, markupEndFrom before (text ++ more) = some text.length

namespace Passes

theorem nil (state : MarkupState) : Passes state [] state := by
  intro more
  simp

theorem append (left : Passes before first middle) (right : Passes middle second after) :
    Passes before (first ++ second) after := by
  intro more
  rw [List.append_assoc, left, right, Option.map_map, List.length_append]
  refine congrArg (Option.map · _) ?_
  funext length
  simp only [Function.comp_apply]
  omega

theorem ends (left : Passes before first middle) (right : Ends middle second) :
    Ends before (first ++ second) := by
  intro more
  rw [List.append_assoc, left, right, Option.map_some, List.length_append, Nat.add_comm]

/-- A single character that the reader needs no look ahead for. -/
theorem single {c : Char} (fresh : before.skip = 0)
    (step : ∀ rest, before.step c rest = .next after) : Passes before [c] after := by
  intro more
  rw [List.singleton_append, markupEndFrom_next fresh (step more), List.length_singleton]

/-- Characters that change nothing. -/
theorem each (fresh : state.skip = 0)
    (still : ∀ c ∈ text, ∀ rest, state.step c rest = .next state) : Passes state text state := by
  induction text with
  | nil => exact nil state
  | cons c rest induction =>
      have head : Passes state [c] state := single fresh (still c List.mem_cons_self)
      exact head.append (induction fun c member => still c (List.mem_cons_of_mem _ member))

/-- Characters that have been read already. -/
theorem skipped (state : MarkupState) (text : List Char) :
    Passes { state with skip := text.length } text { state with skip := 0 } := by
  intro more
  induction text with
  | nil => simp
  | cons c rest induction =>
      rw [List.cons_append, markupEndFrom_skip (Nat.succ_pos _)]
      simp only [MarkupState.tick, List.length_cons, Nat.add_sub_cancel]
      rw [induction, Option.map_map]
      rfl

/-- Code in braces. -/
theorem code {code : List Char} (fresh : state.skip = 0)
    (brace : ∀ rest, state.step '{' rest = .code)
    (closing : closingFrom .afterOpening (code ++ ['}']) = some code.length) :
    Passes state ('{' :: (code ++ ['}'])) state := by
  intro more
  have inside := skipped state (code ++ ['}']) more
  rw [List.length_append, List.length_singleton] at inside
  have same : { state with skip := 0 } = state := by
    rw [← fresh]
  rw [List.cons_append,
    markupEndFrom_code fresh (brace _) (closingFrom_append more (code ++ ['}']) closing), inside,
    same, Option.map_map]
  simp only [List.length_cons, List.length_append, List.length_nil]
  rfl

end Passes

/-! ## Text and values -/

variable {depth : Nat} {void : Bool}

/-- Text without an angle bracket and a brace. -/
theorem Passes.plain (angle : '<' ∉ text) (brace : '{' ∉ text) :
    Passes { depth } text { depth } := by
  apply Passes.each rfl
  intro c member rest
  have other : c ≠ '<' ∧ c ≠ '{' := ⟨ne_of_mem_of_not_mem member angle,
    ne_of_mem_of_not_mem member brace⟩
  simp [MarkupState.step, other]

theorem Passes.contentCode {code : List Char}
    (closing : closingFrom .afterOpening (code ++ ['}']) = some code.length) :
    Passes { depth } ('{' :: (code ++ ['}'])) { depth } := by
  apply Passes.code rfl _ closing
  intro rest
  simp [MarkupState.step]

/-- The state inside an opening tag, behind the name. -/
def insideTag (depth : Nat) (void : Bool) : MarkupState := { mode := .tag void, depth }

theorem Passes.tagCode {code : List Char}
    (closing : closingFrom .afterOpening (code ++ ['}']) = some code.length) :
    Passes (insideTag depth void) ('{' :: (code ++ ['}'])) (insideTag depth void) := by
  apply Passes.code rfl _ closing
  intro rest
  simp [insideTag, MarkupState.step]

/-- The characters of an opening tag that the reader passes over. -/
def isTagFiller (c : Char) : Bool :=
  c != '"' && c != '\x27' && c != '{' && c != '/' && c != '>'

theorem Passes.filler (fills : text.all isTagFiller = true) :
    Passes (insideTag depth void) text (insideTag depth void) := by
  apply Passes.each rfl
  intro c member rest
  have other := List.all_eq_true.mp fills c member
  simp only [isTagFiller, Bool.and_eq_true, bne_iff_ne] at other
  simp [insideTag, MarkupState.step, other]

/-- A value in quotes. -/
theorem Passes.quotedBy {quote : Char} (quotes : quote = '"' ∨ quote = '\x27')
    (unquoted : quote ∉ text) :
    Passes (insideTag depth void) (quote :: (text ++ [quote])) (insideTag depth void) := by
  let inside : MarkupState := { mode := .quoted quote void, depth }
  have opening : Passes (insideTag depth void) [quote] inside :=
    Passes.single rfl fun rest => by simp [insideTag, inside, MarkupState.step, quotes]
  have value : Passes inside text inside := by
    apply Passes.each rfl
    intro c member rest
    have other : c ≠ quote := ne_of_mem_of_not_mem member unquoted
    simp [inside, MarkupState.step, other]
  have closing : Passes inside [quote] (insideTag depth void) :=
    Passes.single rfl fun rest => by simp [insideTag, inside, MarkupState.step]
  exact opening.append (value.append closing)

/-- A value in double quotes. -/
theorem Passes.quoted (unquoted : '"' ∉ text) :
    Passes (insideTag depth void) ('"' :: (text ++ ['"'])) (insideTag depth void) :=
  .quotedBy (.inl rfl) unquoted

/-! ## Tags -/

/-- The text is a tag name. -/
def isTagName : List Char → Bool
  | first :: rest => first.isAlpha && rest.all isTagNamePart
  | [] => false

theorem all_isTagNamePart {name : List Char} (named : isTagName name = true) :
    name.all isTagNamePart = true := by
  cases name with
  | nil => rfl
  | cons first rest =>
      rw [isTagName, Bool.and_eq_true] at named
      simp [isTagNamePart, Char.isAlphanum, named]

theorem startsTag_of_isTagName {name : List Char} (named : isTagName name = true)
    (more : List Char) : startsTag (name ++ more) = true := by
  cases name with
  | nil => cases named
  | cons first rest =>
      rw [isTagName, Bool.and_eq_true] at named
      simp [startsTag, named]

/-- The text goes on, with a character that belongs to no name of the given kind. -/
def Parts (kind : Char → Bool) (text : List Char) : Prop :=
  ∃ c rest, text = c :: rest ∧ kind c = false

theorem Parts.append {kind : Char → Bool} (parts : Parts kind text) (more : List Char) :
    Parts kind (text ++ more) := by
  obtain ⟨c, rest, rfl, other⟩ := parts
  exact ⟨c, rest ++ more, rfl, other⟩

/-- A name is read up to the first character that belongs to no name. -/
theorem Parts.takeWhile_append {kind : Char → Bool} {name : List Char} (parts : Parts kind text)
    (all : name.all kind = true) : (name ++ text).takeWhile kind = name := by
  obtain ⟨c, rest, rfl, other⟩ := parts
  rw [List.takeWhile_append_of_pos (List.all_eq_true.mp all),
    List.takeWhile_cons_of_neg (by simp [other]), List.append_nil]

/-- The angle bracket and the name of an opening tag. -/
theorem markupEndFrom_enterTag {name : List Char} (named : isTagName name = true)
    (parts : Parts isTagNamePart text) :
    markupEndFrom { depth } ('<' :: (name ++ text)) =
      (markupEndFrom (insideTag depth (Markup.isVoidElement (String.ofList name))) text).map
        (· + (name.length + 1)) := by
  have starts : startsTag (name ++ text) = true := startsTag_of_isTagName named text
  have slash : (name ++ text).head? ≠ some '/' := by
    intro slash
    cases whole : name ++ text with
    | nil => simp [whole] at slash
    | cons first rest =>
        rw [whole] at slash starts
        cases slash
        cases starts
  have step : MarkupState.step { depth } '<' (name ++ text) =
      .next { insideTag depth (Markup.isVoidElement (String.ofList name)) with
        skip := name.length } := by
    have whole := parts.takeWhile_append (all_isTagNamePart named)
    simp only [MarkupState.step, slash, starts, MarkupState.enterTag, whole, insideTag, and_false,
      and_self, if_true, if_false]
  rw [markupEndFrom_next rfl step, Passes.skipped, Option.map_map]
  rfl

theorem Passes.enterTag {name : List Char} (named : isTagName name = true)
    (parts : Parts isTagNamePart text)
    (onwards : Passes (insideTag depth (Markup.isVoidElement (String.ofList name))) text after) :
    Passes { depth } ('<' :: (name ++ text)) after := by
  intro more
  rw [List.cons_append, List.append_assoc, markupEndFrom_enterTag named (parts.append more),
    onwards, Option.map_map]
  refine congrArg (Option.map · _) ?_
  funext length
  simp only [Function.comp_apply, List.length_cons, List.length_append]
  omega

theorem Ends.enterTag {name : List Char} (named : isTagName name = true)
    (parts : Parts isTagNamePart text)
    (onwards : Ends (insideTag depth (Markup.isVoidElement (String.ofList name))) text) :
    Ends { depth } ('<' :: (name ++ text)) := by
  intro more
  rw [List.cons_append, List.append_assoc, markupEndFrom_enterTag named (parts.append more),
    onwards, Option.map_some, List.length_cons, List.length_append]
  refine congrArg some ?_
  omega

/-- The end of an opening tag with children behind it. -/
theorem Passes.leaveTag : Passes (insideTag depth false) ['>'] { depth := depth + 1 } :=
  Passes.single rfl fun rest => by simp [insideTag, MarkupState.step]

/-- The end of the tag of an element without children, inside another one. -/
theorem Passes.leaveVoid : Passes (insideTag (depth + 1) true) ['>'] { depth := depth + 1 } :=
  Passes.single rfl fun rest => by simp [insideTag, MarkupState.step]

/-- The end of the tag of an element without children. -/
theorem Ends.leaveVoid : Ends (insideTag 0 true) ['>'] := by
  intro more
  exact markupEndFrom_done rfl (by simp [insideTag, MarkupState.step])

/-- The text of a closing tag. -/
def closingTag (name : List Char) : List Char := '<' :: '/' :: (name ++ ['>'])

/-- A closing tag up to its last character. -/
theorem Passes.closeTag {name : List Char} (named : name.all isTagNamePart = true) :
    Passes { depth } ('<' :: '/' :: name) { mode := .closeTag, depth } := by
  have inside : Passes { mode := .closeTag, depth } ('/' :: name) { mode := .closeTag, depth } := by
    apply Passes.each rfl
    intro c member rest
    have other : c ≠ '>' := by
      rintro rfl
      rcases List.mem_cons.mp member with slash | member
      · cases slash
      · cases List.all_eq_true.mp named _ member
    simp [MarkupState.step, other]
  intro more
  have step : MarkupState.step { depth } '<' ('/' :: name ++ more) =
      .next { mode := .closeTag, depth } := by
    simp [MarkupState.step]
  rw [List.cons_append, markupEndFrom_next rfl step, inside, Option.map_map]
  rfl

/-- The closing tag of an element inside another one. -/
theorem Passes.closingTag {name : List Char} (named : isTagName name = true) :
    Passes { depth := depth + 2 } (closingTag name) { depth := depth + 1 } := by
  have last : Passes { mode := .closeTag, depth := depth + 2 } ['>'] { depth := depth + 1 } :=
    Passes.single rfl fun rest => by simp [MarkupState.step]
  exact (Passes.closeTag (all_isTagNamePart named)).append last

/-- The closing tag of the outermost element. -/
theorem Ends.closingTag {name : List Char} (named : isTagName name = true) :
    Ends { depth := 1 } (closingTag name) := by
  have last : Ends { mode := .closeTag, depth := 1 } ['>'] := fun more =>
    markupEndFrom_done rfl (by simp [MarkupState.step])
  exact (Passes.closeTag (all_isTagNamePart named)).ends last

end Code
end ReactiveTemplate
