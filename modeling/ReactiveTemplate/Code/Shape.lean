import ReactiveTemplate.Code.Lexer
import ReactiveTemplate.Script.Parameters
import ReactiveTemplate.Text.Blank
import ReactiveTemplate.Text.Offset
import ReactiveTemplate.Tree.Node

/-!
# The shape of an expression

What an expression can put on the page: a plain value, a choice between branches, a branch that may
be absent, a branch repeated for every item of a list, or a piece of markup alone.  The decision is
made from the structural tokens at the top level.
-/

namespace ReactiveTemplate
namespace Code

/-- A part of a code text, without blank characters at its ends. -/
structure Segment where
  /-- The characters of the part. -/
  text : List Char
  /-- Index of its first character in the code. -/
  start : Nat
  deriving DecidableEq, Repr

/-- The segment between two indices, with the blank characters at its ends left out. -/
def Segment.between (code : List Char) (start stop : Nat) : Segment :=
  let raw := Text.slice code start stop
  { text := Text.trim raw, start := start + Text.blankLead raw }

/-- The same segment, seen from a text in which the code starts at the given index. -/
def Segment.shift (segment : Segment) (count : Nat) : Segment :=
  { segment with start := segment.start + count }

/-- The kinds of output an expression can have. -/
inductive Output where
  /-- A plain value. -/
  | primitive
  /-- One of two branches. -/
  | conditional
  /-- A branch that may be absent. -/
  | optional
  /-- A branch repeated for every item of a list. -/
  | loop
  /-- A piece of markup. -/
  | fragment
  /-- Markup that cannot be enumerated. -/
  | unknown
  /-- None: the lexer crashes. -/
  | crash
  deriving DecidableEq, Repr

/-- The shape of an expression, with the segments it is made of. -/
inductive Shape where
  /-- A plain value. -/
  | primitive
  /-- One of two branches. -/
  | conditional (condition consequent alternate : Segment)
  /-- A branch that may be absent. -/
  | optional (condition branch : Segment)
  /-- A branch repeated for every item of a list. -/
  | loop (source : Segment) (binder : LoopBinder) (body : Segment)
  /-- A piece of markup. -/
  | fragment (markup : Segment)
  /-- Markup that cannot be enumerated. -/
  | unknown
  /-- No shape: the lexer crashes in the code or in a part of it. -/
  | crash
  deriving DecidableEq, Repr

/-- The kind of output of a shape. -/
def Shape.output : Shape → Output
  | .primitive => .primitive
  | .conditional .. => .conditional
  | .optional .. => .optional
  | .loop .. => .loop
  | .fragment _ => .fragment
  | .unknown => .unknown
  | .crash => .crash

/-- The same shape, seen from a text in which the code starts at the given index. -/
def Shape.shift (shape : Shape) (count : Nat) : Shape :=
  match shape with
  | .conditional condition consequent alternate =>
    .conditional (condition.shift count) (consequent.shift count) (alternate.shift count)
  | .optional condition branch => .optional (condition.shift count) (branch.shift count)
  | .loop source binder body => .loop (source.shift count) binder (body.shift count)
  | .fragment markup => .fragment (markup.shift count)
  | .primitive => .primitive
  | .unknown => .unknown
  | .crash => .crash

/-- Remove pairs of parentheses around the part from `start` to `stop`, and the blank characters
inside them.  Each pair makes the part shorter, so that the bound on their number is no limit. -/
def unwrapFrom (code : List Char) : Nat → Nat → Nat → Nat × Nat
  | 0, start, stop => (start, stop)
  | bound + 1, start, stop =>
    if start < stop ∧ code[start]? = some '(' ∧
        matching? (code.take stop) start = some (stop - 1) then
      let inner := Text.slice code (start + 1) (stop - 1)
      let first := start + 1 + Text.blankLead inner
      unwrapFrom code bound first (first + (Text.trim inner).length)
    else (start, stop)

/-- The part of a code text that is left without blank characters at the ends and without
parentheses around all of it.  For blank code the first index is the larger one. -/
def unwrap (code : List Char) : Nat × Nat :=
  unwrapFrom code code.length (Text.blankLead code) (Text.trimEnd code).length

/-- The operators that bind less tightly than a call. -/
def TokenKind.isLoose : TokenKind → Bool
  | .andAnd | .orOr | .nullish | .question | .colon | .comma | .arrow => true
  | _ => false

/-- The index of the last closing brace of a block that only returns, and the segment returned:
after the opening brace, the word "return" and some white space. -/
def returnedSegment? (body : Segment) : Option Segment := do
  let inner ← match body.text with
    | '{' :: rest => some rest
    | _ => none
  let lead := Text.blankLead inner
  let afterWord ← match inner.drop lead with
    | 'r' :: 'e' :: 't' :: 'u' :: 'r' :: 'n' :: rest => some rest
    | _ => none
  let gap := Text.blankLead afterWord
  if gap = 0 then none
  else
    let value := afterWord.drop gap
    if value.getLast? = some '}' then
      let value := Text.trimEnd value.dropLast
      let value := if value.getLast? = some ';' then value.dropLast else value
      some { text := Text.trim value, start := body.start + 1 + lead + 6 + gap }
    else none

/-- The body of a function: what a block returns, or else all that follows the arrow. -/
def loopBody? (whole : Segment) : Option Segment :=
  if whole.text.head? = some '{' then returnedSegment? whole else some whole

/-- The function that a loop applies to each item, whose arguments have the given tokens. -/
def readFunction? (arguments : List Char) (top : List Token) (start stop : Nat) (code : List Char)
    (source : Segment) : Option Shape := do
  let arrow ← top.find? (·.kind == .arrow)
  if top.any (fun t => t.kind == .comma && arrow.start < t.start) then none
  else
    let params := Text.trim (arguments.take arrow.start)
    let params :=
      if params.head? = some '(' ∧ 2 ≤ params.length ∧ params.getLast? = some ')' then
        (params.drop 1).dropLast
      else params
    let parameters ← Script.loopParameters? params
    let item ← parameters.texts.head?
    let body ← loopBody? (Segment.between code (start + arrow.stop) stop)
    match findsMarkup? body.text with
    | some true => some (.loop source ⟨item, parameters.texts[1]?, parameters.names⟩ body)
    | some false => none
    | none => some .crash

/-- The function that a loop applies to each item, read from the arguments of the call. -/
def loopFunction? (code : List Char) (start stop : Nat) (source : Segment) : Option Shape :=
  let arguments := Text.slice code start stop
  match scan? arguments with
  | none => some .crash
  | some all => readFunction? arguments (topLevel all) start stop code source

/-- A loop: a call of "map" that is the last thing in the code, with no loose operator before. -/
def findLoop (code : List Char) (before : List Token) : List Token → Option Shape
  | [] => none
  | token :: rest =>
    if token.kind = .mapCall then
      if before.any (·.kind.isLoose) then none
      else
        match Text.find? ['('] (code.drop token.stop) with
        | none => none
        | some distance =>
          let opening := token.stop + distance
          match matching? code opening with
          | none => none
          | some close =>
            if close + 1 = code.length then
              match loopFunction? code (opening + 1) close (Segment.between code 0 token.start) with
              | some shape => some shape
              | none => findLoop code (before ++ [token]) rest
            else findLoop code (before ++ [token]) rest
    else findLoop code (before ++ [token]) rest

/-- The colon that belongs to a question mark, where `nesting` further ones are open. -/
def pairedColon (nesting : Nat) : List Token → Option Token
  | [] => none
  | token :: rest =>
    match token.kind with
    | .question => pairedColon (nesting + 1) rest
    | .colon => if nesting = 0 then some token else pairedColon (nesting - 1) rest
    | _ => pairedColon nesting rest

/-- Whether one of the branches contains markup; those behind it are not read. -/
def anyMarkup? : List Segment → Option Bool
  | [] => some false
  | branch :: rest =>
    match findsMarkup? branch.text with
    | some false => anyMarkup? rest
    | found => found

/-- The segments of a choice: the first question mark, with no comma or arrow before it, and its
colon. -/
def splitChoice? (code : List Char) (top : List Token) : Option (Segment × Segment × Segment) := do
  let before := top.takeWhile (·.kind != .question)
  match top.drop before.length with
  | [] => none
  | question :: after =>
    if before.any (fun t => t.kind == .comma || t.kind == .arrow) then none
    else
      let colon ← pairedColon 0 after
      some (Segment.between code 0 question.start,
        Segment.between code question.stop colon.start,
        Segment.between code colon.stop code.length)

/-- A choice, with markup in one of its branches. -/
def findChoice (code : List Char) (top : List Token) : Option Shape := do
  let (condition, consequent, alternate) ← splitChoice? code top
  match anyMarkup? [consequent, alternate] with
  | some true => some (.conditional condition consequent alternate)
  | some false => none
  | none => some .crash

/-- The operators next to which a conjunction is no guard. -/
def TokenKind.excludesGuard : TokenKind → Bool
  | .orOr | .nullish | .question | .comma | .arrow => true
  | _ => false

/-- A guard: the last conjunction, with markup after it and none before it. -/
def findGuard (code : List Char) (top : List Token) : Option Shape := do
  if top.any (·.kind.excludesGuard) then none
  else
    let conjunction ← top.reverse.find? (·.kind == .andAnd)
    let condition := Segment.between code 0 conjunction.start
    let branch := Segment.between code conjunction.stop code.length
    match findsMarkup? branch.text with
    | some true =>
      match findsMarkup? condition.text with
      | some false => some (.optional condition branch)
      | some true => none
      | none => some .crash
    | some false => none
    | none => some .crash

/-- The element that is all of the code, if one is. -/
def shapeOfElement (code : List Char) (top : List Token) : Shape :=
  match top with
  | [only] =>
    if only.kind = .markup ∧ only.start = 0 ∧ only.stop = code.length then
      .fragment (Segment.between code 0 code.length)
    else .unknown
  | _ => .unknown

/-- The shape of code that contains markup, by its top-level tokens. -/
def shapeOfMarkup (code : List Char) (top : List Token) : Shape :=
  ((findLoop code [] top).orElse fun _ =>
    (findChoice code top).orElse fun _ => findGuard code top).getD (shapeOfElement code top)

/-- The shape of code that has no parentheses around it. -/
def analyzeBare (code : List Char) : Shape :=
  match scan? code with
  | none => .crash
  | some all => if !hasMarkup all then .primitive else shapeOfMarkup code (topLevel all)

/-- The shape of an expression. -/
def analyze (code : List Char) : Shape :=
  let (start, stop) := unwrap code
  if stop ≤ start then .primitive else (analyzeBare (Text.slice code start stop)).shift start

end Code
end ReactiveTemplate
