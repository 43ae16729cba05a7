import ReactiveTemplate.Markup.Tag

/-!
# Structural tokens of code

The lexer finds the operators and brackets that decide the shape of an expression.  It reads one
character at a time with an explicit state, so that operators inside strings, template literals,
comments, regular expressions and embedded markup are passed over.  Every token carries the
bracket depth outside of it; depth zero is the top level.

Code and markup contain each other: markup holds code in braces, and code holds markup wherever an
operand may stand.  `closingFrom` and `markupEndFrom` read the two, each on the rest of the text.

A closing bracket at depth zero leaves the depth as it is.  A brace that ends an interpolation there
crashes the lexer instead: brackets inside the interpolation have closed too much.
-/

namespace ReactiveTemplate
namespace Code

/-- The kinds of structural tokens. -/
inductive TokenKind where
  /-- The question mark of a choice. -/
  | question
  /-- A colon. -/
  | colon
  /-- Logical conjunction. -/
  | andAnd
  /-- Logical disjunction. -/
  | orOr
  /-- The operator that replaces a missing value. -/
  | nullish
  /-- The arrow between parameters and body. -/
  | arrow
  /-- A comma. -/
  | comma
  /-- Access to a method named "map" that is called; the token covers the access only. -/
  | mapCall
  /-- A whole element or fragment of markup. -/
  | markup
  /-- An opening bracket. -/
  | opening
  /-- A closing bracket. -/
  | closing
  deriving DecidableEq, Repr

/-- A structural token, with its place given by character indices. -/
structure Token where
  /-- What the token is. -/
  kind : TokenKind
  /-- Index of its first character. -/
  start : Nat
  /-- Index after its last character. -/
  stop : Nat
  /-- Bracket depth outside the token; a bracket and its partner have the same. -/
  depth : Nat
  deriving DecidableEq, Repr

/-- What kind of text the lexer stands in. -/
inductive Mode where
  /-- Plain code. -/
  | code
  /-- A string up to the given quote or the end of the line. -/
  | string (quote : Char)
  /-- The literal part of a template. -/
  | template
  /-- A comment up to the end of the line. -/
  | lineComment
  /-- A comment up to its closing mark. -/
  | blockComment
  /-- The depth would have gone below zero, and nothing is read any more. -/
  | crashed
  deriving DecidableEq, Repr

/-- What came last: it decides whether an operand or an operator comes next. -/
inductive Previous where
  /-- Nothing yet, or an opening bracket. -/
  | start
  /-- An operator. -/
  | operator
  /-- A complete operand. -/
  | value
  deriving DecidableEq, Repr

/-- The state of the lexer between two characters. -/
structure LexState where
  /-- The kind of text. -/
  mode : Mode := .code
  /-- Bracket depth. -/
  depth : Nat := 0
  /-- Depths outside the open interpolations, innermost first. -/
  interpolations : List Nat := []
  /-- What came last. -/
  previous : Previous := .start
  /-- How many of the next characters belong to what has been read already. -/
  skip : Nat := 0
  deriving DecidableEq, Repr

/-- A token as a step of the lexer produces it: its kind, its length and its depth. -/
structure Emission where
  /-- What the token is. -/
  kind : TokenKind
  /-- Number of characters. -/
  length : Nat
  /-- Bracket depth outside the token. -/
  depth : Nat
  deriving DecidableEq, Repr

/-- The character belongs to words: names, numbers, and everything beyond ASCII. -/
def isWordPart (c : Char) : Bool := c.isAlphanum || c == '_' || c == '$' || 0x80 ≤ c.toNat

/-- The words that an operand follows. -/
def operatorWords : List String :=
  ["return", "yield", "await", "case", "typeof", "void", "in", "of", "new", "delete", "else", "do"]

/-- ASCII white space. -/
def isAsciiSpace (c : Char) : Bool :=
  c == ' ' || c == '\t' || c == '\n' || c == '\r' || c == '\x0c'

/-- The text begins with a call of the method "map". -/
def startsMapCall : List Char → Bool
  | 'm' :: 'a' :: 'p' :: after =>
    (match after with
      | c :: _ => !(c.isAlphanum || c == '_' || c == '$')
      | [] => true) &&
    (match after.find? (fun c => !isAsciiSpace c) with
      | some c => c == '('
      | none => false)
  | _ => false

/-- The number of letters at the start of a text: the flags of a regular expression. -/
def flagsLength (text : List Char) : Nat := (text.takeWhile Char.isAlpha).length

/-- The number of characters of a regular expression after its opening slash, flags included.
It ends at a slash outside of a character class or before the end of the line. -/
def regexLength : Bool → List Char → Nat
  | _, [] => 0
  | _, ['\\'] => 1
  | inClass, '\\' :: _ :: rest => regexLength inClass rest + 2
  | _, '[' :: rest => regexLength true rest + 1
  | _, ']' :: rest => regexLength false rest + 1
  | inClass, c :: rest =>
    if c = '/' ∧ inClass = false then flagsLength rest + 1
    else if c = '\n' then 0
    else regexLength inClass rest + 1

/-- A tag or fragment starts after the angle bracket. -/
def startsTag : List Char → Bool
  | c :: _ => c.isAlpha || c == '>'
  | [] => false

/-- Markup starts at the character. -/
def LexState.opensMarkup (state : LexState) (c : Char) (rest : List Char) : Bool :=
  state.mode == .code && c == '<' && state.previous != .value && startsTag rest

namespace LexState

/-- Read an operator token of the given length. -/
def operator (state : LexState) (kind : TokenKind) (length : Nat) :
    LexState × Option Emission :=
  ({ state with previous := .operator, skip := length - 1 },
    some ⟨kind, length, state.depth⟩)

/-- Read an operator that may be followed by an equals sign. -/
def assignable (state : LexState) (kind : TokenKind) : List Char → LexState × Option Emission
  | '=' :: _ => state.operator kind 3
  | _ => state.operator kind 2

/-- Pass over characters, which count as the given kind of thing. -/
def pass (state : LexState) (previous : Previous) (skip : Nat) : LexState × Option Emission :=
  ({ state with previous, skip }, none)

/-- The depth after a closing bracket. -/
def closedDepth (state : LexState) : Nat := state.depth - 1

/-- A brace ends the innermost interpolation.  It takes one from the depth, whatever that is. -/
def endInterpolation (state : LexState) : LexState :=
  if state.depth = 0 then { state with mode := .crashed }
  else
    { state with
      interpolations := state.interpolations.tail
      depth := state.depth - 1
      mode := .template }

/-- Read a closing bracket.  A brace that ends an interpolation is no token. -/
def close (state : LexState) (c : Char) : LexState × Option Emission :=
  if c = '}' ∧ state.interpolations.head? = some state.closedDepth then
    (state.endInterpolation, none)
  else
    ({ state with depth := state.closedDepth, previous := .value },
      some ⟨.closing, 1, state.closedDepth⟩)

/-- Read one character of plain code.  `markupLength` is the number of characters of the markup
that starts here, if any does. -/
def stepCode (state : LexState) (c : Char) (rest : List Char) (markupLength : Nat) :
    LexState × Option Emission :=
  if c = ' ' ∨ c = '\t' ∨ c = '\n' ∨ c = '\r' then (state, none)
  else if c = '/' ∧ rest.head? = some '/' then ({ state with mode := .lineComment, skip := 1 }, none)
  else if c = '/' ∧ rest.head? = some '*' then ({ state with mode := .blockComment, skip := 1 }, none)
  else if c = '/' ∧ state.previous ≠ .value then state.pass .value (regexLength false rest)
  else if c = '"' ∨ c = '\x27' then ({ state with mode := .string c }, none)
  else if c = '\x60' then ({ state with mode := .template }, none)
  else if c = '(' ∨ c = '[' ∨ c = '{' then
    ({ state with depth := state.depth + 1, previous := .start }, some ⟨.opening, 1, state.depth⟩)
  else if c = ')' ∨ c = ']' ∨ c = '}' then state.close c
  else if c = '?' then
    match rest with
    | '?' :: after => state.assignable .nullish after
    | '.' :: after =>
      if (after.head?.any Char.isDigit) then state.operator .question 1
      else if startsMapCall after then state.operator .mapCall 5
      else state.pass .operator 1
    | _ => state.operator .question 1
  else if c = '.' then
    if startsMapCall rest then state.operator .mapCall 4
    else if state.previous = .value ∧ rest.head?.any Char.isDigit then (state, none)
    else state.pass .operator 0
  else if c = ':' then state.operator .colon 1
  else if c = ',' then state.operator .comma 1
  else if c = '&' ∧ rest.head? = some '&' then state.assignable .andAnd rest.tail
  else if c = '|' ∧ rest.head? = some '|' then state.assignable .orOr rest.tail
  else if c = '=' ∧ rest.head? = some '>' then state.operator .arrow 2
  else if state.opensMarkup c rest then
    ({ state with previous := .value, skip := markupLength - 1 },
      some ⟨.markup, markupLength, state.depth⟩)
  else if isWordPart c then
    let word := c :: rest.takeWhile isWordPart
    state.pass (if operatorWords.contains (String.ofList word) then .operator else .value)
      (word.length - 1)
  else state.pass .operator 0

/-- Read one character. -/
def step (state : LexState) (c : Char) (rest : List Char) (markupLength : Nat) :
    LexState × Option Emission :=
  match state.mode with
  | .lineComment => (if c = '\n' then { state with mode := .code } else state, none)
  | .blockComment =>
    if c = '*' ∧ rest.head? = some '/' then ({ state with mode := .code, skip := 1 }, none)
    else (state, none)
  | .string quote =>
    if c = '\\' then ({ state with skip := 1 }, none)
    else if c = quote ∨ c = '\n' then ({ state with mode := .code, previous := .value }, none)
    else (state, none)
  | .template =>
    if c = '\\' then ({ state with skip := 1 }, none)
    else if c = '\x60' then ({ state with mode := .code, previous := .value }, none)
    else if c = '$' ∧ rest.head? = some '{' then
      ({ state with
          mode := .code
          interpolations := state.depth :: state.interpolations
          depth := state.depth + 1
          previous := .start
          skip := 1 }, none)
    else (state, none)
  | .code => state.stepCode c rest markupLength
  | .crashed => (state, none)

/-- The state right after an opening bracket that starts a text of its own. -/
def afterOpening : LexState := { depth := 1 }

/-- One of the characters that were read already has passed. -/
def tick (state : LexState) : LexState := { state with skip := state.skip - 1 }

end LexState

/-- What kind of markup text the reader stands in. -/
inductive MarkupMode where
  /-- Between tags. -/
  | content
  /-- In an opening tag; the flag says that the element has no children. -/
  | tag (void : Bool)
  /-- In a quoted attribute value of an opening tag. -/
  | quoted (quote : Char) (void : Bool)
  /-- In a closing tag. -/
  | closeTag
  deriving DecidableEq, Repr

/-- The state of the markup reader between two characters. -/
structure MarkupState where
  /-- The kind of text. -/
  mode : MarkupMode := .content
  /-- Number of open elements. -/
  depth : Nat := 0
  /-- How many of the next characters belong to what has been read already. -/
  skip : Nat := 0
  deriving DecidableEq, Repr

/-- The character belongs to a tag name. -/
def isTagNamePart (c : Char) : Bool :=
  c.isAlphanum || c == '.' || c == '-' || c == '_' || c == ':'

namespace MarkupState

/-- The state after the angle bracket of an opening tag, before its name. -/
def enterTag (depth : Nat) (rest : List Char) : MarkupState :=
  let name := rest.takeWhile isTagNamePart
  { mode := .tag (Markup.isVoidElement (String.ofList name)), depth, skip := name.length }

/-- One of the characters that were read already has passed. -/
def tick (state : MarkupState) : MarkupState := { state with skip := state.skip - 1 }

/-- What one character of markup leads to. -/
inductive Step where
  /-- The markup goes on in the given state. -/
  | next (state : MarkupState)
  /-- The markup ends, and so many characters more belong to it. -/
  | done (more : Nat)
  /-- A brace: code starts here. -/
  | code
  deriving DecidableEq, Repr

/-- Read one character of markup. -/
def step (state : MarkupState) (c : Char) (rest : List Char) : Step :=
  match state.mode with
  | .content =>
    if c = '<' ∧ rest.head? = some '/' then .next { state with mode := .closeTag }
    else if c = '<' ∧ startsTag rest then .next (enterTag state.depth rest)
    else if c = '{' then .code
    else .next state
  | .closeTag =>
    if c = '>' then
      if state.depth ≤ 1 then .done 0 else .next { state with mode := .content, depth := state.depth - 1 }
    else .next state
  | .quoted quote void =>
    if c = quote then .next { state with mode := .tag void } else .next state
  | .tag void =>
    if c = '"' ∨ c = '\x27' then .next { state with mode := .quoted c void }
    else if c = '{' then .code
    else if c = '/' ∧ rest.head? = some '>' then
      if state.depth = 0 then .done 1 else .next { state with mode := .content, skip := 1 }
    else if c = '>' then
      if void then
        if state.depth = 0 then .done 0 else .next { state with mode := .content }
      else .next { state with mode := .content, depth := state.depth + 1 }
    else .next state

end MarkupState

mutual

/-- The number of characters before the first closing bracket at depth zero. -/
def closingFrom : LexState → List Char → Option Nat
  | _, [] => none
  | state, c :: rest =>
    if 0 < state.skip then (closingFrom state.tick rest).map (· + 1)
    else
      let markupLength :=
        if state.opensMarkup c rest then
          (markupEndFrom (.enterTag 0 rest) rest).getD rest.length + 1
        else 0
      match state.step c rest markupLength with
      | (next, emitted) =>
        if emitted = some ⟨.closing, 1, 0⟩ then some 0
        else (closingFrom next rest).map (· + 1)

/-- The number of characters up to the end of the markup that is being read. -/
def markupEndFrom : MarkupState → List Char → Option Nat
  | _, [] => none
  | state, c :: rest =>
    if 0 < state.skip then (markupEndFrom state.tick rest).map (· + 1)
    else
      match state.step c rest with
      | .next next => (markupEndFrom next rest).map (· + 1)
      | .done more => some (more + 1)
      | .code =>
        match closingFrom .afterOpening rest with
        | none => none
        | some length => (markupEndFrom { state with skip := length + 1 } rest).map (· + 1)

end

namespace LexState

/-- The number of characters of the markup that starts at the character, if any does. -/
def markupLength (state : LexState) (c : Char) (rest : List Char) : Nat :=
  if state.opensMarkup c rest then (markupEndFrom (.enterTag 0 rest) rest).getD rest.length + 1
  else 0

/-- Read one character, with all of the markup that starts there. -/
def read (state : LexState) (c : Char) (rest : List Char) : LexState × Option Emission :=
  state.step c rest (state.markupLength c rest)

/-- Pass over one character. -/
def next (state : LexState) (c : Char) (rest : List Char) : LexState :=
  if 0 < state.skip then state.tick else (state.read c rest).1

/-- The state at the end of a text. -/
def final : LexState → List Char → LexState
  | state, [] => state
  | state, c :: rest => final (state.next c rest) rest

end LexState

/-- The tokens of a text that starts at the given index. -/
def tokensFrom : LexState → Nat → List Char → List Token
  | _, _, [] => []
  | state, index, c :: rest =>
    if 0 < state.skip then tokensFrom state.tick (index + 1) rest
    else
      match state.read c rest with
      | (next, some e) =>
        ⟨e.kind, index, index + e.length, e.depth⟩ :: tokensFrom next (index + 1) rest
      | (next, none) => tokensFrom next (index + 1) rest

/-- All structural tokens of a text, in order, up to where the lexer crashes if it does. -/
def tokens (text : List Char) : List Token := tokensFrom {} 0 text

/-- The lexer crashes when it reads the text. -/
def crashes (text : List Char) : Bool := (LexState.final {} text).mode == .crashed

/-- The tokens of a text; none at all if the lexer crashes. -/
def scan? (text : List Char) : Option (List Token) :=
  if crashes text then none else some (tokens text)

/-- The tokens at depth zero. -/
def topLevel (tokens : List Token) : List Token := tokens.filter (·.depth == 0)

/-- Some token is markup. -/
def hasMarkup (tokens : List Token) : Bool := tokens.any (·.kind == .markup)

/-- The text contains markup outside strings and comments. -/
def containsMarkup (text : List Char) : Bool := hasMarkup (tokens text)

/-- Whether the text contains markup.  Nothing is read behind the first markup; there is no answer if
the lexer crashes before. -/
def findsMarkup? (text : List Char) : Option Bool :=
  if containsMarkup text then some true else if crashes text then none else some false

/-- The character is an opening bracket. -/
def isOpening (c : Char) : Bool := c == '(' || c == '[' || c == '{'

/-- The index of the bracket that closes the one at the given index. -/
def matching? (text : List Char) (index : Nat) : Option Nat :=
  match text.drop index with
  | c :: rest =>
    if isOpening c then (closingFrom .afterOpening rest).map (index + 1 + ·) else none
  | [] => none

/-- The index after the element or fragment of markup that starts at the given index. -/
def markupEnd? (text : List Char) (index : Nat) : Option Nat :=
  (markupEndFrom {} (text.drop index)).map (index + ·)

end Code
end ReactiveTemplate
