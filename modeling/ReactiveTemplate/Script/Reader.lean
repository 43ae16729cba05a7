import ReactiveTemplate.Script.Term
import ReactiveTemplate.Script.Token

/-!
# Readers

A reader goes through a text token by token and fails at the first thing that is not well-formed.
Its state is a cursor: the current token, the text from there on, and where the token before it
ended.  Cursors know that tokens do not overlap, and readers that they never go back.  Taking up an
earlier cursor again undoes everything, so looking ahead is reading and not keeping the result.
-/

namespace ReactiveTemplate
namespace Script

/-- A place in a text, with the token that starts there. -/
structure Cursor where
  /-- The text from the current token on. -/
  text : List Char
  /-- Index of the current token. -/
  start : Nat
  /-- What the current token is. -/
  kind : TokenKind
  /-- Number of characters of the current token. -/
  length : Nat
  /-- A line ends before the current token. -/
  newline : Bool
  /-- Index after the token before the current one. -/
  previousStop : Nat
  /-- Places of properties with a default that no assignment has claimed yet. -/
  unclaimed : List Nat := []
  /-- The tokens do not overlap. -/
  previousStop_le : previousStop ≤ start
  /-- A word or a mark takes up characters of the text. -/
  solid : kind.isSolid = true → 0 < length ∧ text ≠ []
  /-- A word is the first token of the text. -/
  reads : ∀ word escaped, kind = .word word escaped → tokenAt text = (kind, length)

namespace Cursor

/-- The cursor at the next token of a text that starts at the given index. -/
def ofText (text : List Char) (index : Nat) : Cursor :=
  let gap := gapFrom .blank text
  let rest := text.drop gap.length
  let token := if gap.closed then tokenAt rest else (.invalid, 0)
  { text := rest, start := index + gap.length, kind := token.1, length := token.2
    newline := gap.newline, previousStop := index
    previousStop_le := Nat.le_add_right _ _
    solid := by
      intro solid
      cases closed : gap.closed
      · simp [token, closed, TokenKind.isSolid] at solid
      · simp only [token, closed, if_true] at solid ⊢
        exact tokenAt_solid solid
    reads := by
      intro word escaped same
      cases closed : gap.closed
      · simp [token, closed] at same
      · simp [token, closed] }

/-- The cursor so many characters after the start of the current token. -/
def jump (cursor : Cursor) (count : Nat) : Cursor :=
  { ofText (cursor.text.drop count) (cursor.start + count) with unclaimed := cursor.unclaimed }

/-- The cursor at the next token. -/
def next (cursor : Cursor) : Cursor := cursor.jump cursor.length

/-- Where the first mark is the current token, read the other one, which starts there as well, in
its place. -/
def reread (cursor : Cursor) (mark other : String) : Cursor :=
  if possible : cursor.kind = .mark mark ∧ 0 < other.length then
    { cursor with
      kind := .mark other, length := other.length
      solid := fun _ => ⟨possible.2, (cursor.solid (by rw [possible.1]; rfl)).2⟩
      reads := by rintro _ _ ⟨⟩ }
  else cursor

/-- Reading on leads from one cursor to the other: it stands no earlier, in the same text. -/
structure Leads (before after : Cursor) : Prop where
  /-- The place only moves forward. -/
  start_le : before.start ≤ after.start
  /-- The text is what is left from that place on. -/
  text_eq : after.text = before.text.drop (after.start - before.start)

namespace Leads

theorem refl (cursor : Cursor) : cursor.Leads cursor := ⟨Nat.le_refl _, by simp⟩

theorem trans {first second third : Cursor} (one : first.Leads second) (two : second.Leads third) :
    first.Leads third := by
  refine ⟨Nat.le_trans one.start_le two.start_le, ?_⟩
  have way : second.start - first.start + (third.start - second.start) =
      third.start - first.start := by
    have start := one.start_le
    have stop := two.start_le
    omega
  rw [two.text_eq, one.text_eq, List.drop_drop, way]

theorem jump (cursor : Cursor) (count : Nat) : cursor.Leads (cursor.jump count) := by
  constructor
  · exact Nat.le_trans (Nat.le_add_right _ _) (Nat.le_add_right _ _)
  · rw [Cursor.jump, ofText]
    dsimp only
    rw [List.drop_drop, Nat.add_assoc, Nat.add_sub_cancel_left]

theorem reread (cursor : Cursor) (mark other : String) :
    cursor.Leads (cursor.reread mark other) := by
  rw [Cursor.reread]
  split
  · exact ⟨Nat.le_refl _, by simp⟩
  · exact refl cursor

end Leads
end Cursor

/-- A reader of values: it moves the cursor on, or fails. -/
structure Reader (α : Type) where
  /-- The value that is read from a cursor on, and the cursor behind it. -/
  read : Cursor → Option (α × Cursor)
  /-- A reader does not go back. -/
  onward : ∀ {cursor value after}, read cursor = some (value, after) → cursor.Leads after

namespace Reader

/-- Give a value without reading. -/
def give {α : Type} (value : α) : Reader α where
  read cursor := some (value, cursor)
  onward := by
    rintro cursor _ _ ⟨⟩
    exact .refl cursor

/-- Read one thing after the other. -/
def andThen {α β : Type} (first : Reader α) (second : α → Reader β) : Reader β where
  read cursor :=
    match first.read cursor with
    | some (value, after) => (second value).read after
    | none => none
  onward := by
    intro cursor value after found
    split at found
    · rename_i own between one
      exact (first.onward one).trans ((second own).onward found)
    · cases found

instance : Monad Reader where
  pure := give
  bind := andThen

/-- The cursor. -/
def cursor : Reader Cursor where
  read cursor := some (cursor, cursor)
  onward := by
    rintro cursor _ _ ⟨⟩
    exact .refl cursor

/-- Move the cursor. -/
def move (next : Cursor → Cursor) (onward : ∀ cursor : Cursor, cursor.Leads (next cursor)) :
    Reader Unit where
  read cursor := some ((), next cursor)
  onward := by
    rintro cursor _ _ ⟨⟩
    exact onward cursor

/-- Fail. -/
def fail {α : Type} : Reader α where
  read _ := none
  onward := by rintro _ _ _ ⟨⟩

/-- Fail unless the condition holds. -/
def require (condition : Bool) : Reader Unit := if condition then pure () else fail

/-- The current token. -/
def kind : Reader TokenKind := return (← cursor).kind

/-- Go on so many characters, to the next token behind them. -/
def jump (count : Nat) : Reader Unit := move (·.jump count) (.jump · count)

/-- Go to the next token. -/
def advance : Reader Unit := move Cursor.next fun cursor => .jump cursor cursor.length

/-- Where the first mark is the current token, read the other one in its place. -/
def reread (mark other : String) : Reader Unit :=
  move (·.reread mark other) (.reread · mark other)

/-- Change the places of properties with a default that no assignment has claimed yet. -/
def modifyUnclaimed (change : List Nat → List Nat) : Reader Unit :=
  move (fun cursor => { cursor with unclaimed := change cursor.unclaimed })
    fun _ => ⟨Nat.le_refl _, by simp⟩

/-- The current token is the given mark. -/
def atMark (mark : String) : Reader Bool := return (← cursor).kind == .mark mark

/-- The current token is the given word, written without escapes. -/
def atWord (word : String) : Reader Bool := return (← cursor).kind == .word word false

/-- A line ends before the current token. -/
def onNewLine : Reader Bool := return (← cursor).newline

/-- Take the given mark if it is there. -/
def eat (mark : String) : Reader Bool := do
  if ← atMark mark then
    advance
    return true
  else return false

/-- Take the given word if it is there. -/
def eatWord (word : String) : Reader Bool := do
  if ← atWord word then
    advance
    return true
  else return false

/-- Take the given mark, or fail. -/
def expect (mark : String) : Reader Unit := do require (← eat mark)

/-- Take the given word, or fail. -/
def expectWord (word : String) : Reader Unit := do require (← eatWord word)

/-- What a reader would give, without moving. -/
def look {α : Type} (reader : Reader α) : Reader (Option α) where
  read cursor := some ((reader.read cursor).map (·.1), cursor)
  onward := by
    rintro cursor _ _ ⟨⟩
    exact .refl cursor

/-- Read if possible; otherwise stay. -/
def attempt {α : Type} (reader : Reader α) : Reader (Option α) where
  read cursor :=
    match reader.read cursor with
    | some (value, after) => some (some value, after)
    | none => some (none, cursor)
  onward := by
    intro cursor value after found
    split at found
    · rename_i one
      cases found
      exact reader.onward one
    · cases found
      exact .refl cursor

/-- Repeat a step while it asks for it; the bound is never reached if steps move on. -/
def iterate {σ : Type} (step : σ → Reader (σ × Bool)) : Nat → σ → Reader σ
  | 0, _ => fail
  | bound + 1, state => do
    let (next, more) ← step state
    if more then iterate step bound next else return next

/-- Repeat a step while it asks for it. -/
def repeating {σ : Type} (initial : σ) (step : σ → Reader (σ × Bool)) : Reader σ := do
  iterate step ((← cursor).text.length + 2) initial

/-- Read items separated by commas up to a closing mark, which is taken.  A comma may stand before
the closing mark. -/
def commaList {α : Type} (close : String) (item : Reader α) : Reader (List α) := do
  let items ← repeating ([] : List α) fun items => do
    if ← eat close then return (items, false)
    else
      let value ← item
      if ← eat "," then return (value :: items, true)
      else
        expect close
        return (value :: items, false)
  return items.reverse

/-- Read items up to a closing mark, which is taken. -/
def listUntil {α : Type} (close : String) (item : Reader α) : Reader (List α) := do
  let items ← repeating ([] : List α) fun items => do
    if ← eat close then return (items, false)
    else
      let value ← item
      return (value :: items, true)
  return items.reverse

/-- The end of a statement: a semicolon, or a place where it may be left out. -/
def semicolon : Reader Unit := do
  if ← eat ";" then return ()
  else
    let cursor ← cursor
    require (cursor.newline || cursor.kind == .mark "\x7d" || cursor.kind == .ending)

/-- Run a reader on a whole text. -/
def run {α : Type} (reader : Reader α) (text : List Char) : Option α :=
  (reader.read (Cursor.ofText text 0)).map (·.1)

end Reader

/-- The words that are never names. -/
def reservedWords : List String :=
  ["break", "case", "catch", "class", "const", "continue", "debugger", "default", "delete", "do",
    "else", "enum", "export", "extends", "false", "finally", "for", "function", "if", "import", "in",
    "instanceof", "new", "null", "return", "super", "switch", "this", "throw", "true", "try",
    "typeof", "var", "void", "while", "with"]

/-- What the surroundings of a construct allow. -/
structure Context where
  /-- The operator "in" may be used. -/
  allowIn : Bool := true
  /-- Waiting for values is possible, so that "await" is no name. -/
  await : Bool := true
  /-- Handing out values is possible, so that "yield" is no name. -/
  yield : Bool := false
  /-- A function is being read, which may return. -/
  inFunction : Bool := false

/-- The word may be used as a name. -/
def Context.isName (context : Context) (word : String) : Bool :=
  !reservedWords.contains word && !(context.await && word == "await") &&
    !(context.yield && word == "yield")

/-- The readers of the constructs that contain each other. -/
structure Grammar where
  /-- An expression without a comma; the flag allows an arrow function with a result type. -/
  assignment : Context → Bool → Reader Term
  /-- Operands joined by operators that bind more tightly than the given level. -/
  binary : Context → Nat → Reader Term
  /-- An operand with its prefix operators. -/
  unary : Context → Reader Term
  /-- A pattern of names. -/
  pattern : Context → Reader Pattern
  /-- A type. -/
  type : Context → Reader Unit
  /-- A statement; the flag says that it stands where only one statement may. -/
  statement : Context → Bool → Reader Statement
  /-- An element of markup, from its opening angle bracket up to the last closing one, which is
  left as the current token. -/
  element : Context → Reader Unit

namespace Grammar

/-- The grammar that reads nothing. -/
def empty : Grammar :=
  { assignment := fun _ _ => Reader.fail
    binary := fun _ _ => Reader.fail
    unary := fun _ => Reader.fail
    pattern := fun _ => Reader.fail
    type := fun _ => Reader.fail
    statement := fun _ _ => Reader.fail
    element := fun _ => Reader.fail }

/-- An expression, possibly several joined by commas. -/
def expression (g : Grammar) (context : Context) : Reader Term := do
  let first ← g.assignment context true
  let rest ← Reader.repeating ([] : List Term) fun terms => do
    if ← Reader.eat "," then
      let term ← g.assignment context true
      return (term :: terms, true)
    else return (terms, false)
  if rest.isEmpty then return first else return .sequence (first :: rest.reverse)

/-- The name that is the current word. -/
def name (context : Context) : Reader String := do
  match ← Reader.kind with
  | .word text _ =>
    Reader.require (context.isName text)
    Reader.advance
    return text
  | _ => Reader.fail

/-- Any word, reserved ones included. -/
def anyWord : Reader String := do
  match ← Reader.kind with
  | .word text _ =>
    Reader.advance
    return text
  | _ => Reader.fail

end Grammar
end Script
end ReactiveTemplate
