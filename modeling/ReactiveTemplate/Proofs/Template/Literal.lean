import ReactiveTemplate.Proofs.Code.Wrapping
import ReactiveTemplate.Template.Parse

/-!
# Template literals

The value of an attribute that mixes text with code in braces becomes a template literal: the text
is escaped, and each code is interpolated.  Main statement: whoever reads the literal finds the text
and the codes again, whatever characters they have.
-/

namespace ReactiveTemplate
namespace Template

/-! ## Reading a literal -/

/-- What a template literal says: text, and code with text behind it. -/
structure Literal where
  /-- The text in front of the first code. -/
  text : List Char
  /-- The codes in order, each with the text behind it. -/
  insertions : List (List Char × List Char)
  deriving DecidableEq, Repr

namespace Literal

/-- The literal with more text in front. -/
def prepend (text : List Char) (literal : Literal) : Literal :=
  { literal with text := text ++ literal.text }

/-- The literal with code in front. -/
def insert (code : List Char) (literal : Literal) : Literal :=
  ⟨[], (code, literal.text) :: literal.insertions⟩

/-- Read what stands behind the opening backquote of a literal.  A backslash takes the next
character as it is, code reaches from its opening brace to the one that closes it, and nothing may
follow the closing backquote. -/
def readInside : List Char → Option Literal
  | [] => none
  | '\\' :: c :: rest => (readInside rest).map (prepend [c])
  | '\x60' :: rest => if rest.isEmpty then some ⟨[], []⟩ else none
  | '$' :: '{' :: rest =>
    match Code.matching? ('{' :: rest) 0 with
    | some close => (readInside (rest.drop close)).map (insert (rest.take (close - 1)))
    | none => none
  | c :: rest => (readInside rest).map (prepend [c])
termination_by text => text.length
decreasing_by all_goals simp only [List.length_drop, List.length_cons]; omega

/-- Read code that is one template literal. -/
def read : List Char → Option Literal
  | '\x60' :: rest => readInside rest
  | _ => none

variable {text rest : List Char} {c : Char}

theorem prepend_prepend (first second : List Char) (literal : Literal) :
    (literal.prepend second).prepend first = literal.prepend (first ++ second) := by
  simp [prepend]

theorem readInside_escaped (c : Char) (rest : List Char) :
    readInside ('\\' :: c :: rest) = (readInside rest).map (prepend [c]) := by
  rw [readInside]

/-- Any other character stands for itself, a dollar sign unless it opens code. -/
theorem readInside_plain (backslash : c ≠ '\\') (backquote : c ≠ '\x60')
    (opens : c = '$' → rest.head? ≠ some '{') :
    readInside (c :: rest) = (readInside rest).map (prepend [c]) := by
  rw [readInside]
  · exact fun _ _ same => absurd same backslash
  · exact backquote
  · rintro more rfl rfl
    exact opens rfl rfl

/-- Code is read up to the brace that closes it. -/
theorem readInside_code {code : List Char}
    (closes : Code.matching? ('{' :: code ++ ['}']) 0 = some (code.length + 1))
    (rest : List Char) :
    readInside ('$' :: '{' :: (code ++ '}' :: rest)) = (readInside rest).map (insert code) := by
  have found : Code.matching? ('{' :: (code ++ '}' :: rest)) 0 = some (code.length + 1) := by
    rw [← List.cons_append, Code.matching?_eq_some_iff rfl]
    exact Code.closingFrom_rebracket rfl rfl ((Code.matching?_eq_some_iff rfl).mp closes)
  rw [readInside, found]
  simp

/-- Escaping brings no brace to the front. -/
theorem head?_escapeLiteral (text : List Char) (brace : (escapeLiteral text).head? = some '{') :
    text.head? = some '{' := by
  fun_cases escapeLiteral text with
  | case1 | case2 | case3 | case4 => simp [escapeLiteral] at brace
  | case5 c more backslash backquote dollar =>
      rw [escapeLiteral] at brace
      · exact brace
      all_goals assumption

/-- Escaped text is read as the text, unless a brace follows that would join a dollar sign at its
end. -/
theorem readInside_escapeLiteral (text : List Char) (brace : rest.head? ≠ some '{') :
    readInside (escapeLiteral text ++ rest) = (readInside rest).map (prepend text) := by
  have behind (first : List Char) {more : List Char}
      (read : readInside (escapeLiteral more ++ rest) = (readInside rest).map (prepend more)) :
      (readInside (escapeLiteral more ++ rest)).map (prepend first) =
        (readInside rest).map (prepend (first ++ more)) := by
    rw [read, Option.map_map]
    exact congrArg (Option.map · _) (funext (prepend_prepend first more))
  fun_induction escapeLiteral text with
  | case1 => exact Option.map_id'.symm
  | case2 more induction | case3 more induction =>
      rw [List.cons_append, List.cons_append, readInside_escaped]
      exact behind [_] induction
  | case4 more induction =>
      -- behind an escaped dollar sign the brace stands for itself
      rw [List.cons_append, List.cons_append, List.cons_append, readInside_escaped,
        readInside_plain (by decide) (by decide) (fun same => absurd same (by decide)),
        behind _ induction, Option.map_map]
      exact congrArg (Option.map · _) (funext (prepend_prepend ['$'] _))
  | case5 c more backslash backquote dollar induction =>
      rw [List.cons_append, readInside_plain backslash backquote ?_]
      · exact behind [c] induction
      · rintro rfl
        rw [List.head?_append, ne_eq, Option.or_eq_some_iff]
        rintro (own | ⟨-, next⟩)
        · obtain ⟨later, rfl⟩ := List.head?_eq_some_iff.mp (head?_escapeLiteral more own)
          exact dollar later rfl rfl
        · exact brace next

end Literal

/-! ## Values that mix text and code -/

/-- Code in an attribute value: its placeholder, and the text behind it. -/
structure Insertion where
  /-- The digits in the placeholder. -/
  digits : List Char
  /-- The code that the placeholder stands for. -/
  found : Captured
  /-- The text up to the next placeholder. -/
  text : List Char

namespace Insertion

/-- The code as it stands in the source. -/
def code (insertion : Insertion) : List Char := insertion.found.code.toList

/-- The placeholder and the text, as they stand in the value. -/
def written (insertion : Insertion) : List Char :=
  "__ZENITH_EXPR_".toList ++ insertion.digits ++ "__".toList ++ insertion.text

/-- The code and the text, as a literal says them. -/
def said (insertion : Insertion) : List Char × List Char := (insertion.code, insertion.text)

/-- The placeholder stands for the code. -/
def Numbered (captured : List Captured) (insertion : Insertion) : Prop :=
  codeFor? captured insertion.digits = some insertion.found

/-- The code closes between braces. -/
def Closed (insertion : Insertion) : Prop :=
  Code.matching? ('{' :: insertion.code ++ ['}']) 0 = some (insertion.code.length + 1)

end Insertion

/-- The value with the given text in front and the given codes behind it. -/
def mixedValue (first : List Char) (insertions : List Insertion) : String :=
  String.ofList (first ++ insertions.flatMap Insertion.written)

/-- A text as a piece of a value, if there is any. -/
def textPiece (text : List Char) : List Piece := if text.isEmpty then [] else [.plain text]

/-- A placeholder and the text behind it, as pieces of a value. -/
def Insertion.pieces (insertion : Insertion) : List Piece :=
  .placeholder insertion.digits :: textPiece insertion.text

/-- The pieces of a value in which the given placeholders stand between the given texts. -/
def mixedPieces (first : List Char) (insertions : List Insertion) : List Piece :=
  textPiece first ++ insertions.flatMap Insertion.pieces

section

variable {captured : List Captured} {insertion : Insertion} {insertions : List Insertion}

theorem literalPart_textPiece (captured : List Captured) (text : List Char) :
    (textPiece text).flatMap (literalPart captured) = escapeLiteral text := by
  rw [textPiece]
  split
  · rename_i empty
    rw [List.isEmpty_iff.mp empty]
    rfl
  · exact List.append_nil _

theorem literalPart_pieces (numbered : insertion.Numbered captured) :
    insertion.pieces.flatMap (literalPart captured) =
      '$' :: '{' :: (insertion.code ++ '}' :: escapeLiteral insertion.text) := by
  rw [Insertion.pieces, List.flatMap_cons, literalPart_textPiece, literalPart, numbered]
  simp [Insertion.code]

/-- What follows a text in a literal is no brace. -/
theorem head?_literalParts (numbered : ∀ insertion ∈ insertions, insertion.Numbered captured) :
    ((insertions.flatMap Insertion.pieces).flatMap (literalPart captured) ++ ['\x60']).head? ≠
      some '{' := by
  intro brace
  cases insertions with
  | nil => cases brace
  | cons insertion rest =>
      rw [List.flatMap_cons, List.flatMap_append,
        literalPart_pieces (numbered insertion List.mem_cons_self)] at brace
      cases brace

/-- The codes of a literal are read with the texts behind them. -/
theorem readInside_insertions (numbered : ∀ insertion ∈ insertions, insertion.Numbered captured)
    (closed : ∀ insertion ∈ insertions, insertion.Closed) :
    Literal.readInside
        ((insertions.flatMap Insertion.pieces).flatMap (literalPart captured) ++ ['\x60']) =
      some ⟨[], insertions.map Insertion.said⟩ := by
  induction insertions with
  | nil =>
      rw [List.flatMap_nil, List.flatMap_nil, List.nil_append, Literal.readInside]
      rfl
  | cons insertion rest induction =>
      obtain ⟨own, others⟩ := List.forall_mem_cons.mp numbered
      obtain ⟨closes, behind⟩ := List.forall_mem_cons.mp closed
      rw [List.flatMap_cons, List.flatMap_append, literalPart_pieces own, List.append_assoc]
      simp only [List.cons_append, List.append_assoc]
      rw [Literal.readInside_code closes,
        Literal.readInside_escapeLiteral _ (head?_literalParts others), induction others behind]
      simp [Literal.prepend, Literal.insert, Insertion.said]

/-- A literal is read as the text and the codes that it was made of. -/
theorem read_literal (first : List Char)
    (numbered : ∀ insertion ∈ insertions, insertion.Numbered captured)
    (closed : ∀ insertion ∈ insertions, insertion.Closed) :
    Literal.read (literal captured (mixedPieces first insertions)).toList =
      some ⟨first, insertions.map Insertion.said⟩ := by
  rw [literal, String.toList_ofList, List.cons_append, Literal.read, mixedPieces,
    List.flatMap_append, literalPart_textPiece, List.append_assoc,
    Literal.readInside_escapeLiteral _ (head?_literalParts numbered),
    readInside_insertions numbered closed]
  simp [Literal.prepend]

/-- Code with anything beside it is put into a literal. -/
theorem dynamicValue?_mixed {raw : String} (fallback : Location)
    (placed : (valuePieces raw).any Piece.isPlaceholder = true)
    (beside : ∀ piece, valuePieces raw ≠ [piece]) :
    ∃ location, dynamicValue? captured raw fallback =
      some ⟨literal captured (valuePieces raw), location⟩ := by
  rw [dynamicValue?]
  dsimp only
  rw [placed]
  split
  · contradiction
  · split
    · rename_i piece alone
      exact absurd alone (beside piece)
    · exact ⟨_, rfl⟩

end

/-- The value of an attribute that mixes text and code is a template literal, and the literal says
the text and the codes, in order. -/
theorem mixed_value_said {captured : List Captured} {first : List Char}
    {insertions : List Insertion}
    (pieces : valuePieces (mixedValue first insertions) = mixedPieces first insertions)
    (nonempty : insertions ≠ [])
    (beside : ∀ digits, valuePieces (mixedValue first insertions) ≠ [.placeholder digits])
    (numbered : ∀ insertion ∈ insertions, insertion.Numbered captured)
    (closed : ∀ insertion ∈ insertions, insertion.Closed)
    (registry : Registry) (element : Location) (name : String) :
    ∃ code location,
      readAttribute captured registry element name (mixedValue first insertions) =
        ({ name,
           value :=
             .dynamic ⟨(registry.register "expr" code location none).1, code, location, none⟩,
           site := ⟨location, none⟩ },
          (registry.register "expr" code location none).2) ∧
      Literal.read code.toList = some ⟨first, insertions.map Insertion.said⟩ := by
  obtain ⟨insertion, rest, rfl⟩ := List.exists_cons_of_ne_nil nonempty
  have placed : (mixedPieces first (insertion :: rest)).any Piece.isPlaceholder = true := by
    rw [mixedPieces, List.flatMap_cons, Insertion.pieces, List.any_append, List.cons_append,
      List.any_cons, Piece.isPlaceholder, Bool.true_or, Bool.or_true]
  have apart (piece : Piece) :
      valuePieces (mixedValue first (insertion :: rest)) ≠ [piece] := by
    intro alone
    cases piece with
    | placeholder digits => exact beside digits alone
    | plain text =>
        rw [← pieces, alone] at placed
        cases placed
  rw [← pieces] at placed
  obtain ⟨location, value⟩ :
      ∃ location, dynamicValue? captured (mixedValue first (insertion :: rest)) element =
        some ⟨literal captured (valuePieces (mixedValue first (insertion :: rest))), location⟩ :=
    dynamicValue?_mixed element placed apart
  rw [pieces] at value
  refine ⟨_, location, ?_, read_literal first numbered closed⟩
  rw [readAttribute, value]

/-- A call with a brace in a string, and a template. -/
def nestedCodes : List Captured := [⟨"f('\x7d')", ⟨1, 4⟩⟩, ⟨"\x60$\x7bb\x7d\x60", ⟨1, 20⟩⟩]

/-- Both codes, the second one at the end, with text between them that has to be escaped. -/
def nestedInsertions : List Insertion :=
  [⟨['0'], ⟨"f('\x7d')", ⟨1, 4⟩⟩, "$\x7b\\\x60$".toList⟩,
    ⟨['1'], ⟨"\x60$\x7bb\x7d\x60", ⟨1, 20⟩⟩, []⟩]

/-- The value `\$__ZENITH_EXPR_0__$\x7b\\\x60$__ZENITH_EXPR_1__`: dollar signs in front of both
codes, and in the text a brace behind one. -/
theorem mixed_value_said_nested :
    let first := "\\$".toList
    valuePieces (mixedValue first nestedInsertions) = mixedPieces first nestedInsertions ∧
    nestedInsertions ≠ [] ∧
    (∀ digits, valuePieces (mixedValue first nestedInsertions) ≠ [.placeholder digits]) ∧
    (∀ insertion ∈ nestedInsertions, insertion.Numbered nestedCodes) ∧
    (∀ insertion ∈ nestedInsertions, insertion.Closed) ∧
    ∃ code location,
      readAttribute nestedCodes {} {} "title" (mixedValue first nestedInsertions) =
        (⟨"title", .dynamic ⟨"expr_0", code, location, none⟩, ⟨location, none⟩⟩,
          ⟨[⟨"expr_0", code, location, none⟩], 1⟩) ∧
      Literal.read code.toList =
        some ⟨first, [("f('\x7d')".toList, "$\x7b\\\x60$".toList),
          ("\x60$\x7bb\x7d\x60".toList, [])]⟩ := by
  intro first
  have pieces :
      valuePieces (mixedValue first nestedInsertions) = mixedPieces first nestedInsertions := by
    decide +kernel
  have nonempty : nestedInsertions ≠ [] := List.cons_ne_nil _ _
  have beside (digits : List Char) :
      valuePieces (mixedValue first nestedInsertions) ≠ [.placeholder digits] := by
    rw [pieces]
    exact fun alone => nomatch alone
  have numbered : ∀ insertion ∈ nestedInsertions, insertion.Numbered nestedCodes := by
    unfold Insertion.Numbered
    decide +kernel
  have closed : ∀ insertion ∈ nestedInsertions, insertion.Closed := by
    unfold Insertion.Closed
    decide +kernel
  exact ⟨pieces, nonempty, beside, numbered, closed,
    mixed_value_said pieces nonempty beside numbered closed {} {} "title"⟩

end Template
end ReactiveTemplate
