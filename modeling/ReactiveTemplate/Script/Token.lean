import ReactiveTemplate.Text.Identifier

/-!
# Tokens of the expression language

The reader of expressions takes its tokens from the text as it goes, since the meaning of a slash,
of a backquote or of an angle bracket depends on what is being read.  Each function here finds the
token at the start of a text and gives its length in characters; `none` means that the text is
malformed there.
-/

namespace ReactiveTemplate
namespace Script

/-- What a token is. -/
inductive TokenKind where
  /-- A name or a keyword; the flag says that it was written with an escape. -/
  | word (text : String) (escaped : Bool)
  /-- A private name. -/
  | privateName
  /-- A number. -/
  | number
  /-- A string. -/
  | string
  /-- The quote that starts a template literal. -/
  | backquote
  /-- A punctuation mark. -/
  | mark (text : String)
  /-- The end of the text. -/
  | ending
  /-- Something that is no token. -/
  | invalid
  deriving DecidableEq, Repr, Inhabited

/-- The token is a word or a mark. -/
def TokenKind.isSolid : TokenKind → Bool
  | .word _ _ | .mark _ => true
  | _ => false

/-- The character ends a line. -/
def isLineEnd (c : Char) : Bool :=
  c == '\n' || c == '\r' || c.toNat == 0x2028 || c.toNat == 0x2029

/-- The character is white space within a line. -/
def isInlineSpace (c : Char) : Bool :=
  c == ' ' || c == '\t' || c.toNat == 0xb || c.toNat == 0xc || c.toNat == 0x85 ||
    c.toNat == 0xa0 || c.toNat == 0x1680 || (0x2000 ≤ c.toNat && c.toNat ≤ 0x200b) ||
    c.toNat == 0x202f || c.toNat == 0x205f || c.toNat == 0x3000 || c.toNat == 0xfeff

/-- What separates two tokens. -/
structure Gap where
  /-- Number of characters. -/
  length : Nat
  /-- A line ends within. -/
  newline : Bool
  /-- No comment is left open. -/
  closed : Bool
  deriving Repr

/-- A gap with so many characters in front of it. -/
def Gap.after (gap : Gap) (count : Nat) : Gap := { gap with length := gap.length + count }

/-- A gap in which a line ends. -/
def Gap.withNewline (gap : Gap) (newline : Bool) : Gap :=
  { gap with newline := gap.newline || newline }

/-- The kind of text a gap goes through. -/
inductive GapMode where
  /-- White space. -/
  | blank
  /-- A comment up to the end of the line. -/
  | line
  /-- A comment up to its closing mark. -/
  | block

/-- The gap at the start of a text. -/
def gapFrom : GapMode → List Char → Gap
  | .blank, '/' :: '/' :: rest => (gapFrom .line rest).after 2
  | .blank, '/' :: '*' :: rest => (gapFrom .block rest).after 2
  | .blank, c :: rest =>
    if isLineEnd c then ((gapFrom .blank rest).after 1).withNewline true
    else if isInlineSpace c then (gapFrom .blank rest).after 1
    else ⟨0, false, true⟩
  | .line, c :: rest =>
    if isLineEnd c then ((gapFrom .blank rest).after 1).withNewline true
    else (gapFrom .line rest).after 1
  | .block, '*' :: '/' :: rest => (gapFrom .blank rest).after 2
  | .block, c :: rest => ((gapFrom .block rest).after 1).withNewline (isLineEnd c)
  | .block, [] => ⟨0, false, false⟩
  | .blank, [] => ⟨0, false, true⟩
  | .line, [] => ⟨0, false, true⟩

/-- The value of a hexadecimal digit. -/
def hexValue? (c : Char) : Option Nat :=
  if '0' ≤ c && c ≤ '9' then some (c.toNat - 48)
  else if 'a' ≤ c && c ≤ 'f' then some (c.toNat - 87)
  else if 'A' ≤ c && c ≤ 'F' then some (c.toNat - 55)
  else none

/-- The character is a hexadecimal digit. -/
def isHexDigit (c : Char) : Bool := (hexValue? c).isSome

/-- The number written by hexadecimal digits. -/
def hexNumber (digits : List Char) : Nat :=
  digits.foldl (fun value c => value * 16 + (hexValue? c).getD 0) 0

/-- The code point and the length of what follows a backslash and the letter u. -/
def codePoint? (text : List Char) : Option (Nat × Nat) :=
  match text with
  | '{' :: rest =>
    let digits := rest.takeWhile isHexDigit
    if digits.isEmpty || hexNumber digits > 0x10ffff then none
    else
      match rest.drop digits.length with
      | '}' :: _ => some (hexNumber digits, digits.length + 2)
      | _ => none
  | a :: b :: c :: d :: _ =>
    if isHexDigit a && isHexDigit b && isHexDigit c && isHexDigit d then
      some (hexNumber [a, b, c, d], 4)
    else none
  | _ => none

/-- Read a word: its characters with escapes resolved, its length, and whether it has escapes.
The first argument bounds the number of characters; the second says that the word has begun. -/
def wordFrom : Nat → Bool → List Char → Option (List Char × Nat × Bool)
  | 0, _, _ => some ([], 0, false)
  | _ + 1, _, [] => some ([], 0, false)
  | bound + 1, begun, '\\' :: rest =>
    match rest with
    | 'u' :: escape =>
      match codePoint? escape with
      | none => none
      | some (point, length) =>
        let c := Char.ofNat point
        if Text.isIdentifierStart c || (begun && Text.isIdentifierPart c) then
          match wordFrom bound true (escape.drop length) with
          | none => none
          | some (chars, more, _) => some (c :: chars, more + length + 2, true)
        else none
    | _ => none
  | bound + 1, begun, c :: rest =>
    if Text.isIdentifierStart c || (begun && Text.isIdentifierPart c) then
      match wordFrom bound true rest with
      | none => none
      | some (chars, more, escaped) => some (c :: chars, more + 1, escaped)
    else some ([], 0, false)

/-- Digits with single underscores between them. -/
def wellSeparated (digits : List Char) : Bool :=
  !digits.isEmpty && digits.head? != some '_' && digits.getLast? != some '_' &&
    !(digits.zip digits.tail).any (fun (a, b) => a == '_' && b == '_')

/-- The number of digits, and of underscores between them, at the start of a text. -/
def digitsLength (isDigit : Char → Bool) (text : List Char) : Option Nat :=
  let digits := text.takeWhile fun c => isDigit c || c == '_'
  if digits.isEmpty then some 0 else if wellSeparated digits then some digits.length else none

/-- The number of characters of an exponent. -/
def exponentLength (text : List Char) : Option Nat :=
  match text with
  | 'e' :: rest | 'E' :: rest =>
    let sign := match rest with
      | '+' :: _ | '-' :: _ => 1
      | _ => 0
    match digitsLength Char.isDigit (rest.drop sign) with
    | some (count + 1) => some (1 + sign + (count + 1))
    | _ => none
  | _ => some 0

/-- The number of characters of a number in another base, after its mark. -/
def basedLength (isDigit : Char → Bool) (text : List Char) : Option Nat :=
  match digitsLength isDigit text with
  | some (count + 1) =>
    match text.drop (count + 1) with
    | 'n' :: _ => some (count + 4)
    | _ => some (count + 3)
  | _ => none

/-- The number of characters of a decimal number. -/
def decimalLength (text : List Char) : Option Nat := do
  let whole ← digitsLength Char.isDigit text
  match text.drop whole with
  | 'n' :: _ => return whole + 1
  | '.' :: fraction =>
    let digits ← digitsLength Char.isDigit fraction
    let exponent ← exponentLength (fraction.drop digits)
    return whole + 1 + digits + exponent
  | rest =>
    let exponent ← exponentLength rest
    return whole + exponent

/-- The number of characters of a number; a name or digit must not follow it directly. -/
def numberLength? (text : List Char) : Option Nat := do
  let length ←
    match text with
    | '0' :: 'x' :: rest | '0' :: 'X' :: rest => basedLength isHexDigit rest
    | '0' :: 'b' :: rest | '0' :: 'B' :: rest => basedLength (fun c => c == '0' || c == '1') rest
    | '0' :: 'o' :: rest | '0' :: 'O' :: rest => basedLength (fun c => '0' ≤ c && c ≤ '7') rest
    | _ => decimalLength text
  match text.drop length with
  | c :: _ => if Text.isIdentifierStart c || c.isDigit || c == '\\' then none else some length
  | [] => some length

/-- The number of characters of a string after its opening quote, the closing one included. -/
def stringLength? (quote : Char) : List Char → Option Nat
  | [] => none
  | '\\' :: '\r' :: '\n' :: rest => (stringLength? quote rest).map (· + 3)
  | '\\' :: 'x' :: rest =>
    match rest with
    | a :: b :: rest =>
      if isHexDigit a && isHexDigit b then (stringLength? quote rest).map (· + 4) else none
    | _ => none
  | '\\' :: 'u' :: rest =>
    if (codePoint? rest).isSome then (stringLength? quote rest).map (· + 2) else none
  | '\\' :: _ :: rest => (stringLength? quote rest).map (· + 2)
  | c :: rest =>
    if c = quote then some 1
    else if c = '\n' ∨ c = '\r' then none
    else (stringLength? quote rest).map (· + 1)

/-- How a literal part of a template ends. -/
inductive TemplateEnd where
  /-- At the closing quote. -/
  | quote
  /-- Where an expression starts. -/
  | expression
  deriving DecidableEq, Repr

/-- The number of characters of a literal part of a template, the mark at its end included. -/
def templatePart? : List Char → Option (Nat × TemplateEnd)
  | [] => none
  | '\x60' :: _ => some (1, .quote)
  | '$' :: '{' :: _ => some (2, .expression)
  | '\\' :: _ :: rest => (templatePart? rest).map fun (n, e) => (n + 2, e)
  | _ :: rest => (templatePart? rest).map fun (n, e) => (n + 1, e)

/-- The escapes in a literal part of a template are well-formed. -/
def templateEscapesValid : List Char → Bool
  | '\\' :: 'x' :: rest =>
    match rest with
    | a :: b :: rest => isHexDigit a && isHexDigit b && templateEscapesValid rest
    | _ => false
  | '\\' :: 'u' :: rest => (codePoint? rest).isSome && templateEscapesValid rest
  | '\\' :: c :: rest =>
    (!c.isDigit || (c == '0' && !(rest.head?.any Char.isDigit))) && templateEscapesValid rest
  | _ :: rest => templateEscapesValid rest
  | [] => true

/-- The number of characters of a regular expression after its opening slash, its closing slash
included. -/
def regexBody? : Bool → List Char → Option Nat
  | _, [] => none
  | inClass, '\\' :: c :: rest =>
    if isLineEnd c then none else (regexBody? inClass rest).map (· + 2)
  | inClass, c :: rest =>
    if isLineEnd c then none
    else if c = '/' ∧ inClass = false then some 1
    else if c = '[' then (regexBody? true rest).map (· + 1)
    else if c = ']' then (regexBody? false rest).map (· + 1)
    else (regexBody? inClass rest).map (· + 1)

/-- The number of characters of a regular expression after its opening slash, flags included.
Each of the flags may be given once. -/
def regexLength? (text : List Char) : Option Nat := do
  let body ← regexBody? false text
  let flags := (text.drop body).takeWhile Text.isIdentifierPart
  if flags.all ("dgimsuvy".toList.contains ·) && flags.eraseDups.length == flags.length then
    some (body + flags.length)
  else none

/-- The punctuation marks, longer ones before those they start with.  A closing angle bracket is
always taken alone. -/
def marks : List String :=
  ["...", "===", "!==", "**=", "&&=", "||=", "??=", "<<=", "=>", "==", "!=", "**", "*=", "++", "+=",
    "--", "-=", "/=", "%=", "&&", "&=", "||", "|=", "^=", "??", "?.", "<<", "<=", "\x7b", "\x7d", "(", ")",
    "[", "]", ";", ",", "<", ">", "+", "-", "*", "/", "%", "&", "|", "^", "!", "~", "?", ":", "=",
    ".", "@"]

/-- The punctuation mark at the start of a text. -/
def mark? (text : List Char) : Option String :=
  marks.find? fun m =>
    m.toList.isPrefixOf text && !(m == "?." && (text.drop 2).head?.any Char.isDigit)

/-- The token at the start of a text, which does not start with a gap. -/
def tokenAt (text : List Char) : TokenKind × Nat :=
  match text with
  | [] => (.ending, 0)
  | c :: rest =>
    if c.isDigit || (c == '.' && rest.head?.any Char.isDigit) then
      match numberLength? text with
      | some length => (.number, length)
      | none => (.invalid, 1)
    else if c == '"' || c == '\x27' then
      match stringLength? c rest with
      | some length => (.string, length + 1)
      | none => (.invalid, 1)
    else if c == '\x60' then (.backquote, 1)
    else if c == '#' then
      match wordFrom rest.length false rest with
      | some (_ :: _, length, _) => (.privateName, length + 1)
      | _ => (.invalid, 1)
    else if Text.isIdentifierStart c || c == '\\' then
      match wordFrom text.length false text with
      | some (chars, length, escaped) => (.word (String.ofList chars) escaped, length)
      | none => (.invalid, 1)
    else
      match mark? text with
      | some m => (.mark m, m.length)
      | none => (.invalid, 1)

/-- Where a word starts, it takes up characters. -/
theorem wordFrom_pos {bound length : Nat} {begun escaped : Bool} {text chars : List Char}
    (bounded : 0 < bound)
    (starts : text.head?.any (fun c => Text.isIdentifierStart c || c == '\\') = true)
    (word : wordFrom bound begun text = some (chars, length, escaped)) : 0 < length := by
  revert word
  fun_cases wordFrom bound begun text with
  | case1 => cases bounded
  | case2 => cases starts
  | case5 | case9 =>
    rintro ⟨⟩
    omega
  | case10 => simp_all
  | _ => rintro ⟨⟩

theorem length_pos_of_mark? {text : List Char} {mark : String} (found : mark? text = some mark) :
    0 < mark.length := by
  have every : ∀ m ∈ marks, 0 < m.length := by decide
  exact every mark (List.mem_of_find?_eq_some found)

/-- A word or a mark takes up characters of the text. -/
theorem tokenAt_solid {text : List Char} (solid : (tokenAt text).1.isSolid = true) :
    0 < (tokenAt text).2 ∧ text ≠ [] := by
  revert solid
  fun_cases tokenAt text with
  | case9 c rest _ _ _ _ starts _ _ _ word =>
    rw [word]
    exact fun _ => ⟨wordFrom_pos (Nat.succ_pos _) (by exact starts) word, List.cons_ne_nil _ _⟩
  | case11 c rest _ _ _ _ _ _ found =>
    rw [found]
    exact fun _ => ⟨length_pos_of_mark? found, List.cons_ne_nil _ _⟩
  | _ => simp_all [TokenKind.isSolid]

end Script
end ReactiveTemplate
