import ReactiveTemplate.Markup.NamedReference

/-!
# Character references

A character reference is an ampersand followed by a number or a known name.  `reference?` reads what
follows an ampersand: the characters it stands for, and how many characters it takes up.
-/

namespace ReactiveTemplate
namespace Markup

/-- What the numbers of the second control block stand for; zero where they stand for themselves. -/
def controlReplacements : List Nat :=
  [0x20ac, 0, 0x201a, 0x192, 0x201e, 0x2026, 0x2020, 0x2021, 0x2c6, 0x2030, 0x160, 0x2039, 0x152, 0,
    0x17d, 0, 0, 0x2018, 0x2019, 0x201c, 0x201d, 0x2022, 0x2013, 0x2014, 0x2dc, 0x2122, 0x161, 0x203a,
    0x153, 0, 0x17e, 0x178]

/-- The character that a number stands for; numbers of no character stand for the replacement
character. -/
def numericCharacter (number : Nat) : Char :=
  if number = 0 ∨ 0x10ffff < number ∨ (0xd800 ≤ number ∧ number ≤ 0xdfff) then Char.ofNat 0xfffd
  else if 0x80 ≤ number ∧ number ≤ 0x9f then
    match controlReplacements.getD (number - 0x80) 0 with
    | 0 => Char.ofNat number
    | replacement => Char.ofNat replacement
  else Char.ofNat number

/-- The value of a digit in a base up to sixteen. -/
def digitValue (c : Char) : Nat :=
  if c.isDigit then c.toNat - 48 else c.toLower.toNat - 87

/-- The character is a hexadecimal digit. -/
def isHexadecimal (c : Char) : Bool :=
  c.isDigit || ('a' ≤ c && c ≤ 'f') || ('A' ≤ c && c ≤ 'F')

/-- A number, where `lead` characters came before its digits. -/
def numericReference? (base : Nat) (isDigit : Char → Bool) (lead : Nat) (text : List Char) :
    Option (List Char × Nat) :=
  let digits := text.takeWhile isDigit
  if digits.isEmpty then none
  else
    let number := digits.foldl (fun value c => value * base + digitValue c) 0
    let semicolon := if (text.drop digits.length).head? = some ';' then 1 else 0
    some ([numericCharacter number], lead + digits.length + semicolon)

/-- The longest name of a list that a text starts with, its length and what it stands for. -/
def longestName (text : List Char) : List (String × List Nat) → Option (Nat × List Nat)
  | [] => none
  | (name, points) :: rest =>
    let others := longestName text rest
    if name.toList.isPrefixOf text then
      match others with
      | some (length, _) => if name.length < length then others else some (name.length, points)
      | none => some (name.length, points)
    else others

/-- A named reference.  Within an attribute, a name without a semicolon is none if it could be the
start of a longer word or of an assignment. -/
def namedReference? (inAttribute : Bool) (text : List Char) : Option (List Char × Nat) :=
  match text with
  | [] => none
  | first :: rest =>
    match longestName rest (namedReferences first) with
    | none => none
    | some (length, points) =>
      let closed := (rest.take length).getLast? = some ';'
      let continues := (rest.drop length).head?.any fun c => c == '=' || c.isAlphanum
      if inAttribute && !closed && continues then none
      else some (points.map Char.ofNat, length + 1)

/-- What follows an ampersand: the characters it stands for and the number of characters read. -/
def reference? (inAttribute : Bool) (text : List Char) : Option (List Char × Nat) :=
  match text with
  | '#' :: 'x' :: rest | '#' :: 'X' :: rest => numericReference? 16 isHexadecimal 2 rest
  | '#' :: rest => numericReference? 10 Char.isDigit 1 rest
  | _ => namedReference? inAttribute text

end Markup
end ReactiveTemplate
