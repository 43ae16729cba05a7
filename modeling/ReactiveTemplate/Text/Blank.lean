import ReactiveTemplate.Text.CharSet

/-!
# Blank characters

The Unicode property `White_Space`, and the removal of blank characters at the ends of a text.
-/

namespace ReactiveTemplate
namespace Text

/-- The white-space characters beyond ASCII. -/
def blankBeyondAscii : CharSet :=
  [
    ⟨0x85, 0x85, 1⟩, ⟨0xa0, 0xa0, 1⟩, ⟨0x1680, 0x1680, 1⟩, ⟨0x2000, 0x200a, 1⟩,
    ⟨0x2028, 0x2029, 1⟩, ⟨0x202f, 0x202f, 1⟩, ⟨0x205f, 0x205f, 1⟩, ⟨0x3000, 0x3000, 1⟩]

/-- The character is white space in the sense of Unicode. -/
def isBlank (c : Char) : Bool :=
  if c.toNat < 0x80 then c == ' ' || (0x9 ≤ c.toNat && c.toNat ≤ 0xd) else blankBeyondAscii.contains c

/-- Remove the blank characters at the start. -/
def trimStart (text : List Char) : List Char := text.dropWhile isBlank

/-- Remove the blank characters at the end. -/
def trimEnd (text : List Char) : List Char := (text.reverse.dropWhile isBlank).reverse

/-- Remove the blank characters at both ends. -/
def trim (text : List Char) : List Char := trimEnd (trimStart text)

/-- The number of blank characters at the start. -/
def blankLead (text : List Char) : Nat := (text.takeWhile isBlank).length

/-- The text has blank characters only. -/
def allBlank (text : List Char) : Bool := text.all isBlank

/-- Remove the blank characters at both ends of a string. -/
def trimmed (text : String) : String := String.ofList (trim text.toList)

end Text
end ReactiveTemplate
