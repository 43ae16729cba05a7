/-!
# Byte offsets

Positions inside the library are character indices.  A byte offset counts the bytes of the UTF-8
encoding before a position; `byteOffset` and `indexAtByte?` go between the two on character
boundaries.
-/

namespace ReactiveTemplate
namespace Text

/-- The number of bytes of the UTF-8 encoding of a text. -/
def byteSize : List Char → Nat
  | [] => 0
  | c :: rest => c.utf8Size + byteSize rest

/-- The byte offset of a character index; an index past the end counts as one byte per character. -/
def byteOffset (text : List Char) (index : Nat) : Nat :=
  byteSize (text.take index) + (index - text.length)

/-- The character index at a byte offset, if the offset is a character boundary of the text. -/
def indexAtByte? : List Char → Nat → Option Nat
  | _, 0 => some 0
  | [], _ + 1 => none
  | c :: rest, offset@(_ + 1) =>
    if c.utf8Size ≤ offset then (indexAtByte? rest (offset - c.utf8Size)).map (· + 1) else none

/-- The index of the first character that starts at the byte offset or after it. -/
def indexFromByte : List Char → Nat → Nat
  | _, 0 => 0
  | [], _ + 1 => 0
  | c :: rest, offset@(_ + 1) => indexFromByte rest (offset - c.utf8Size) + 1

/-- The part of a text between two character indices. -/
def slice (text : List Char) (start stop : Nat) : List Char := (text.take stop).drop start

/-- The text starts with the characters of `word`. -/
def startsWith (text : List Char) (word : String) : Bool := word.toList.isPrefixOf text

/-- The text ends with the characters of `word`. -/
def endsWith (text : List Char) (word : String) : Bool := word.toList.isSuffixOf text

/-- The index of the first occurrence of `pattern`. -/
def find? (pattern : List Char) : List Char → Option Nat
  | [] => if pattern.isEmpty then some 0 else none
  | text@(_ :: rest) =>
    if pattern.isPrefixOf text then some 0 else (find? pattern rest).map (· + 1)

/-- The index of the last occurrence of `pattern`. -/
def findLast? (pattern : List Char) : List Char → Option Nat
  | [] => if pattern.isEmpty then some 0 else none
  | text@(_ :: rest) =>
    match findLast? pattern rest with
    | some index => some (index + 1)
    | none => if pattern.isPrefixOf text then some 0 else none

/-- The pattern occurs in the text. -/
def contains (text : List Char) (pattern : String) : Bool := (find? pattern.toList text).isSome

end Text
end ReactiveTemplate
