/-!
# Numbers in texts

Reading a natural number that is written with decimal digits.
-/

namespace ReactiveTemplate
namespace Text

/-- The number that a list of digits stands for, continuing a number already read. -/
def digitsValue (value : Nat) : List Char → Nat
  | [] => value
  | c :: rest => digitsValue (value * 10 + (c.toNat - '0'.toNat)) rest

/-- The number written in the text, in decimal digits only and with at least one of them. -/
def digits? (text : List Char) : Option Nat :=
  if !text.isEmpty && text.all Char.isDigit then some (digitsValue 0 text) else none

/-- The number written in the text, possibly after a plus sign. -/
def natural? : List Char → Option Nat
  | '+' :: rest => digits? rest
  | text => digits? text

/-- The 32-bit number written in the text. -/
def word32? (text : List Char) : Option UInt32 :=
  match natural? text with
  | some value => if value < 0x100000000 then some (UInt32.ofNat value) else none
  | none => none

end Text
end ReactiveTemplate
