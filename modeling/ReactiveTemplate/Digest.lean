/-!
# SHA-256

The digest that identifies the content of a file.  A message is padded to blocks of sixteen words;
each block is mixed into the eight words of the state by sixty-four rounds.
-/

namespace ReactiveTemplate
namespace Digest

/-- The round constants: fractional parts of the cube roots of the first sixty-four primes. -/
def roundConstants : Array UInt32 :=
  #[0x428a2f98, 0x71374491, 0xb5c0fbcf, 0xe9b5dba5, 0x3956c25b, 0x59f111f1, 0x923f82a4, 0xab1c5ed5,
    0xd807aa98, 0x12835b01, 0x243185be, 0x550c7dc3, 0x72be5d74, 0x80deb1fe, 0x9bdc06a7, 0xc19bf174,
    0xe49b69c1, 0xefbe4786, 0x0fc19dc6, 0x240ca1cc, 0x2de92c6f, 0x4a7484aa, 0x5cb0a9dc, 0x76f988da,
    0x983e5152, 0xa831c66d, 0xb00327c8, 0xbf597fc7, 0xc6e00bf3, 0xd5a79147, 0x06ca6351, 0x14292967,
    0x27b70a85, 0x2e1b2138, 0x4d2c6dfc, 0x53380d13, 0x650a7354, 0x766a0abb, 0x81c2c92e, 0x92722c85,
    0xa2bfe8a1, 0xa81a664b, 0xc24b8b70, 0xc76c51a3, 0xd192e819, 0xd6990624, 0xf40e3585, 0x106aa070,
    0x19a4c116, 0x1e376c08, 0x2748774c, 0x34b0bcb5, 0x391c0cb3, 0x4ed8aa4a, 0x5b9cca4f, 0x682e6ff3,
    0x748f82ee, 0x78a5636f, 0x84c87814, 0x8cc70208, 0x90befffa, 0xa4506ceb, 0xbef9a3f7, 0xc67178f2]

/-- The eight words of the running digest. -/
structure State where
  /-- First word. -/
  a : UInt32
  /-- Second word. -/
  b : UInt32
  /-- Third word. -/
  c : UInt32
  /-- Fourth word. -/
  d : UInt32
  /-- Fifth word. -/
  e : UInt32
  /-- Sixth word. -/
  f : UInt32
  /-- Seventh word. -/
  g : UInt32
  /-- Eighth word. -/
  h : UInt32
  deriving DecidableEq, Repr

/-- The digest of nothing: fractional parts of the square roots of the first eight primes. -/
def State.initial : State :=
  ⟨0x6a09e667, 0xbb67ae85, 0x3c6ef372, 0xa54ff53a, 0x510e527f, 0x9b05688c, 0x1f83d9ab, 0x5be0cd19⟩

/-- Wordwise addition. -/
def State.add (left right : State) : State :=
  ⟨left.a + right.a, left.b + right.b, left.c + right.c, left.d + right.d, left.e + right.e,
    left.f + right.f, left.g + right.g, left.h + right.h⟩

/-- Rotate a word to the right. -/
def rotate (word : UInt32) (amount : UInt32) : UInt32 :=
  (word >>> amount) ||| (word <<< (32 - amount))

/-- Mix one word of the schedule into the state. -/
def round (s : State) (constant word : UInt32) : State :=
  let upper := rotate s.e 6 ^^^ rotate s.e 11 ^^^ rotate s.e 25
  let choice := (s.e &&& s.f) ^^^ (s.e.complement &&& s.g)
  let first := s.h + upper + choice + constant + word
  let lower := rotate s.a 2 ^^^ rotate s.a 13 ^^^ rotate s.a 22
  let majority := (s.a &&& s.b) ^^^ (s.a &&& s.c) ^^^ (s.b &&& s.c)
  ⟨first + (lower + majority), s.a, s.b, s.c, s.d + first, s.e, s.f, s.g⟩

/-- The next word of the schedule, from the sixteen before it. -/
def nextWord (words : Array UInt32) : UInt32 :=
  let back (distance : Nat) : UInt32 := words.getD (words.size - distance) 0
  let small0 := rotate (back 15) 7 ^^^ rotate (back 15) 18 ^^^ (back 15 >>> 3)
  let small1 := rotate (back 2) 17 ^^^ rotate (back 2) 19 ^^^ (back 2 >>> 10)
  back 16 + small0 + back 7 + small1

/-- Extend the words of a block by so many further ones. -/
def extend : Nat → Array UInt32 → Array UInt32
  | 0, words => words
  | count + 1, words => extend count (words.push (nextWord words))

/-- Mix one block of sixteen words into the state. -/
def mixBlock (state : State) (block : Array UInt32) : State :=
  let schedule := extend 48 block
  state.add ((roundConstants.zip schedule).foldl (fun s (k, w) => round s k w) state)

/-- Read four bytes as a word, the highest first. -/
def wordOfBytes (b0 b1 b2 b3 : UInt8) : UInt32 :=
  (b0.toUInt32 <<< 24) ||| (b1.toUInt32 <<< 16) ||| (b2.toUInt32 <<< 8) ||| b3.toUInt32

/-- Read bytes as words. -/
def wordsOfBytes : List UInt8 → List UInt32
  | b0 :: b1 :: b2 :: b3 :: rest => wordOfBytes b0 b1 b2 b3 :: wordsOfBytes rest
  | _ => []

/-- The eight bytes of a length in bits. -/
def lengthBytes (bits : Nat) : List UInt8 :=
  (List.range 8).map fun i => (bits >>> (8 * (7 - i))).toUInt8

/-- Pad a message with a one bit, zeros and its length to a multiple of sixty-four bytes. -/
def pad (message : List UInt8) : List UInt8 :=
  let zeros := (119 - message.length % 64) % 64
  message ++ [0x80] ++ List.replicate zeros 0 ++ lengthBytes (8 * message.length)

/-- Mix so many blocks into the state. -/
def mixBlocks : Nat → State → List UInt32 → State
  | 0, state, _ => state
  | count + 1, state, words =>
    mixBlocks count (mixBlock state (words.take 16).toArray) (words.drop 16)

/-- The digest of a message. -/
def sha256 (message : List UInt8) : State :=
  let words := wordsOfBytes (pad message)
  mixBlocks (words.length / 16) .initial words

/-- A word as eight hexadecimal digits. -/
def hexWord (word : UInt32) : List Char :=
  (List.range 8).map fun i => Nat.digitChar ((word.toNat >>> (4 * (7 - i))) % 16)

/-- A digest in hexadecimal. -/
def State.toHex (s : State) : String :=
  String.ofList ([s.a, s.b, s.c, s.d, s.e, s.f, s.g, s.h].flatMap hexWord)

/-- The digest of a text in hexadecimal. -/
def ofText (text : String) : String := (sha256 text.toUTF8.toList).toHex

end Digest
end ReactiveTemplate
