import SlabAllocator.Fault

/-! A bitmap is a list of 64-bit words: bit `i` is bit `i % 64` of word `i / 64`. The
lowest clear bit of a word is isolated and then looked up in a table indexed by the six
bit window that it selects in a de Bruijn sequence. -/

namespace SlabAllocator

abbrev Bitmap := List UInt64

namespace Bitmap

def wordBits : Nat := 64

/-- The words needed for a number of bits. -/
def wordsFor (bits : Nat) : Nat :=
  (bits + 63) / wordBits

/-- A sequence in which every window of six bits is distinct. -/
def deBruijn : UInt64 := 0x03f79d71b4cb0a89

/-- The bit that each window belongs to. -/
def windows : Array Nat :=
  #[0, 1, 48, 2, 57, 49, 28, 3, 61, 58, 50, 42, 38, 29, 17, 4,
    62, 55, 59, 36, 53, 51, 43, 22, 45, 39, 33, 30, 24, 18, 12, 5,
    63, 47, 56, 27, 60, 41, 37, 16, 54, 35, 52, 21, 44, 32, 23, 11,
    46, 26, 40, 15, 34, 20, 31, 10, 25, 14, 19, 9, 13, 8, 7, 6]

/-- The window that a word selects. -/
def window (word : UInt64) : Nat :=
  ((word * deBruijn) >>> 58).toNat

/-- Keeps only the lowest clear bit of a word, as a set bit. -/
def isolate (word : UInt64) : UInt64 :=
  ~~~word &&& (word + 1)

/-- The place of the only set bit of a word. -/
def bitIndex (isolated : UInt64) : Checked Nat := do
  expect (isolated != 0 && isolated &&& (isolated - 1) == 0)
  inRange windows[window isolated]?

/-- The lowest clear bit of words that start at bit `start`. -/
def firstFreeFrom (start : Nat) : Bitmap → Checked (Option Nat)
  | [] => return none
  | word :: rest => do
    let isolated := isolate word
    if isolated = 0 then firstFreeFrom (start + wordBits) rest
    else return some (start + (← bitIndex isolated))

/-- The lowest clear bit, if there is one. -/
def firstFree (words : Bitmap) : Checked (Option Nat) :=
  firstFreeFrom 0 words

/-- The word that holds one bit alone. -/
def bit (index : Nat) : UInt64 :=
  1 <<< (index % wordBits).toUInt64

def isSet (words : Bitmap) (index : Nat) : Checked Bool := do
  let word ← inRange words[index / wordBits]?
  return word &&& bit index != 0

def set (words : Bitmap) (index : Nat) : Checked Bitmap := do
  let word ← inRange words[index / wordBits]?
  return List.set words (index / wordBits) (word ||| bit index)

def clear (words : Bitmap) (index : Nat) : Checked Bitmap := do
  let word ← inRange words[index / wordBits]?
  return List.set words (index / wordBits) (word &&& ~~~bit index)

/-- Word `i` of a bitmap in which the first `bits` bits are clear and all others set. -/
def freshWord (bits i : Nat) : UInt64 :=
  let start := i * wordBits
  if start + wordBits ≤ bits then 0
  else if bits ≤ start then ~~~0
  else ~~~0 <<< (bits - start).toUInt64

/-- Clears the first `bits` bits and sets every bit past them, so that a search never
lands outside the tracked range. -/
def reset (words : Bitmap) (bits : Nat) : Bitmap :=
  words.mapIdx fun i _ => freshWord bits i

end Bitmap
end SlabAllocator
