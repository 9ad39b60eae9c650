import SlabAllocator.Size

/-! A written size: decimal digits behind an optional plus sign, with any number of leading
zeros, as long as the value is a size. -/

namespace SlabAllocator.Text

def isDigit (c : Char) : Bool :=
  '0' ≤ c && c ≤ '9'

/-- The number that digits denote, behind those already read. -/
def ofDigits (read : Nat) : List Char → Nat
  | [] => read
  | c :: rest => ofDigits (10 * read + (c.toNat - '0'.toNat)) rest

def unsigned? (digits : List Char) : Option Nat :=
  if digits.isEmpty || !digits.all isDigit then none
  else if ofDigits 0 digits < Size.bound then some (ofDigits 0 digits)
  else none

def size? : List Char → Option Nat
  | '+' :: digits => unsigned? digits
  | digits => unsigned? digits

end SlabAllocator.Text
