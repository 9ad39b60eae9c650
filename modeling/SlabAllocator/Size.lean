import SlabAllocator.Fault

/-! Sizes are natural numbers below `2 ^ 64`. The plain operations stop when a result
leaves that range; the ones marked with `?` answer `none` instead. -/

namespace SlabAllocator.Size

/-- One more than the greatest size: two to the 64. -/
def bound : Nat := 0x10000000000000000

/-- The longest block that can be addressed: one less than two to the 63. -/
def longest : Nat := 0x7fffffffffffffff

def add (a b : Nat) : Checked Nat :=
  if a + b < bound then .ok (a + b) else .error .overflow

def sub (a b : Nat) : Checked Nat :=
  if b ≤ a then .ok (a - b) else .error .overflow

def mul (a b : Nat) : Checked Nat :=
  if a * b < bound then .ok (a * b) else .error .overflow

def div (a b : Nat) : Checked Nat :=
  if b = 0 then .error .overflow else .ok (a / b)

def rem (a b : Nat) : Checked Nat :=
  if b = 0 then .error .overflow else .ok (a % b)

/-- The quotient rounded up. -/
def divUp (a b : Nat) : Checked Nat :=
  if b = 0 then .error .overflow else .ok ((a + b - 1) / b)

def add? (a b : Nat) : Option Nat :=
  if a + b < bound then some (a + b) else none

def mul? (a b : Nat) : Option Nat :=
  if a * b < bound then some (a * b) else none

def sum (sizes : List Nat) : Checked Nat :=
  sizes.foldlM add 0

def isPowerOfTwo (n : Nat) : Bool :=
  n != 0 && n &&& (n - 1) == 0

/-- Clears the bits of `mask` in `n`. -/
def without (n mask : Nat) : Nat :=
  n - (n &&& mask)

/-- The least multiple of `unit` from `n` on, for a power of two `unit`. -/
def roundUp (n unit : Nat) : Checked Nat := do
  let past ← sub (← add n unit) 1
  return without past (← sub unit 1)

/-- Like `roundUp`, but a result past the greatest size is no fault. -/
def roundUp? (n unit : Nat) : Checked (Option Nat) := do
  let mask ← sub unit 1
  return (add? n mask).map (without · mask)

end SlabAllocator.Size
