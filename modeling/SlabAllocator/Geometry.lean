import SlabAllocator.Bitmap
import SlabAllocator.Size

/-! A frame is a header, the words of its bitmap, its slots and an unused tail, in that
order. The geometry fixes where each of them lies, once for all frames of a pool. -/

namespace SlabAllocator

structure Geometry where
  /-- The bytes of one slot. -/
  entitySize : Nat
  /-- The slots of a frame. -/
  slots : Nat
  bitmapWords : Nat
  /-- Where the first slot starts. -/
  slotsOffset : Nat
  /-- The bytes of a frame, in whole pages. -/
  frameLen : Nat
  deriving DecidableEq

namespace Geometry

/-- The bytes of a frame's header: two links, the entity size, the slots and how many of
them are taken. -/
def headerSize : Nat := 40

/-- The alignment of the first slot. -/
def slotAlign : Nat := 16

/-- The most slots of a frame: eight words of bits. -/
def mostSlots : Nat := 512

/-- Where the first of `slots` slots starts. -/
def slotsOffsetFor (slots : Nat) : Checked Nat := do
  Size.roundUp (← Size.add headerSize (← Size.mul (Bitmap.wordsFor slots) 8)) slotAlign

/-- The bytes that a frame of `slots` slots uses. -/
def footprint (slots entitySize : Nat) : Checked (Option Nat) := do
  let some body := Size.mul? slots entitySize | return none
  return Size.add? body (← slotsOffsetFor slots)

/-- The most slots from `slots` down whose footprint fits. -/
def fitting (entitySize frameLen : Nat) : (slots : Nat) → Checked (Option Nat)
  | 0 => do
    let some used ← footprint 0 entitySize | return none
    if used ≤ frameLen then return some 0 else throw .overflow
  | slots + 1 => do
    let some used ← footprint (slots + 1) entitySize | return none
    if used ≤ frameLen then return some (slots + 1) else fitting entitySize frameLen slots

/-- The geometry for slots of `entitySize` bytes: the fewest pages that hold one slot,
with as many slots as then fit. There is none for empty slots and for slots too large to
frame. -/
def ofEntity (entitySize pageSize : Nat) : Checked (Option Geometry) := do
  if entitySize = 0 then return none
  let some smallest ← footprint 1 entitySize | return none
  let some frameLen ← Size.roundUp? smallest pageSize | return none
  let room ← Size.div (← Size.sub frameLen headerSize) entitySize
  let some slots ← fitting entitySize frameLen (min mostSlots room) | return none
  return some
    { entitySize, slots
      bitmapWords := Bitmap.wordsFor slots
      slotsOffset := ← slotsOffsetFor slots
      frameLen }

end Geometry
end SlabAllocator
