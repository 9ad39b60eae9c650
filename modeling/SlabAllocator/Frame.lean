import SlabAllocator.Chain
import SlabAllocator.Geometry

/-! A frame is a block that starts with its node in the chain of its pool. The payload of the
node holds the entity size, the slots and the slots taken, and the bitmap follows it. A slot
is known by its offset in the frame. -/

namespace SlabAllocator.Frame

def entitySize (frame : Block) : Nat :=
  Node.payload frame 0

def slots (frame : Block) : Nat :=
  Node.payload frame 1

/-- The slots taken. -/
def occupied (frame : Block) : Nat :=
  Node.payload frame 2

def setOccupied (count : Nat) (frame : Block) : Block :=
  Node.setPayload 2 count frame

def isEmpty (frame : Block) : Bool :=
  occupied frame == 0

/-- The payload of a frame without a slot taken. -/
def header (geometry : Geometry) : List Nat :=
  [geometry.entitySize, geometry.slots, 0]

def bitmap (geometry : Geometry) (frame : Block) : Bitmap :=
  (frame.words Geometry.headerSize geometry.bitmapWords).map Nat.toUInt64

def setBitmap (words : Bitmap) (frame : Block) : Block :=
  frame.setWords Geometry.headerSize (words.map UInt64.toNat)

/-- Frees every slot in the bitmap. The count of slots taken is left alone. -/
def reset (geometry : Geometry) (frame : Block) : Block :=
  setBitmap ((bitmap geometry frame).reset geometry.slots) frame

/-- Where slot `index` starts. -/
def slotAt (geometry : Geometry) (index : Nat) : Checked Nat := do
  Size.add geometry.slotsOffset (← Size.mul index geometry.entitySize)

/-- Takes the lowest free slot. -/
def takeSlot (geometry : Geometry) (frame : Block) : Checked (Option (Nat × Block)) := do
  let taken := occupied frame
  if taken = slots frame then return none
  let words := bitmap geometry frame
  let some index ← words.firstFree | return none
  let frame := setBitmap (← words.set index) frame
  let frame := setOccupied (← Size.add taken 1) frame
  return some (← slotAt geometry index, frame)

/-- Gives back the slot that starts at an offset. Any other offset breaks the contract: one
before the first slot, inside a slot, past the last slot, or of a free slot. -/
def giveBack (geometry : Geometry) (frame : Block) (offset : Nat) : Checked Block := do
  let size := entitySize frame
  expect (size == geometry.entitySize)
  expect (geometry.slotsOffset ≤ offset)
  let past ← Size.sub offset geometry.slotsOffset
  let index ← Size.div past size
  expect ((← Size.rem past size) == 0)
  expect (index < slots frame)
  let words := bitmap geometry frame
  expect (← words.isSet index)
  let frame := setBitmap (← words.clear index) frame
  return setOccupied (← Size.sub (occupied frame) 1) frame

end SlabAllocator.Frame
