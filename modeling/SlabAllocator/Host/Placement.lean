import SlabAllocator.Host.Basic

/-! Where a host puts its blocks: each in a region of its own, and no region twice. A block
that changes length stays in its region. -/

namespace SlabAllocator

/-- The regions handed out so far. -/
structure Placement where
  used : Nat

namespace Placement

def start : Placement := ⟨0⟩

/-- The bytes of a region: two to the 40. -/
def regionLen : Nat := 0x10000000000

/-- The regions that can be handed out below the middle of the address space. -/
def regions : Nat := 0x7fffff

/-- The start of a region by its number. The first one is not at the null address. -/
def regionStart (number : Nat) : Addr :=
  (number + 1) * regionLen

/-- Whether a block leaves some of its region free. -/
def holds (len : Nat) : Bool :=
  len < regionLen

/-- The start of the next region. -/
def place (len : Nat) : Run Placement (Option Addr) := do
  let used := (← get).used
  if holds len && used < regions then
    set (Placement.mk (used + 1))
    return some (regionStart used)
  else return none

end Placement
end SlabAllocator
