import SlabAllocator.Memory

/-! The owners of a pool: the bases of its frames in increasing order. An address belongs
to the frame with the greatest base that is not above it, or to none. -/

namespace SlabAllocator

abbrev Owners := List Addr

namespace Owners

def insert (base : Addr) : Owners → Owners
  | [] => [base]
  | other :: rest =>
    if base < other then base :: other :: rest
    else if base = other then other :: rest
    else other :: insert base rest

def erase (base : Addr) (owners : Owners) : Owners :=
  List.erase owners base

/-- The greatest base that is not above an address. -/
def floor? (addr : Addr) (owners : Owners) : Option Addr :=
  (owners.takeWhile (· ≤ addr)).getLast?

/-- The frame of `frameLen` bytes that an address lies in. -/
def find? (frameLen : Nat) (addr : Addr) (owners : Owners) : Option Addr :=
  (owners.floor? addr).filter fun base => addr - base < frameLen

end Owners
end SlabAllocator
