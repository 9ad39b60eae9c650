/-! The errors of an allocation. Misuse is not one of them: it is a fault. -/

namespace SlabAllocator

inductive AllocError where
  /-- The host denied the request and no recovery hook produced a block. -/
  | outOfMemory (requested : Nat)
  /-- No pool can be built for this entity size. -/
  | invalidEntitySize (size : Nat)
  deriving DecidableEq

def AllocError.message : AllocError → String
  | outOfMemory requested => s!"out of memory: host denied a request for {requested} bytes"
  | invalidEntitySize size => s!"entity size {size} cannot be pooled"

end SlabAllocator
