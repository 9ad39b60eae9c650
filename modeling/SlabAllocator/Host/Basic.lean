import SlabAllocator.Memory

/-! A host decides which blocks exist and where they lie. What is in them is not its
concern: a granted block is zeroed, a resized one keeps its bytes. -/

namespace SlabAllocator

class Host (σ : Type) where
  pageSize : σ → Nat
  /-- The base of a new block, or `none` if the host denies it. -/
  request (len : Nat) : Run σ (Option Addr)
  /-- The base of a live block once it has another length. A host need not offer this. -/
  resize (base : Addr) (oldLen newLen : Nat) : Run σ (Option Addr) := fun s => .ok none s
  giveBack (base : Addr) (len : Nat) : Run σ Unit
  /-- Whether the protection of a live block changed. -/
  protect (base : Addr) (len : Nat) (mode : Protection) : Run σ Bool

end SlabAllocator
