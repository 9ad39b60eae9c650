import SlabAllocator.Host.Placement

/-! A host with virtual memory: it resizes blocks and changes their protection. -/

namespace SlabAllocator

structure Kernel where
  placement : Placement

namespace Kernel

def pageSize : Nat := 4096

def new : Kernel := ⟨.start⟩

def request (len : Nat) : Run Kernel (Option Addr) := do
  if len = 0 then return none
  Run.focus (·.placement) (fun placement _ => ⟨placement⟩) (Placement.place len)

def resize (base : Addr) (_oldLen newLen : Nat) : Run Kernel (Option Addr) :=
  return if newLen != 0 && Placement.holds newLen then some base else none

instance : Host Kernel where
  pageSize _ := pageSize
  request := request
  resize := resize
  giveBack _ _ := return ()
  protect _ _ _ := return true

end Kernel
end SlabAllocator
