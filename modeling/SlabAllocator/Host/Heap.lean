import SlabAllocator.Host.Placement
import SlabAllocator.Size

/-! A host without virtual memory. Its blocks come from a heap, aligned to a page size that
should be a power of two. It can change no protection. -/

namespace SlabAllocator

structure Heap where
  pageSize : Nat
  placement : Placement

namespace Heap

def defaultPageSize : Nat := 4096

def new (pageSize : Nat) : Heap :=
  ⟨pageSize, .start⟩

/-- Whether a block of this length, rounded up to its alignment, can be addressed. -/
def describes (heap : Heap) (len : Nat) : Bool :=
  Size.isPowerOfTwo heap.pageSize && len + (heap.pageSize - 1) ≤ Size.longest

def request (len : Nat) : Run Heap (Option Addr) := do
  let heap ← get
  if heap.describes len && heap.pageSize ≤ Placement.regionLen then
    Run.focus (·.placement) (fun placement heap => { heap with placement }) (Placement.place len)
  else return none

def resize (base : Addr) (oldLen newLen : Nat) : Run Heap (Option Addr) := do
  let heap ← get
  if heap.describes oldLen && heap.describes newLen && Placement.holds newLen then
    return some base
  else return none

instance : Host Heap where
  pageSize heap := heap.pageSize
  request := request
  resize := resize
  giveBack _ _ := return ()
  protect _ _ _ := return false

end Heap
end SlabAllocator
