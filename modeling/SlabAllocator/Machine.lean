import SlabAllocator.Host.Basic
import SlabAllocator.Journal

/-! A machine is a host together with the memory it maps and a journal of the calls made
to it. Only the hosted blocks that are live, at their exact length, reach the host again:
giving back any other block does nothing, and resizing or protecting one is denied. -/

namespace SlabAllocator

structure Machine (σ : Type) where
  host : σ
  memory : Memory
  journal : Journal

namespace Machine

def new (host : σ) : Machine σ :=
  ⟨host, .empty, .empty⟩

def onHost (action : Run σ α) : Run (Machine σ) α :=
  Run.focus (·.host) (fun host machine => { machine with host }) action

def note (event : Event) : Run (Machine σ) Unit :=
  modify fun machine => { machine with journal := machine.journal.note event }

def setMemory (memory : Memory) : Run (Machine σ) Unit :=
  modify fun machine => { machine with memory }

variable [Host σ]

def pageSize (machine : Machine σ) : Nat :=
  Host.pageSize machine.host

def request (len : Nat) : Run (Machine σ) (Option Addr) := do
  let granted ← onHost (Host.request len)
  if let some base := granted then
    setMemory ((← get).memory.map base len true)
  note (.request len granted)
  return granted

def resize (base : Addr) (oldLen newLen : Nat) : Run (Machine σ) (Option Addr) := do
  let live := (← get).memory.hosts base oldLen
  let moved ← if live then onHost (Host.resize base oldLen newLen) else pure none
  if let some target := moved then
    setMemory ((← get).memory.remap base target newLen)
  note (.resize base oldLen newLen moved)
  return moved

def giveBack (base : Addr) (len : Nat) : Run (Machine σ) Unit := do
  let live := (← get).memory.hosts base len
  if live then
    onHost (Host.giveBack base len)
    setMemory ((← get).memory.unmap base)
  note (.giveBack base len live)

def protect (base : Addr) (len : Nat) (mode : Protection) : Run (Machine σ) Bool := do
  let live := (← get).memory.hosts base len
  let changed ← if live then onHost (Host.protect base len mode) else pure false
  if changed then
    setMemory ((← get).memory.protect base mode)
  note (.protect base len mode changed)
  return changed

/-- A client brings a zeroed block of its own. -/
def supply (base : Addr) (len : Nat) : Run (Machine σ) Unit := do
  setMemory ((← get).memory.map base len false)
  note (.supply base len)

end Machine
end SlabAllocator
