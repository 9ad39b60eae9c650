import SlabAllocator.AllocError
import SlabAllocator.Hook
import SlabAllocator.Machine
import SlabAllocator.Size

/-! An arena hands out blocks of whole pages. It keeps counters and at most one recovery
hook, but no record of the blocks: a client gives back the size it asked for, and the
same rounding finds the length again. -/

namespace SlabAllocator

structure ArenaStats where
  /-- Blocks acquired and not yet released. -/
  liveBlocks : Nat
  mappedBytes : Nat
  /-- The most that `mappedBytes` ever was. -/
  peakMappedBytes : Nat
  hookInvocations : Nat
  deriving DecidableEq

/-- What became of an allocation. -/
abbrev Outcome := Except AllocError Addr

structure Arena (σ ω : Type) where
  machine : Machine σ
  pageSize : Nat
  hook : Option (Hook ω)
  stats : ArenaStats
  /-- What the client shares with its hooks. -/
  env : ω

namespace Arena

def new [Host σ] (machine : Machine σ) (env : ω) : Arena σ ω :=
  ⟨machine, machine.pageSize, none, ⟨0, 0, 0, 0⟩, env⟩

def onMachine (action : Run (Machine σ) α) : Run (Arena σ ω) α :=
  Run.focus (·.machine) (fun machine arena => { arena with machine }) action

def note (event : Event) : Run (Arena σ ω) Unit :=
  onMachine (Machine.note event)

def say (message : Message) : Run (Arena σ ω) Unit :=
  onMachine (modify fun machine => { machine with journal := machine.journal.say message })

def memory : Run (Arena σ ω) Memory := do
  return (← get).machine.memory

def setMemory (memory : Memory) : Run (Arena σ ω) Unit :=
  onMachine (Machine.setMemory memory)

def setStats (stats : ArenaStats) : Run (Arena σ ω) Unit :=
  modify fun arena => { arena with stats }

/-- The length of the block behind a request: whole pages, at least one. There is none
when it would be longer than the longest block. -/
def blockLen (arena : Arena σ ω) (size : Nat) : Checked (Option Nat) := do
  return (← Size.roundUp? (max size 1) arena.pageSize).filter (· ≤ Size.longest)

def recordMapped (len : Nat) : Run (Arena σ ω) Unit := do
  let stats := (← get).stats
  let liveBlocks ← Size.add stats.liveBlocks 1
  let mappedBytes ← Size.add stats.mappedBytes len
  setStats { stats with
    liveBlocks, mappedBytes
    peakMappedBytes := max stats.peakMappedBytes mappedBytes }

def recordUnmapped (len : Nat) : Run (Arena σ ω) Unit := do
  let stats := (← get).stats
  let liveBlocks ← Size.sub stats.liveBlocks 1
  let mappedBytes ← Size.sub stats.mappedBytes len
  setStats { stats with liveBlocks, mappedBytes }

/-- Installs a hook in place of the one before, or detaches it. -/
def setHook (hook : Option (Hook ω)) : Run (Arena σ ω) Unit :=
  modify fun arena => { arena with hook }

def hasHook (arena : Arena σ ω) : Bool :=
  arena.hook.isSome

/-- Detaches the hook and returns it. -/
def takeHook : Run (Arena σ ω) (Option (Hook ω)) := do
  let hook := (← get).hook
  setHook none
  return hook

variable [Host σ]

/-- Asks the host alone for a block. -/
def request (size : Nat) : Run (Arena σ ω) (Option Addr) := do
  let some len ← (← get).blockLen size | return none
  let some base ← onMachine (Machine.request len) | return none
  recordMapped len
  return some base

/-- Gives a block back to the host. -/
def release (size : Nat) (addr : Addr) : Run (Arena σ ω) Unit := do
  let some len ← (← get).blockLen size | throw .violated
  onMachine (Machine.giveBack addr len)
  recordUnmapped len

/-- Changes the protection of a block. When the host refuses, the block keeps the one it
has. -/
def protect (size : Nat) (addr : Addr) (mode : Protection) : Run (Arena σ ω) Unit := do
  let some len ← (← get).blockLen size | return ()
  if !(← onMachine (Machine.protect addr len mode)) then
    say (.protectionIgnored mode addr len)

end Arena
end SlabAllocator
