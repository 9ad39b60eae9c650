import SlabAllocator.Arena.Acquire
import SlabAllocator.Frame
import SlabAllocator.Pool.Owners

/-! A pool serves slots of one size from a chain of frames, each of them a block of the
arena. It fills the first frame with a free slot before it adds one, and returns empty
frames whenever a number of slots has been released. -/

namespace SlabAllocator

structure Pool where
  geometry : Geometry
  /-- The frames in the order they were added. -/
  frames : Chain
  owners : Owners
  /-- Releases since the last automatic compaction. -/
  releases : Nat
  /-- Releases from one automatic compaction to the next. -/
  interval : Nat

namespace Pool

/-- An empty pool on frames of whole pages. An interval of zero counts as one. -/
def create (entitySize pageSize interval : Nat) :
    Run (Arena σ ω) (Except AllocError Pool) := do
  let some geometry ← Geometry.ofEntity entitySize pageSize
    | return .error (.invalidEntitySize entitySize)
  Arena.say (.poolCreated entitySize geometry.slots geometry.frameLen)
  return .ok ⟨geometry, .empty, [], 0, max interval 1⟩

def entitySize (pool : Pool) : Nat :=
  pool.geometry.entitySize

def frameLen (pool : Pool) : Nat :=
  pool.geometry.frameLen

def frameCount (pool : Pool) : Nat :=
  pool.frames.length

/-- The slots handed out. -/
def liveSlots (pool : Pool) (memory : Memory) : Checked Nat := do
  Size.sum ((← pool.frames.nodes memory).map fun frame => Frame.occupied (memory.block frame))

/-- The frame an address lies in. -/
def owner? (pool : Pool) (addr : Addr) : Option Addr :=
  pool.owners.find? pool.frameLen addr

def owns (pool : Pool) (addr : Addr) : Bool :=
  (pool.owner? addr).isSome

/-- Actions on a pool and the arena it takes its frames from. -/
abbrev Action (σ ω : Type) := Run (Pool × Arena σ ω)

def onArena (action : Run (Arena σ ω) α) : Action σ ω α :=
  Run.focus Prod.snd (fun arena state => (state.1, arena)) action

def put (pool : Pool) : Action σ ω Unit :=
  modify fun state => (pool, state.2)

/-- Puts a changed chain and the memory of its links in place. -/
def setFrames (changed : Chain × Memory) : Action σ ω Unit := do
  onArena (Arena.setMemory changed.2)
  put { (← get).1 with frames := changed.1 }

/-- The address of a slot taken in a frame, and the memory with the changed frame. -/
def handOut (memory : Memory) (frame : Addr) (slot : Nat × Block) : Checked (Addr × Memory) := do
  return (← Size.add frame slot.1, memory.update frame fun _ => slot.2)

/-- The first frame of a walk with a free slot: that slot, taken. -/
def takeFirst (geometry : Geometry) (memory : Memory) :
    (remaining : Nat) → Option Addr → Checked (Option (Addr × Memory))
  | _, none => return none
  | 0, some _ => throw .overflow
  | remaining + 1, some frame => do
    let block := memory.block frame
    match ← Frame.takeSlot geometry block with
    | some slot => return some (← handOut memory frame slot)
    | none => takeFirst geometry memory remaining (Node.next block)

variable [Host σ]

/-- Adds an empty frame behind the others. -/
def grow : Action σ ω Outcome := do
  let geometry := (← get).1.geometry
  match ← onArena (Arena.acquire geometry.frameLen) with
  | .error error => return .error error
  | .ok base =>
    let memory ← onArena Arena.memory
    setFrames (← (← get).1.frames.append memory base (Frame.header geometry))
    onArena (Arena.setMemory ((← onArena Arena.memory).update base (Frame.reset geometry)))
    let pool := (← get).1
    put { pool with owners := pool.owners.insert base }
    onArena (Arena.say (.frameAdded base geometry.entitySize pool.frameCount))
    return .ok base

/-- Hands out the lowest free slot of the first frame that has one, adding a frame when
all are full. -/
def acquire : Action σ ω Outcome := do
  let pool := (← get).1
  let memory ← onArena Arena.memory
  if let some (slot, memory) ← takeFirst pool.geometry memory pool.frames.length pool.frames.head
    then
    onArena (Arena.setMemory memory)
    return .ok slot
  match ← grow with
  | .error error => return .error error
  | .ok frame =>
    let memory ← onArena Arena.memory
    match ← Frame.takeSlot pool.geometry (memory.block frame) with
    | some slot =>
      let (addr, memory) ← handOut memory frame slot
      onArena (Arena.setMemory memory)
      return .ok addr
    | none => return .error (.outOfMemory pool.frameLen)

/-- Unlinks a frame and gives it back to the arena. -/
def dropFrame (frame : Addr) : Action σ ω Unit := do
  let pool := (← get).1
  setFrames (← pool.frames.remove (← onArena Arena.memory) frame)
  onArena (Arena.release pool.frameLen frame)
  let pool := (← get).1
  put { pool with owners := pool.owners.erase frame }
  onArena (Arena.say (.frameReleased frame pool.entitySize))

/-- Drops frames in turn until one is left in the chain, and counts them. -/
def dropWhileMany : List Addr → Action σ ω Nat
  | [] => return 0
  | frame :: rest => do
    if (← get).1.frameCount = 1 then return 0
    dropFrame frame
    Size.add (← dropWhileMany rest) 1

/-- Drops every empty frame from the tail on, except the last one standing. The result is
how many were dropped. -/
def compact : Action σ ω Nat := do
  let memory ← onArena Arena.memory
  let frames ← (← get).1.frames.nodes memory
  let empty := frames.filter fun frame => Frame.isEmpty (memory.block frame)
  let released ← dropWhileMany empty.reverse
  let pool := (← get).1
  if 0 < released then
    onArena (Arena.say (.compacted pool.entitySize released pool.frameCount))
  return released

/-- Gives a slot back to its frame, and compacts when enough were released. -/
def release (addr : Addr) : Action σ ω Unit := do
  let pool := (← get).1
  let some frame := pool.owner? addr | throw .violated
  let memory ← onArena Arena.memory
  let offset ← Size.sub addr frame
  let changed ← Frame.giveBack pool.geometry (memory.block frame) offset
  onArena (Arena.setMemory (memory.update frame fun _ => changed))
  let releases ← Size.add pool.releases 1
  if pool.interval ≤ releases then
    put { pool with releases := 0 }
    let _ ← compact
  else put { pool with releases }

/-- What is left to say of a pool that is let go: frames it still holds stay mapped. -/
def farewell (pool : Pool) : Run (Arena σ ω) Unit := do
  if !pool.frames.isEmpty then
    Arena.say (.poolDropped pool.entitySize pool.frameCount)

def dropAll : List Addr → Action σ ω Unit
  | [] => return ()
  | frame :: rest => do
    dropFrame frame
    dropAll rest

/-- Releases every frame, also those with slots taken. -/
def destroy : Action σ ω Unit := do
  dropAll (← (← get).1.frames.nodes (← onArena Arena.memory))
  onArena (farewell (← get).1)

end Pool
end SlabAllocator
