import SlabAllocator.Policy
import SlabAllocator.Pool.Basic

/-! An allocator routes each request by its size: to the pool of its size class below the
cutoff, and straight to the arena from there on. It keeps no sizes, so a client gives a
block back with the size it has. -/

namespace SlabAllocator

/-- Where requests of some size are served from. -/
inductive SizeClass where
  | pool (entitySize : Nat)
  | arena (pages : Nat)
  deriving DecidableEq

structure AllocatorStats where
  arena : ArenaStats
  pools : Nat
  frames : Nat
  liveSlots : Nat
  deriving DecidableEq

structure Allocator (σ ω : Type) where
  arena : Arena σ ω
  policy : Policy
  /-- Entry `i` holds the pool of slots of `i + 1` alignment units. -/
  pools : Array (Option Pool)

namespace Allocator

/-- An allocator with an empty registry: an entry for each class, and at least one. -/
def build (arena : Arena σ ω) (policy : Policy) : Checked (Allocator σ ω) := do
  let classes := (← policy.sizeClasses).getD 0
  return ⟨arena, policy, Array.replicate (max classes 1) none⟩

def standard (arena : Arena σ ω) : Checked (Allocator σ ω) :=
  build arena .standard

def withPolicy (arena : Arena σ ω) (policy : Policy) :
    Checked (Except PolicyError (Allocator σ ω)) := do
  match ← policy.validate with
  | .error error => return .error error
  | .ok () => return .ok (← build arena policy)

/-- The class of a request. An empty one counts as one alignment unit. -/
def sizeClass (allocator : Allocator σ ω) (size : Nat) : Checked SizeClass := do
  if size < allocator.policy.cutoff then
    return .pool (← Size.roundUp (max size 1) allocator.policy.alignment)
  else return .arena (← Size.divUp size allocator.arena.pageSize)

def classIndex (allocator : Allocator σ ω) (entitySize : Nat) : Checked Nat := do
  Size.sub (← Size.div entitySize allocator.policy.alignment) 1

/-- The pool of this entity size, if it exists. -/
def pool? (allocator : Allocator σ ω) (entitySize : Nat) : Checked (Option Pool) := do
  if entitySize = 0 then return none
  if (← Size.rem entitySize allocator.policy.alignment) != 0 then return none
  return allocator.pools[← allocator.classIndex entitySize]?.join

/-- The pools created so far, in the order of their classes. -/
def registered (allocator : Allocator σ ω) : List Pool :=
  allocator.pools.toList.filterMap id

def stats (allocator : Allocator σ ω) : Checked AllocatorStats := do
  let pools := allocator.registered
  return {
    arena := allocator.arena.stats
    pools := pools.length
    frames := ← Size.sum (pools.map Pool.frameCount)
    liveSlots := ← Size.sum (← pools.mapM (·.liveSlots allocator.arena.machine.memory)) }

def onArena (action : Run (Arena σ ω) α) : Run (Allocator σ ω) α :=
  Run.focus (·.arena) (fun arena allocator => { allocator with arena }) action

/-- Runs an action on the pool at a registry entry. -/
def onEntry (index : Nat) (pool : Pool) (action : Pool.Action σ ω α) :
    Run (Allocator σ ω) α :=
  Run.focus (fun allocator => (pool, allocator.arena))
    (fun (pool, arena) allocator =>
      { allocator with arena, pools := allocator.pools.setIfInBounds index (some pool) })
    action

/-- The pool of a size class, created when the class is first seen. -/
def openPool (index entitySize : Nat) : Run (Allocator σ ω) (Except AllocError Pool) := do
  let allocator ← get
  match ← inRange allocator.pools[index]? with
  | some pool => return .ok pool
  | none =>
    match ← onArena (Pool.create entitySize allocator.arena.pageSize
        allocator.policy.compactInterval) with
    | .error error => return .error error
    | .ok pool =>
      modify fun allocator =>
        { allocator with pools := allocator.pools.setIfInBounds index (some pool) }
      return .ok pool

variable [Host σ]

/-- A block of at least `size` bytes. -/
def alloc (size : Nat) : Run (Allocator σ ω) Outcome := do
  match ← (← get).sizeClass size with
  | .pool entitySize =>
    let index ← (← get).classIndex entitySize
    match ← openPool index entitySize with
    | .error error => return .error error
    | .ok pool => onEntry index pool Pool.acquire
  | .arena _ => onArena (Arena.acquire size)

/-- Gives back a block of this size. -/
def free (size : Nat) (addr : Addr) : Run (Allocator σ ω) Unit := do
  match ← (← get).sizeClass size with
  | .pool entitySize =>
    let index ← (← get).classIndex entitySize
    let some pool ← inRange (← get).pools[index]? | throw .violated
    onEntry index pool (Pool.release addr)
  | .arena _ => onArena (Arena.release size addr)

/-- Moves a block to another size, keeping the common bytes. Within a size class it stays
where it is. -/
def realloc (size : Nat) (addr : Addr) (newSize : Nat) : Run (Allocator σ ω) Outcome := do
  let source ← (← get).sizeClass size
  let target ← (← get).sizeClass newSize
  if source = target then return .ok addr
  match source, target with
  | .arena _, .arena _ => onArena (Arena.resize size addr newSize)
  | _, _ =>
    match ← alloc newSize with
    | .error error => return .error error
    | .ok fresh =>
      onArena do Arena.setMemory ((← Arena.memory).copy addr fresh (min size newSize))
      free size addr
      return .ok fresh

/-- Gives back a pooled block by its address alone. -/
def releaseSlot (addr : Addr) : Run (Allocator σ ω) Unit := do
  let pools := (← get).pools
  let owned := pools.findIdx? fun entry => entry.any (·.owns addr)
  let some index := owned | throw .violated
  let some pool ← inRange pools[index]? | throw .violated
  onEntry index pool (Pool.release addr)

/-- Changes the protection of a block that the arena serves. -/
def protect (size : Nat) (addr : Addr) (mode : Protection) : Run (Allocator σ ω) Unit := do
  match ← (← get).sizeClass size with
  | .pool _ => throw .violated
  | .arena _ => onArena (Arena.protect size addr mode)

/-- Compacts the pools of `count` entries from `index` on, and counts the frames released. -/
def compactFrom (index : Nat) : (count : Nat) → Run (Allocator σ ω) Nat
  | 0 => return 0
  | count + 1 => do
    match (← get).pools[index]?.join with
    | some pool =>
      let released ← onEntry index pool Pool.compact
      Size.add released (← compactFrom (index + 1) count)
    | none => compactFrom (index + 1) count

/-- Compacts every registered pool. The result is how many frames were released. -/
def compactAll : Run (Allocator σ ω) Nat := do
  compactFrom 0 (← get).pools.size

/-- A pool outside the registry, which shares the arena. Its owner destroys it. -/
def createPool (entitySize : Nat) : Run (Allocator σ ω) (Except AllocError Pool) := do
  let allocator ← get
  onArena (Pool.create entitySize allocator.arena.pageSize allocator.policy.compactInterval)

/-- Runs an action on a pool outside the registry. -/
def onDedicated (action : Pool.Action σ ω α) : Run (Pool × Allocator σ ω) α :=
  Run.focus (fun state => (state.1, state.2.arena))
    (fun (pool, arena) state => (pool, { state.2 with arena })) action

def poolAcquire : Run (Pool × Allocator σ ω) Outcome :=
  onDedicated Pool.acquire

def poolRelease (addr : Addr) : Run (Pool × Allocator σ ω) Unit :=
  onDedicated (Pool.release addr)

def compactPool : Run (Pool × Allocator σ ω) Nat :=
  onDedicated Pool.compact

def destroyPool : Run (Pool × Allocator σ ω) Unit :=
  onDedicated Pool.destroy

/-- Destroys the pools of `count` entries from `index` on. -/
def destroyFrom (index : Nat) : (count : Nat) → Run (Allocator σ ω) Unit
  | 0 => return ()
  | count + 1 => do
    if let some pool := (← get).pools[index]?.join then
      onEntry index pool Pool.destroy
      modify fun allocator =>
        { allocator with pools := allocator.pools.setIfInBounds index none }
    destroyFrom (index + 1) count

/-- Destroys every registered pool, in the order of their classes. -/
def teardown : Run (Allocator σ ω) Unit := do
  destroyFrom 0 (← get).pools.size

end Allocator
end SlabAllocator
