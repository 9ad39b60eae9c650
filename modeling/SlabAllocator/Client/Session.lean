import SlabAllocator.Allocator
import SlabAllocator.Client.Books

/-! A session is an allocator in the hands of one client, together with what the client has
from it. A block is passed back only while it is in the client's hands, through the layer it
came from and with the size it was last obtained with. Any other request is refused and
changes nothing. -/

namespace SlabAllocator

/-- Where a pool is kept. -/
inductive Source where
  | registry (index : Nat)
  | dedicated (number : Nat)
  deriving DecidableEq

def Source.isRegistry : Source → Bool
  | registry _ => true
  | dedicated _ => false

/-- A slot in the hands of the client, with the size it was last obtained with. -/
structure Slot where
  source : Source
  addr : Addr
  size : Nat
  deriving DecidableEq

/-- What a client can have in its hands. -/
inductive Grant where
  | slot (slot : Slot)
  | block (block : Holding)

structure Session (σ ω : Type) where
  allocator : Allocator σ (Books ω)
  /-- The pools that the client created. One that was destroyed leaves its number. -/
  dedicated : Array (Option Pool)
  slots : List Slot

namespace Session

def start [Host σ] (host : σ) (policy : Policy) (env : ω) :
    Checked (Except PolicyError (Session σ ω)) := do
  return (← Allocator.withPolicy (Arena.new (.new host) (Books.new env)) policy).map
    fun allocator => ⟨allocator, #[], []⟩

def arena (session : Session σ ω) : Arena σ (Books ω) :=
  session.allocator.arena

def memory (session : Session σ ω) : Memory :=
  session.arena.machine.memory

/-- The blocks of the arena in the hands of the client. -/
def held (session : Session σ ω) : List Holding :=
  session.arena.env.held

def pool? (session : Session σ ω) : Source → Option Pool
  | .registry index => session.allocator.pools[index]?.join
  | .dedicated number => session.dedicated[number]?.join

/-- The bytes of a slot: all that its pool has set aside for it. -/
def slotExtent (session : Session σ ω) (slot : Slot) : Addr × Nat :=
  (slot.addr, (session.pool? slot.source).elim 0 Pool.entitySize)

/-- The bytes of a block, in whole pages. -/
def blockExtent (session : Session σ ω) (block : Holding) : Addr × Nat :=
  (block.addr, pageBytes session.arena.pageSize block.size)

/-- Everything in the hands of the client. -/
def handedOut (session : Session σ ω) : List (Addr × Nat) :=
  session.slots.map session.slotExtent ++ session.held.map session.blockExtent

/-- The registry entry that serves requests of a size, or `none` if the arena does. -/
def route (session : Session σ ω) (size : Nat) : Checked (Option Nat) := do
  match ← session.allocator.sizeClass size with
  | .pool entitySize => return some (← session.allocator.classIndex entitySize)
  | .arena _ => return none

def setBooks (session : Session σ ω) (books : Books ω) : Session σ ω :=
  { session with allocator := { session.allocator with arena := { session.arena with env := books } } }

/-- Enters a block that was obtained with this size. -/
def gain (session : Session σ ω) (entry : Option Nat) (size : Nat) (addr : Addr) : Session σ ω :=
  match entry with
  | some index => { session with slots := ⟨.registry index, addr, size⟩ :: session.slots }
  | none => session.setBooks (session.arena.env.gain size addr)

/-- What is in the client's hands at an address, given the size it was last obtained with. -/
def find? (session : Session σ ω) (entry : Option Nat) (size : Nat) (addr : Addr) : Option Grant :=
  match entry with
  | some index => (session.slots.find? (· == ⟨.registry index, addr, size⟩)).map .slot
  | none => (session.arena.env.find? size addr).map .block

def drop (session : Session σ ω) : Grant → Session σ ω
  | .slot slot => { session with slots := session.slots.erase slot }
  | .block block => session.setBooks (session.arena.env.drop block)

def restore (session : Session σ ω) : Grant → Session σ ω
  | .slot slot => { session with slots := slot :: session.slots }
  | .block block => session.setBooks (session.arena.env.restore block)

def onAllocator (action : Run (Allocator σ (Books ω)) α) : Run (Session σ ω) α :=
  Run.focus (·.allocator) (fun allocator session => { session with allocator }) action

def onArena (action : Run (Arena σ (Books ω)) α) : Run (Session σ ω) α :=
  onAllocator (Allocator.onArena action)

/-- Runs an action on a pool that the client created. -/
def onDedicated (number : Nat) (pool : Pool) (action : Run (Pool × Allocator σ (Books ω)) α) :
    Run (Session σ ω) α :=
  Run.focus (fun session => (pool, session.allocator))
    (fun (pool, allocator) session =>
      { session with allocator, dedicated := session.dedicated.setIfInBounds number (some pool) })
    action

variable [Host σ]

def alloc (size : Nat) : Run (Session σ ω) Outcome := do
  let outcome ← onAllocator (Allocator.alloc size)
  if let .ok addr := outcome then
    let entry ← (← get).route size
    modify (·.gain entry size addr)
  return outcome

def free (size : Nat) (addr : Addr) : Run (Session σ ω) Unit := do
  let entry ← (← get).route size
  let some grant := (← get).find? entry size addr | return ()
  modify (·.drop grant)
  onAllocator (Allocator.free size addr)

/-- A block that is being moved is out of the client's hands meanwhile. -/
def realloc (size : Nat) (addr : Addr) (newSize : Nat) : Run (Session σ ω) (Option Outcome) := do
  let entry ← (← get).route size
  let target ← (← get).route newSize
  let some grant := (← get).find? entry size addr | return none
  modify (·.drop grant)
  let outcome ← onAllocator (Allocator.realloc size addr newSize)
  match outcome with
  | .ok moved => modify (·.gain target newSize moved)
  | .error _ => modify (·.restore grant)
  return some outcome

def releaseSlot (addr : Addr) : Run (Session σ ω) Unit := do
  let some slot := (← get).slots.find? fun slot => slot.source.isRegistry && slot.addr == addr
    | return ()
  modify (·.drop (.slot slot))
  onAllocator (Allocator.releaseSlot addr)

def protect (size : Nat) (addr : Addr) (mode : Protection) : Run (Session σ ω) Unit := do
  let entry ← (← get).route size
  if entry.isNone && ((← get).arena.env.find? size addr).isSome then
    onAllocator (Allocator.protect size addr mode)

def createPool (entitySize : Nat) : Run (Session σ ω) Unit := do
  if let .ok pool ← onAllocator (Allocator.createPool entitySize) then
    modify fun session => { session with dedicated := session.dedicated.push (some pool) }

def poolAcquire (number : Nat) : Run (Session σ ω) Unit := do
  let some pool := (← get).dedicated[number]?.join | return ()
  if let .ok addr ← onDedicated number pool Allocator.poolAcquire then
    modify fun session =>
      { session with slots := ⟨.dedicated number, addr, pool.entitySize⟩ :: session.slots }

def poolRelease (number : Nat) (addr : Addr) : Run (Session σ ω) Unit := do
  let some pool := (← get).dedicated[number]?.join | return ()
  let slot := ⟨.dedicated number, addr, pool.entitySize⟩
  if slot ∈ (← get).slots then
    modify (·.drop (.slot slot))
    onDedicated number pool (Allocator.poolRelease addr)

def compactPool (number : Nat) : Run (Session σ ω) Unit := do
  let some pool := (← get).dedicated[number]?.join | return ()
  let _ ← onDedicated number pool Allocator.compactPool

/-- The slots of a pool that is destroyed are gone. -/
def destroyPool (number : Nat) : Run (Session σ ω) Unit := do
  let some pool := (← get).dedicated[number]?.join | return ()
  onDedicated number pool Allocator.destroyPool
  modify fun session => { session with
    dedicated := session.dedicated.setIfInBounds number none
    slots := session.slots.filter (·.source != .dedicated number) }

/-- Blocks of the arena can be acquired past the allocator. -/
def acquire (size : Nat) : Run (Session σ ω) Outcome := do
  let outcome ← onArena (Arena.acquire size)
  if let .ok addr := outcome then modify (·.gain none size addr)
  return outcome

def resize (size : Nat) (addr : Addr) (newSize : Nat) : Run (Session σ ω) (Option Outcome) := do
  let some grant := (← get).find? none size addr | return none
  modify (·.drop grant)
  let outcome ← onArena (Arena.resize size addr newSize)
  match outcome with
  | .ok moved => modify (·.gain none newSize moved)
  | .error _ => modify (·.restore grant)
  return some outcome

def release (size : Nat) (addr : Addr) : Run (Session σ ω) Unit := do
  let some grant := (← get).find? none size addr | return ()
  modify (·.drop grant)
  onArena (Arena.release size addr)

def protectBlock (size : Nat) (addr : Addr) (mode : Protection) : Run (Session σ ω) Unit := do
  if ((← get).arena.env.find? size addr).isSome then
    onArena (Arena.protect size addr mode)

/-- Installs a hook with these programs, or detaches the one installed. -/
def setHook (programs : Option (List (Program ω))) : Run (Session σ ω) Unit := do
  let pageSize := (← get).arena.pageSize
  onArena (Arena.setHook (programs.map fun programs => ⟨Program.auditedAll pageSize programs⟩))

/-- Writes in a block that is in the client's hands. -/
def write (addr : Addr) (offset : Nat) (bytes : List UInt8) : Run (Session σ ω) Unit := do
  let session ← get
  let inside (extent : Addr × Nat) : Bool :=
    extent.1 == addr && offset < extent.2 && offset + bytes.length ≤ extent.2
  if session.handedOut.any inside then
    onArena (Arena.setMemory (session.memory.write (addr + offset) bytes))

/-- Destroys every registered pool, with the slots in them. -/
def teardown : Run (Session σ ω) Unit := do
  onAllocator Allocator.teardown
  modify fun session =>
    { session with slots := session.slots.filter fun slot => !slot.source.isRegistry }

end Session

/-- What a client can do. -/
inductive Op (ω : Type) where
  | alloc (size : Nat)
  | free (size : Nat) (addr : Addr)
  | realloc (size : Nat) (addr : Addr) (newSize : Nat)
  | releaseSlot (addr : Addr)
  | protect (size : Nat) (addr : Addr) (mode : Protection)
  | compactAll
  | createPool (entitySize : Nat)
  | poolAcquire (number : Nat)
  | poolRelease (number : Nat) (addr : Addr)
  | compactPool (number : Nat)
  | destroyPool (number : Nat)
  | acquire (size : Nat)
  | resize (size : Nat) (addr : Addr) (newSize : Nat)
  | release (size : Nat) (addr : Addr)
  | protectBlock (size : Nat) (addr : Addr) (mode : Protection)
  | setHook (programs : Option (List (Program ω)))
  | write (addr : Addr) (offset : Nat) (bytes : List UInt8)
  | change (f : ω → ω)
  | teardown

namespace Session

variable [Host σ]

def step : Op ω → Run (Session σ ω) Unit
  | .alloc size => do let _ ← alloc size
  | .free size addr => free size addr
  | .realloc size addr newSize => do let _ ← realloc size addr newSize
  | .releaseSlot addr => releaseSlot addr
  | .protect size addr mode => protect size addr mode
  | .compactAll => do let _ ← onAllocator Allocator.compactAll
  | .createPool entitySize => createPool entitySize
  | .poolAcquire number => poolAcquire number
  | .poolRelease number addr => poolRelease number addr
  | .compactPool number => compactPool number
  | .destroyPool number => destroyPool number
  | .acquire size => do let _ ← acquire size
  | .resize size addr newSize => do let _ ← resize size addr newSize
  | .release size addr => release size addr
  | .protectBlock size addr mode => protectBlock size addr mode
  | .setHook programs => setHook programs
  | .write addr offset bytes => write addr offset bytes
  | .change f => modify fun session => session.setBooks (session.arena.env.change f)
  | .teardown => teardown

/-- The steps of a client, one after the other. -/
def run : List (Op ω) → Run (Session σ ω) Unit
  | [] => return ()
  | op :: rest => do
    step op
    run rest

/-- The session that these steps lead to, if it starts and none of them stops. -/
def replay (host : σ) (policy : Policy) (env : ω) (ops : List (Op ω)) : Option (Session σ ω) :=
  match start host policy env with
  | .ok (.ok session) =>
    match run ops session with
    | .ok _ final => some final
    | .error .. => none
  | _ => none

end Session
end SlabAllocator
