import SlabAllocator.Memory

/-! What happened at the edges of the allocator, in order: the calls it made to its host
and the recovery hook as events, and the messages it logged. -/

namespace SlabAllocator

inductive Event where
  | request (len : Nat) (granted : Option Addr)
  | resize (base : Addr) (oldLen newLen : Nat) (moved : Option Addr)
  /-- A block went back; `known` says whether the host had it. -/
  | giveBack (base : Addr) (len : Nat) (known : Bool)
  | protect (base : Addr) (len : Nat) (mode : Protection) (changed : Bool)
  /-- A client brought a block that the host does not know. -/
  | supply (base : Addr) (len : Nat)
  | hookStarted (requested : Nat)
  | hookFinished (answer : Option Addr)
  /-- A hook detached the one installed; `found` says whether there was one. -/
  | hookTaken (found : Bool)
  /-- A hook asked whether one is installed. -/
  | hookProbed (attached : Bool)

inductive Level where
  | trace
  | debug
  | warn
  | error

def Level.name : Level → String
  | trace => "TRACE"
  | debug => "DEBUG"
  | warn => "WARN"
  | error => "ERROR"

inductive Message where
  | denied (size : Nat)
  | noHook (size : Nat)
  | hookGaveUp (size : Nat)
  | protectionIgnored (mode : Protection) (base : Addr) (len : Nat)
  | poolCreated (entitySize slots frameLen : Nat)
  | frameAdded (base : Addr) (entitySize frames : Nat)
  | frameReleased (base : Addr) (entitySize : Nat)
  | compacted (entitySize released left : Nat)
  | poolDropped (entitySize frames : Nat)

namespace Message

def level : Message → Level
  | denied _ | poolDropped .. => .warn
  | noHook _ | hookGaveUp _ => .error
  | protectionIgnored .. | poolCreated .. => .debug
  | frameAdded .. | frameReleased .. | compacted .. => .trace

/-- The text of a message, given how to write an address. -/
def text (name : Addr → String) : Message → String
  | denied size => s!"host denied a request for {size} bytes"
  | noHook size => s!"out of memory: no recovery hook for {size} bytes"
  | hookGaveUp size => s!"out of memory: recovery hook gave up on {size} bytes"
  | protectionIgnored mode base len =>
    s!"protection change to {mode.name} ignored for block {name base} ({len} bytes)"
  | poolCreated entitySize slots frameLen =>
    s!"pool for {entitySize} byte entities: {slots} slots per {frameLen} byte frame"
  | frameAdded base entitySize frames =>
    s!"frame {name base} added to {entitySize} byte pool ({frames} frames)"
  | frameReleased base entitySize => s!"frame {name base} released from {entitySize} byte pool"
  | compacted entitySize released left =>
    s!"compacted {entitySize} byte pool: released {released} frames, {left} left"
  | poolDropped entitySize frames =>
    s!"{entitySize} byte pool dropped with {frames} frames still mapped"

end Message

structure Journal where
  events : Array Event
  log : Array Message

namespace Journal

def empty : Journal := ⟨#[], #[]⟩

def note (journal : Journal) (event : Event) : Journal :=
  { journal with events := journal.events.push event }

def say (journal : Journal) (message : Message) : Journal :=
  { journal with log := journal.log.push message }

end Journal
end SlabAllocator
