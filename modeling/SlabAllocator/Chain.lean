import SlabAllocator.Memory
import SlabAllocator.Size

/-! A doubly linked chain whose nodes live in memory that the chain does not own, each at
the start of a block. A node is its next link, its previous link and a payload of words;
zero is the missing link. -/

namespace SlabAllocator

namespace Node

def prevOffset : Nat := 8

def payloadOffset : Nat := 16

def toLink : Option Addr → Nat
  | some node => node
  | none => 0

def ofLink (word : Nat) : Option Addr :=
  if word = 0 then none else some word

def next (node : Block) : Option Addr :=
  ofLink (node.word 0)

def prev (node : Block) : Option Addr :=
  ofLink (node.word prevOffset)

def setNext (link : Option Addr) (node : Block) : Block :=
  node.setWord 0 (toLink link)

def setPrev (link : Option Addr) (node : Block) : Block :=
  node.setWord prevOffset (toLink link)

/-- Word `i` of the payload of a node. -/
def payload (node : Block) (i : Nat) : Nat :=
  node.word (payloadOffset + 8 * i)

def setPayload (i value : Nat) (node : Block) : Block :=
  node.setWord (payloadOffset + 8 * i) value

/-- Writes a last node, which has no next one. -/
def write (prev : Option Addr) (payload : List Nat) (node : Block) : Block :=
  node.setWords 0 (0 :: toLink prev :: payload)

end Node

structure Chain where
  head : Option Addr
  tail : Option Addr
  length : Nat

/-- A walk along a chain: the node it stands on and the nodes it still expects. -/
structure Cursor where
  current : Option Addr
  remaining : Nat

namespace Chain

def empty : Chain := ⟨none, none, 0⟩

def isEmpty (chain : Chain) : Bool :=
  chain.length == 0

/-- Writes a node with this payload and links it behind the tail. -/
def append (chain : Chain) (memory : Memory) (node : Addr) (payload : List Nat) :
    Checked (Chain × Memory) := do
  let written := memory.update node (Node.write chain.tail payload)
  let length ← Size.add chain.length 1
  match chain.tail with
  | some tail =>
    return (⟨chain.head, some node, length⟩, written.update tail (Node.setNext (some node)))
  | none => return (⟨some node, some node, length⟩, written)

/-- Links the neighbours of a node past it. The node keeps its own bytes. -/
def remove (chain : Chain) (memory : Memory) (node : Addr) : Checked (Chain × Memory) := do
  let next := Node.next (memory.block node)
  let prev := Node.prev (memory.block node)
  let (head, memory) := match prev with
    | some left => (chain.head, memory.update left (Node.setNext next))
    | none => (next, memory)
  let (tail, memory) := match next with
    | some right => (chain.tail, memory.update right (Node.setPrev prev))
    | none => (prev, memory)
  return (⟨head, tail, ← Size.sub chain.length 1⟩, memory)

def cursor (chain : Chain) : Cursor :=
  ⟨chain.head, chain.length⟩

/-- The nodes of a walk that expects at most `remaining` of them. A longer one is a
fault. -/
def walk (memory : Memory) : (remaining : Nat) → Option Addr → Checked (List Addr)
  | _, none => return []
  | 0, some _ => throw .overflow
  | remaining + 1, some node => do
    return node :: (← walk memory remaining (Node.next (memory.block node)))

/-- The nodes from head to tail. -/
def nodes (chain : Chain) (memory : Memory) : Checked (List Addr) :=
  walk memory chain.length chain.head

end Chain

/-- The node a walk stands on, with the walk behind it. -/
def Cursor.next (cursor : Cursor) (memory : Memory) : Checked (Option (Addr × Cursor)) := do
  let some node := cursor.current | return none
  return some (node, ⟨Node.next (memory.block node), ← Size.sub cursor.remaining 1⟩)

end SlabAllocator
