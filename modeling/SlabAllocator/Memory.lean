import SlabAllocator.Bytes
import SlabAllocator.Fault

/-! Memory is a set of blocks, each with its own bytes and known by the address where it
starts. A read outside every block finds nothing and a write there is lost, so the
operations are total. -/

namespace SlabAllocator

abbrev Addr := Nat

/-- What a block may be used for. -/
inductive Protection where
  | readOnly
  | readWrite
  | readExecute
  deriving DecidableEq

namespace Protection

def name : Protection → String
  | readOnly => "ReadOnly"
  | readWrite => "ReadWrite"
  | readExecute => "ReadExecute"

end Protection

/-- One mapped block. A block that is not hosted was brought by a client and is unknown to
the host. -/
structure Block where
  len : Nat
  hosted : Bool
  mode : Protection
  content : Bytes

namespace Block

def fresh (len : Nat) (hosted : Bool) : Block :=
  ⟨len, hosted, .readWrite, .empty⟩

/-- What stands for a block where there is none. -/
def missing : Block := fresh 0 false

/-- Whether an address lies in this block if it starts at `base`. -/
def spans (block : Block) (base addr : Addr) : Bool :=
  base ≤ addr && addr < base + block.len

/-- The bytes from an offset on, at most `count` and none past the end. -/
def read (block : Block) (offset count : Nat) : List UInt8 :=
  block.content.slice offset (min count (block.len - offset))

/-- Writes bytes from an offset on. Those past the end are lost. -/
def write (block : Block) (offset : Nat) (bytes : List UInt8) : Block :=
  { block with content := block.content.setAll offset (bytes.take (block.len - offset)) }

/-- The 64-bit word at an offset. -/
def word (block : Block) (offset : Nat) : Nat :=
  block.content.word offset

def words (block : Block) (offset count : Nat) : List Nat :=
  (List.range count).map fun i => block.word (offset + 8 * i)

def setWord (block : Block) (offset value : Nat) : Block :=
  block.write offset (toBytes 8 value)

def setWords (block : Block) (offset : Nat) (values : List Nat) : Block :=
  block.write offset (values.flatMap (toBytes 8))

/-- The block at another length. It keeps the common bytes and the protection, and bytes it
gains are zero. -/
def resize (block : Block) (len : Nat) : Block :=
  { block with len, content := block.content.cut len }

end Block

structure Memory where
  blocks : Std.TreeMap Addr Block

namespace Memory

def empty : Memory := ⟨∅⟩

/-- The block that starts at an address. -/
def block (memory : Memory) (base : Addr) : Block :=
  memory.blocks.getD base .missing

/-- The block an address lies in, and where it starts. The one that starts nearest below is
tried first: it can only be another one when blocks overlap. -/
def blockAt? (memory : Memory) (addr : Addr) : Option (Addr × Block) :=
  let base := memory.blocks.getKeyLED addr addr
  if (memory.block base).spans base addr then some (base, memory.block base)
  else memory.blocks.toList.find? fun (base, block) => block.spans base addr

/-- Whether a hosted block of that base and exactly that length is live. -/
def hosts (memory : Memory) (base : Addr) (len : Nat) : Bool :=
  (memory.block base).hosted && (memory.block base).len == len

/-- Changes the block that starts at an address. -/
def update (memory : Memory) (base : Addr) (change : Block → Block) : Memory :=
  ⟨memory.blocks.modify base change⟩

/-- The bytes from an address to the end of its block, at most `count`. -/
def read (memory : Memory) (addr : Addr) (count : Nat) : List UInt8 :=
  match memory.blockAt? addr with
  | some (base, block) => block.read (addr - base) count
  | none => []

/-- Writes bytes from an address on, up to the end of its block. -/
def write (memory : Memory) (addr : Addr) (bytes : List UInt8) : Memory :=
  match memory.blockAt? addr with
  | some (base, _) => memory.update base (·.write (addr - base) bytes)
  | none => memory

/-- Copies up to `count` bytes. -/
def copy (memory : Memory) (source target : Addr) (count : Nat) : Memory :=
  memory.write target (memory.read source count)

/-- Adds a zeroed block. -/
def map (memory : Memory) (base : Addr) (len : Nat) (hosted : Bool) : Memory :=
  ⟨memory.blocks.insert base (.fresh len hosted)⟩

def unmap (memory : Memory) (base : Addr) : Memory :=
  ⟨memory.blocks.erase base⟩

/-- Moves a block to another place and length. -/
def remap (memory : Memory) (base target : Addr) (len : Nat) : Memory :=
  ⟨(memory.blocks.erase base).insert target ((memory.block base).resize len)⟩

def protect (memory : Memory) (base : Addr) (mode : Protection) : Memory :=
  memory.update base fun block => { block with mode }

end Memory
end SlabAllocator
