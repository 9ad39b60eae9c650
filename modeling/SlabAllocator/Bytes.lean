import Std.Data.TreeMap

/-! A sparse sequence of bytes: all of them are zero except the stored ones. They are stored
in chunks, so that a byte far away from the others costs no more than one beside them. -/

namespace SlabAllocator

/-- A little-endian number of `count` bytes. -/
@[specialize] def numberAt (byte : Nat → UInt8) (start : Nat) : (count : Nat) → Nat
  | 0 => 0
  | count + 1 => (byte start).toNat + 256 * numberAt byte (start + 1) count

/-- The low `count` bytes of a number, lowest first. -/
def toBytes : (count n : Nat) → List UInt8
  | 0, _ => []
  | count + 1, n => UInt8.ofNat n :: toBytes count (n / 256)

structure Bytes where
  chunks : Std.TreeMap Nat (Array UInt8)

namespace Bytes

def empty : Bytes := ⟨∅⟩

/-- The bytes of a chunk. A stored chunk may be shorter, and then ends with zeros. -/
def chunkLen : Nat := 512

def chunk (bytes : Bytes) (number : Nat) : Array UInt8 :=
  bytes.chunks.getD number #[]

def get (bytes : Bytes) (i : Nat) : UInt8 :=
  (bytes.chunk (i / chunkLen)).getD (i % chunkLen) 0

/-- Sets one byte of a chunk, filling the gap before it with zeros. -/
def setIn (chunk : Array UInt8) (i : Nat) (value : UInt8) : Array UInt8 :=
  if h : i < chunk.size then chunk.set i value h
  else (chunk ++ Array.replicate (i - chunk.size) 0).push value

def store (bytes : Bytes) (number : Nat) (chunk : Array UInt8) : Bytes :=
  ⟨bytes.chunks.insert number chunk⟩

/-- Sets bytes from place `i` of an open chunk on. A chunk is stored once it is full. -/
def setFrom (bytes : Bytes) (number : Nat) (chunk : Array UInt8) (i : Nat) : List UInt8 → Bytes
  | [] => bytes.store number chunk
  | value :: rest =>
    if i < chunkLen then setFrom bytes number (setIn chunk i value) (i + 1) rest
    else
      setFrom (bytes.store number chunk) (number + 1) (setIn (bytes.chunk (number + 1)) 0 value)
        1 rest

/-- Sets the bytes from `i` on. -/
def setAll (bytes : Bytes) (i : Nat) (values : List UInt8) : Bytes :=
  setFrom bytes (i / chunkLen) (bytes.chunk (i / chunkLen)) (i % chunkLen) values

/-- Puts the `count` bytes from `i` on before a list, the last one first. The open chunk
serves until the next byte lies in another one. -/
def sliceOnto (bytes : Bytes) (i number : Nat) (chunk : Array UInt8) :
    (count : Nat) → List UInt8 → List UInt8
  | 0, tail => tail
  | count + 1, tail =>
    let place := i + count
    if place / chunkLen = number then
      sliceOnto bytes i number chunk count (chunk.getD (place % chunkLen) 0 :: tail)
    else
      let chunk := bytes.chunk (place / chunkLen)
      sliceOnto bytes i (place / chunkLen) chunk count (chunk.getD (place % chunkLen) 0 :: tail)

/-- The `count` bytes from `i` on. -/
def slice (bytes : Bytes) (i count : Nat) : List UInt8 :=
  sliceOnto bytes i (i / chunkLen) (bytes.chunk (i / chunkLen)) count []

/-- The 64-bit word at `i`. It is read at one go when it lies in one chunk. -/
def word (bytes : Bytes) (i : Nat) : Nat :=
  if i % chunkLen + 8 ≤ chunkLen then
    let chunk := bytes.chunk (i / chunkLen)
    numberAt (fun k => chunk.getD k 0) (i % chunkLen) 8
  else numberAt bytes.get i 8

/-- Clears every byte from `len` on. -/
def cut (bytes : Bytes) (len : Nat) : Bytes :=
  ⟨bytes.chunks.map fun number stored => stored.extract 0 (len - number * chunkLen)⟩

end Bytes
end SlabAllocator
