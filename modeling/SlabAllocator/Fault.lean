/-! Computations that stop when a check fails. A denied allocation is an ordinary
result; a fault is what remains: arithmetic out of range, a broken contract, or a
recovery hook that never returned. -/

namespace SlabAllocator

/-- Why a computation stopped. -/
inductive Fault where
  /-- A size left the machine range, or a division by zero. -/
  | overflow
  /-- An index past the end of a table. -/
  | outOfRange
  /-- A client broke the contract of an operation. -/
  | violated
  /-- A recovery hook left without an answer. -/
  | unwound
  /-- A hook ran deeper than its script can nest. -/
  | nesting
  deriving DecidableEq

/-- A pure computation that may stop with a fault. -/
abbrev Checked := Except Fault

/-- A computation over a state. A fault keeps the state reached so far. -/
abbrev Run (σ : Type) := EStateM Fault σ

/-- Stops unless the contract holds. -/
def expect (condition : Bool) : Checked Unit :=
  if condition then .ok () else .error .violated

/-- Reads a table, stopping past its end. -/
def inRange (entry : Option α) : Checked α :=
  match entry with
  | some a => .ok a
  | none => .error .outOfRange

namespace Run

instance : MonadLift Checked (Run σ) where
  monadLift
    | .ok a => fun s => .ok a s
    | .error fault => fun s => .error fault s

/-- Runs an action on one part of the state. The part is put back on a fault too. -/
def focus (part : σ → τ) (place : τ → σ → σ) (action : Run τ α) : Run σ α := fun s =>
  match action (part s) with
  | .ok a t => .ok a (place t s)
  | .error fault t => .error fault (place t s)

end Run
end SlabAllocator
