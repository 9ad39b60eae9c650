import SlabAllocator.Arena.Basic

/-! When the host denies a request the arena turns to its recovery hook, once. The hook is
detached while it runs, so a denial inside it can only reach a hook installed meanwhile.
Each of those was written inside the one that installed it, which bounds the nesting. -/

namespace SlabAllocator.Arena

variable [Host σ]

/-- Moves a block by a new one and a copy of the common bytes. -/
def replaceWith (acquire : Nat → Run (Arena σ ω) Outcome) (oldSize : Nat) (addr : Addr)
    (newSize : Nat) : Run (Arena σ ω) Outcome := do
  match ← acquire newSize with
  | .error error => return .error error
  | .ok fresh =>
    setMemory ((← memory).copy addr fresh (min oldSize newSize))
    release oldSize addr
    return .ok fresh

/-- Moves a block to another length, keeping the common bytes: by the host if it can, else
by a new block and a copy. On failure the old block stays as it is. -/
def resizeWith (acquire : Nat → Run (Arena σ ω) Outcome) (oldSize : Nat) (addr : Addr)
    (newSize : Nat) : Run (Arena σ ω) Outcome := do
  let some oldLen ← (← get).blockLen oldSize | return .error (.outOfMemory newSize)
  if let some newLen ← (← get).blockLen newSize then
    if newLen = oldLen then return .ok addr
    if let some moved ← onMachine (Machine.resize addr oldLen newLen) then
      recordUnmapped oldLen
      recordMapped newLen
      return .ok moved
  replaceWith acquire oldSize addr newSize

/-- Does one deed of a hook. -/
def carryOut (acquire : Nat → Run (Arena σ ω) Outcome) : Deed → Run (Arena σ ω) Reply
  | .pass => return .done
  | .acquire size => return .block (← acquire size).toOption
  | .resize oldSize addr newSize =>
    return .block (← resizeWith acquire oldSize addr newSize).toOption
  | .release size addr => do
    release size addr
    return .done
  | .take => do
    let found := (← takeHook).isSome
    note (.hookTaken found)
    return .attached found
  | .probe => do
    let attached := (← get).hasHook
    note (.hookProbed attached)
    return .attached attached
  | .supply base len => do
    onMachine (Machine.supply base len)
    return .block (some base)
  | .unwind => throw .unwound

/-- Runs a program of a hook. -/
def runProgram (acquire : Nat → Run (Arena σ ω) Outcome) (requested : Nat) :
    Program ω → Run (Arena σ ω) (Option Addr)
  | .answer choose => return choose (← get).env
  | .perform choose learn next => do
    let reply ← carryOut acquire (choose requested (← get).env)
    modify fun arena => { arena with env := learn reply arena.env }
    runProgram acquire requested next
  | .record change next => do
    modify fun arena => { arena with env := change requested arena.env }
    runProgram acquire requested next
  | .branch test yes no => do
    if test (← get).env then runProgram acquire requested yes
    else runProgram acquire requested no
  | .install programs next => do
    setHook (some ⟨programs⟩)
    runProgram acquire requested next

/-- Turns to the hook after a denial. The hook comes back afterwards unless another was
installed meanwhile. -/
def escalateWith (acquire : Nat → Run (Arena σ ω) Outcome) (hook : Hook ω) (size : Nat) :
    Run (Arena σ ω) Outcome := do
  setHook none
  let stats := (← get).stats
  setStats { stats with hookInvocations := ← Size.add stats.hookInvocations 1 }
  note (.hookStarted size)
  let answer ← runProgram acquire size hook.program
  note (.hookFinished answer)
  if !(← get).hasHook then setHook (some hook.afterRun)
  match answer with
  | some block => return .ok block
  | none =>
    say (.hookGaveUp size)
    return .error (.outOfMemory size)

/-- Asks the host for a block and, when it is denied, the hook that is installed. -/
def acquireOr (recover : Hook ω → Run (Arena σ ω) Outcome) (size : Nat) :
    Run (Arena σ ω) Outcome := do
  if let some block ← request size then return .ok block
  say (.denied size)
  match (← get).hook with
  | some hook => recover hook
  | none =>
    say (.noHook size)
    return .error (.outOfMemory size)

/-- Acquires a block while hooks may nest `depth` deep. -/
def acquireWithin : (depth size : Nat) → Run (Arena σ ω) Outcome
  | 0, size => acquireOr (fun _ => throw .nesting) size
  | depth + 1, size => acquireOr (fun hook => escalateWith (acquireWithin depth) hook size) size

/-- How deep the hooks of an arena can nest. -/
def hookDepth (arena : Arena σ ω) : Nat :=
  match arena.hook with
  | some hook => hook.depth
  | none => 0

/-- Acquires a zeroed block of at least `size` bytes. -/
def acquire (size : Nat) : Run (Arena σ ω) Outcome := do
  acquireWithin (← get).hookDepth size

def resize (oldSize : Nat) (addr : Addr) (newSize : Nat) : Run (Arena σ ω) Outcome :=
  resizeWith acquire oldSize addr newSize

end SlabAllocator.Arena
