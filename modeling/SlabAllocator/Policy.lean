import SlabAllocator.Geometry
import SlabAllocator.Text.Blank
import SlabAllocator.Text.Number
import SlabAllocator.Text.Quoted

/-! The routing policy of an allocator: requests below the cutoff are pooled in classes
that are multiples of the alignment. Each setting can be given as a variable. -/

namespace SlabAllocator

structure Policy where
  /-- Requests below this size are pooled. -/
  cutoff : Nat
  /-- The size classes are the multiples of this. -/
  alignment : Nat
  /-- Releases from one automatic compaction of a pool to the next. -/
  compactInterval : Nat
  deriving DecidableEq

inductive PolicyError where
  | alignment (alignment : Nat)
  | cutoff (cutoff alignment : Nat)
  | zero (name : String)
  | unreadable (variableName value : String)
  deriving DecidableEq

namespace Policy

/-- The most size classes of one allocator. -/
def mostClasses : Nat := 65536

/-- The greatest alignment: the one that every first slot has. -/
def greatestAlignment : Nat := Geometry.slotAlign

/-- The policy when nothing is set. -/
def standard : Policy :=
  ⟨4000, 8, 300⟩

/-- The size classes below the cutoff, or `none` when they cannot be counted. -/
def sizeClasses (policy : Policy) : Checked (Option Nat) := do
  if policy.cutoff = 0 then return none
  let some top ← Size.roundUp? (policy.cutoff - 1) policy.alignment | return none
  return some (← Size.div top policy.alignment)

/-- The first thing wrong with a policy: a zero cutoff, a zero interval, the alignment, or
too many size classes. -/
def validate (policy : Policy) : Checked (Except PolicyError Unit) := do
  if policy.cutoff = 0 then return .error (.zero "cutoff")
  if policy.compactInterval = 0 then return .error (.zero "compact_interval")
  if !Size.isPowerOfTwo policy.alignment || greatestAlignment < policy.alignment then
    return .error (.alignment policy.alignment)
  match ← policy.sizeClasses with
  | none => return .error (.cutoff policy.cutoff policy.alignment)
  | some classes =>
    if mostClasses < classes then return .error (.cutoff policy.cutoff policy.alignment)
    return .ok ()

def cutoffVariable : String := "SLABARENA_CUTOFF"

def alignmentVariable : String := "SLABARENA_ALIGNMENT"

def intervalVariable : String := "SLABARENA_COMPACT_INTERVAL"

/-- The size in a variable, blanks around it aside, or the default when it is not set. -/
def readVariable (lookup : String → Option String) (name : String) (default : Nat) :
    Except PolicyError Nat :=
  match lookup name with
  | none => .ok default
  | some value =>
    match Text.size? (Text.trim value.toList) with
    | some size => .ok size
    | none => .error (.unreadable name value)

/-- The settings in the variables, before they are validated. -/
def read (lookup : String → Option String) : Except PolicyError Policy := do
  return {
    cutoff := ← readVariable lookup cutoffVariable standard.cutoff
    alignment := ← readVariable lookup alignmentVariable standard.alignment
    compactInterval := ← readVariable lookup intervalVariable standard.compactInterval }

/-- The policy that the variables describe. A variable that cannot be read is reported
before any setting is validated. -/
def ofLookup (lookup : String → Option String) : Checked (Except PolicyError Policy) := do
  match read lookup with
  | .error error => return .error error
  | .ok policy => return (← policy.validate).map fun _ => policy

end Policy

def PolicyError.message : PolicyError → String
  | alignment size => s!"alignment {size} is not a power of two of at most {Policy.greatestAlignment}"
  | cutoff size unit =>
    s!"cutoff {size} at alignment {unit} needs more than {Policy.mostClasses} size classes"
  | zero name => s!"{name} must be non-zero"
  | unreadable name value => s!"{name}: cannot parse {Text.quote value} as a size"

end SlabAllocator
