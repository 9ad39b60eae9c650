import SlabAllocator.Memory

/-! A recovery hook is a script with one program for each time it runs. A program is a
finite sequence of deeds on the arena, chosen from an environment that it shares with the
client, and ends with the block it found, if any. -/

namespace SlabAllocator

inductive Deed where
  | pass
  | acquire (size : Nat)
  | resize (oldSize : Nat) (addr : Addr) (newSize : Nat)
  | release (size : Nat) (addr : Addr)
  /-- Detaches the installed hook. -/
  | take
  /-- Asks whether a hook is installed. -/
  | probe
  /-- Brings a zeroed block that the host does not know. -/
  | supply (base : Addr) (len : Nat)
  /-- Leaves without an answer. -/
  | unwind

inductive Reply where
  | done
  | block (found : Option Addr)
  | attached (present : Bool)

inductive Program (ω : Type) where
  | answer (choose : ω → Option Addr)
  /-- A deed, chosen from the size that was denied and the environment. -/
  | perform (choose : Nat → ω → Deed) (learn : Reply → ω → ω) (next : Program ω)
  /-- Notes something in the environment, which may be the size that was denied. -/
  | record (change : Nat → ω → ω) (next : Program ω)
  | branch (test : ω → Bool) (yes no : Program ω)
  /-- Installs a hook with these programs. -/
  | install (programs : List (Program ω)) (next : Program ω)

mutual

/-- How deep the hooks that a program installs can nest. -/
def Program.depth : Program ω → Nat
  | .answer _ => 0
  | .perform _ _ next => next.depth
  | .record _ next => next.depth
  | .branch _ yes no => max yes.depth no.depth
  | .install programs next => max (Program.depthAll programs + 1) next.depth

def Program.depthAll : List (Program ω) → Nat
  | [] => 0
  | program :: rest => max program.depth (Program.depthAll rest)

end

/-- The programs of the runs still to come. A run past the last one does nothing. -/
structure Hook (ω : Type) where
  programs : List (Program ω)

namespace Hook

/-- The hooks that can be running at once, this one included. -/
def depth (hook : Hook ω) : Nat :=
  Program.depthAll hook.programs + 1

def program (hook : Hook ω) : Program ω :=
  hook.programs.headD (.answer fun _ => none)

def afterRun (hook : Hook ω) : Hook ω :=
  ⟨hook.programs.tail⟩

end Hook
end SlabAllocator
