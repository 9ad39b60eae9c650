import SlabAllocator.Arena.Acquire
import SlabAllocator.Proofs.Run
import SlabAllocator.Proofs.Size

/-! What becomes of the recovery hook in the course of a call. The turns of a call are read off
the program text beside the run, and say which hooks are installed, detached and run, in
order. From them follow the hook that is installed in the end and how many were started. -/

namespace SlabAllocator

/-- What happens to the hook slot of an arena, in order. -/
inductive Turns (ω : Type) where
  | done
  | installed (hook : Hook ω) (rest : Turns ω)
  | taken (rest : Turns ω)
  /-- A hook runs, and `inside` happens meanwhile. -/
  | ran (hook : Hook ω) (inside rest : Turns ω)

namespace Turns

def append : Turns ω → Turns ω → Turns ω
  | done, later => later
  | installed hook rest, later => installed hook (rest.append later)
  | taken rest, later => taken (rest.append later)
  | ran hook inside rest, later => ran hook inside (rest.append later)

/-- The hook in the slot afterwards. One that ran comes back unless the slot was filled meanwhile. -/
def settle : Turns ω → Option (Hook ω) → Option (Hook ω)
  | done, slot => slot
  | installed hook rest, _ => rest.settle (some hook)
  | taken rest, _ => rest.settle none
  | ran hook inside rest, _ => rest.settle ((inside.settle none).or (some hook.afterRun))

def started : Turns ω → Nat
  | done => 0
  | installed _ rest => rest.started
  | taken rest => rest.started
  | ran _ inside rest => inside.started + 1 + rest.started

def runs : Turns ω → List (Hook ω)
  | done => []
  | installed _ rest => rest.runs
  | taken rest => rest.runs
  | ran hook inside rest => hook :: (inside.runs ++ rest.runs)

def installs : Turns ω → List (Hook ω)
  | done => []
  | installed hook rest => hook :: rest.installs
  | taken rest => rest.installs
  | ran _ inside rest => inside.installs ++ rest.installs

/-- Only the hook in the slot runs, and the slot is empty when its body starts. -/
def Orderly : Turns ω → Option (Hook ω) → Prop
  | done, _ => True
  | installed hook rest, _ => rest.Orderly (some hook)
  | taken rest, _ => rest.Orderly none
  | ran hook inside rest, slot =>
    slot = some hook ∧ inside.Orderly none ∧ rest.Orderly ((inside.settle none).or (some hook.afterRun))

/-- No hook nests deeper than this, and those that come while another runs nest less deep than that one. -/
def Below (depth : Nat) : Turns ω → Prop
  | done => True
  | installed hook rest => hook.depth ≤ depth ∧ rest.Below depth
  | taken rest => rest.Below depth
  | ran hook inside rest => hook.depth ≤ depth ∧ inside.Below (hook.depth - 1) ∧ rest.Below depth

variable {turns later : Turns ω} {slot : Option (Hook ω)} {depth : Nat}

@[simp] theorem append_done (turns : Turns ω) : turns.append done = turns := by
  induction turns with
  | done => rfl
  | installed hook rest ih => exact congrArg _ ih
  | taken rest ih => exact congrArg _ ih
  | ran hook inside rest _ ih => exact congrArg _ ih

theorem settle_append (turns later : Turns ω) (slot : Option (Hook ω)) :
    (turns.append later).settle slot = later.settle (turns.settle slot) := by
  induction turns generalizing slot with
  | done => rfl
  | installed hook rest ih => exact ih _
  | taken rest ih => exact ih _
  | ran hook inside rest _ ih => exact ih _

theorem started_append (turns later : Turns ω) :
    (turns.append later).started = turns.started + later.started := by
  induction turns with
  | done => exact (Nat.zero_add _).symm
  | installed hook rest ih => exact ih
  | taken rest ih => exact ih
  | ran hook inside rest _ ih => simp only [append, started, ih, Nat.add_assoc]

theorem Orderly.append (orderly : turns.Orderly slot) (after : later.Orderly (turns.settle slot)) :
    (turns.append later).Orderly slot := by
  induction turns generalizing slot with
  | done => exact after
  | installed hook rest ih => exact ih orderly after
  | taken rest ih => exact ih orderly after
  | ran hook inside rest _ ih => exact ⟨orderly.1, orderly.2.1, ih orderly.2.2 after⟩

theorem Below.append (below : turns.Below depth) (after : later.Below depth) :
    (turns.append later).Below depth := by
  induction turns with
  | done => exact after
  | installed hook rest ih => exact ⟨below.1, ih below.2⟩
  | taken rest ih => exact ih below
  | ran hook inside rest _ ih => exact ⟨below.1, below.2.1, ih below.2.2⟩

theorem Below.mono {more : Nat} (below : turns.Below depth) (deeper : depth ≤ more) : turns.Below more := by
  induction turns with
  | done => trivial
  | installed hook rest ih => exact ⟨Nat.le_trans below.1 deeper, ih below.2⟩
  | taken rest ih => exact ih below
  | ran hook inside rest _ ih => exact ⟨Nat.le_trans below.1 deeper, below.2.1, ih below.2.2⟩

end Turns

theorem Hook.depth_afterRun (hook : Hook ω) : hook.afterRun.depth ≤ hook.depth := by
  obtain ⟨programs⟩ := hook
  cases programs with
  | nil => exact Nat.le_refl _
  | cons program rest => exact Nat.succ_le_succ (Nat.le_max_right _ _)

theorem Hook.depth_program (hook : Hook ω) : hook.program.depth ≤ hook.depth - 1 := by
  obtain ⟨programs⟩ := hook
  cases programs with
  | nil => exact Nat.zero_le _
  | cons program rest => exact Nat.le_max_left _ _

namespace Turns

variable {turns : Turns ω} {slot : Option (Hook ω)} {depth : Nat}

theorem Below.settle (below : turns.Below depth) (shallow : ∀ hook, slot = some hook → hook.depth ≤ depth) :
    ∀ hook, turns.settle slot = some hook → hook.depth ≤ depth := by
  induction turns generalizing slot depth with
  | done => exact shallow
  | installed other rest ih =>
    refine ih below.2 ?_
    rintro _ ⟨⟩
    exact below.1
  | taken rest ih => exact ih below (by rintro _ ⟨⟩)
  | ran other inside rest within ih =>
    refine ih below.2.2 fun hook back => ?_
    rcases Option.or_eq_some_iff.mp back with fresh | ⟨-, same⟩
    · have := within below.2.1 (by rintro _ ⟨⟩) hook fresh
      have := below.1
      omega
    · cases same
      exact Nat.le_trans other.depth_afterRun below.1

theorem Below.runs (below : turns.Below depth) : ∀ hook ∈ turns.runs, hook.depth ≤ depth := by
  induction turns generalizing depth with
  | done => exact fun _ member => nomatch member
  | installed other rest ih => exact ih below.2
  | taken rest ih => exact ih below
  | ran other inside rest within ih =>
    intro hook member
    rcases List.mem_cons.mp member with rfl | nested
    · exact below.1
    · rcases List.mem_append.mp nested with here | there
      · have := within below.2.1 hook here
        have := below.1
        omega
      · exact ih below.2.2 hook there

/-- What runs inside a hook nests less deep than that hook, and was installed there. -/
def Fresh : Turns ω → Prop
  | done => True
  | installed _ rest => rest.Fresh
  | taken rest => rest.Fresh
  | ran hook inside rest =>
    (∀ other ∈ inside.runs, other.depth < hook.depth ∧ ∃ first ∈ inside.installs,
      other.programs <:+ first.programs) ∧
      inside.Fresh ∧ rest.Fresh

def Known (turns : Turns ω) (slot : Option (Hook ω)) (hook : Hook ω) : Prop :=
  ∃ first, (slot = some first ∨ first ∈ turns.installs) ∧ hook.programs <:+ first.programs

theorem Known.fresh {hook : Hook ω} (known : turns.Known none hook) :
    ∃ first ∈ turns.installs, hook.programs <:+ first.programs := by
  obtain ⟨first, impossible | member, suffix⟩ := known
  · cases impossible
  · exact ⟨first, member, suffix⟩

theorem Orderly.known (orderly : turns.Orderly slot) :
    (∀ hook, turns.settle slot = some hook → turns.Known slot hook) ∧ ∀ hook ∈ turns.runs,
      turns.Known slot hook := by
  induction turns generalizing slot with
  | done => exact ⟨fun hook there => ⟨hook, .inl there, List.suffix_rfl⟩, fun _ member => nomatch member⟩
  | installed other rest ih =>
    have later (hook : Hook ω) : rest.Known (some other) hook → (installed other rest).Known slot hook := by
      rintro ⟨first, same | member, suffix⟩
      · cases same
        exact ⟨other, .inr List.mem_cons_self, suffix⟩
      · exact ⟨first, .inr (List.mem_cons_of_mem _ member), suffix⟩
    obtain ⟨settled, ran⟩ := ih orderly
    exact ⟨fun hook there => later hook (settled hook there), fun hook member => later hook (ran hook member)⟩
  | taken rest ih =>
    have later (hook : Hook ω) (known : rest.Known none hook) : (taken rest).Known slot hook := by
      obtain ⟨first, member, suffix⟩ := known.fresh
      exact ⟨first, .inr member, suffix⟩
    obtain ⟨settled, ran⟩ := ih orderly
    exact ⟨fun hook there => later hook (settled hook there), fun hook member => later hook (ran hook member)⟩
  | ran other inside rest within ih =>
    obtain ⟨here, orderly, orderly'⟩ := orderly
    obtain ⟨settled, ran⟩ := within orderly
    obtain ⟨settled', ran'⟩ := ih orderly'
    have during (hook : Hook ω) (known : inside.Known none hook) :
        (Turns.ran other inside rest).Known slot hook := by
      obtain ⟨first, member, suffix⟩ := known.fresh
      exact ⟨first, .inr (List.mem_append_left _ member), suffix⟩
    -- What the slot holds after the run was put there meanwhile, or is the hook that ran.
    have later (hook : Hook ω) : rest.Known ((inside.settle none).or (some other.afterRun)) hook →
        (Turns.ran other inside rest).Known slot hook := by
      rintro ⟨first, back | member, suffix⟩
      · rcases Option.or_eq_some_iff.mp back with fresh | ⟨-, ⟨⟩⟩
        · obtain ⟨oldest, known, suffix'⟩ := during first (settled first fresh)
          exact ⟨oldest, known, suffix.trans suffix'⟩
        · exact ⟨other, .inl here, suffix.trans (List.tail_suffix _)⟩
      · exact ⟨first, .inr (List.mem_append_right _ member), suffix⟩
    refine ⟨fun hook there => later hook (settled' hook there), fun hook member => ?_⟩
    rcases List.mem_cons.mp member with rfl | nested
    · exact ⟨hook, .inl here, List.suffix_rfl⟩
    · rcases List.mem_append.mp nested with within | after
      · exact during hook (ran hook within)
      · exact later hook (ran' hook after)

theorem Orderly.fresh (orderly : turns.Orderly slot) (below : turns.Below depth) : turns.Fresh := by
  induction turns generalizing slot depth with
  | done => trivial
  | installed hook rest ih => exact ih orderly below.2
  | taken rest ih => exact ih orderly below
  | ran hook inside rest within ih =>
    refine ⟨fun other member => ⟨?_, (orderly.2.1.known.2 other member).fresh⟩, within orderly.2.1 below.2.1,
      ih orderly.2.2 below.2.2⟩
    exact Nat.lt_of_le_of_lt (below.2.1.runs other member) (Nat.sub_lt (Nat.succ_pos _) Nat.one_pos)

end Turns

namespace Arena

def following (run : Run (Arena σ ω) α) (later : α → Arena σ ω → Turns ω) (arena : Arena σ ω) : Turns ω :=
  match run arena with
  | .ok a middle => later a middle
  | .error _ _ => .done

theorem following_ok {run : Run (Arena σ ω) α} {arena middle : Arena σ ω} {a : α} (ran : run arena = .ok a middle)
    (later : α → Arena σ ω → Turns ω) : following run later arena = later a middle := by
  simp only [following, ran]

theorem following_error {run : Run (Arena σ ω) α} {arena after : Arena σ ω} {fault : Fault}
    (failed : run arena = .error fault after) (later : α → Arena σ ω → Turns ω) :
    following run later arena = .done := by
  simp only [following, failed]

theorem following_done (run : Run (Arena σ ω) α) (arena : Arena σ ω) :
    following run (fun _ _ => .done) arena = .done := by
  unfold following
  cases run arena <;> rfl

section Phases

variable [Host σ]

def ask (size : Nat) : Run (Arena σ ω) (Option Addr) := do
  let granted ← request size
  if granted.isNone then say (.denied size)
  return granted

def detach (size : Nat) : Run (Arena σ ω) Unit := do
  setHook none
  let stats := (← get).stats
  setStats { stats with hookInvocations := ← Size.add stats.hookInvocations 1 }
  note (.hookStarted size)

def reattach (hook : Hook ω) (size : Nat) (answer : Option Addr) : Run (Arena σ ω) Outcome := do
  note (.hookFinished answer)
  if !(← get).hasHook then setHook (some hook.afterRun)
  match answer with
  | some block => return .ok block
  | none =>
    say (.hookGaveUp size)
    return .error (.outOfMemory size)

/-- The part of a resize that needs no new block; `none` if that is not enough. -/
def resizeInPlace (oldSize : Nat) (addr : Addr) (newSize : Nat) : Run (Arena σ ω) (Option Outcome) := do
  let some oldLen ← (← get).blockLen oldSize | return some (.error (.outOfMemory newSize))
  let some newLen ← (← get).blockLen newSize | return none
  if newLen = oldLen then return some (.ok addr)
  let some moved ← onMachine (Machine.resize addr oldLen newLen) | return none
  recordUnmapped oldLen
  recordMapped newLen
  return some (.ok moved)

variable {acquire : Nat → Run (Arena σ ω) Outcome}

theorem acquireOr_eq (recover : Hook ω → Run (Arena σ ω) Outcome) (size : Nat) :
    acquireOr recover size = (do
      match ← ask size with
      | some block => return .ok block
      | none =>
        match (← get).hook with
        | some hook => recover hook
        | none =>
          say (.noHook size)
          return .error (.outOfMemory size)) := by
  rw [acquireOr, ask, bind_assoc]
  refine bind_congr fun granted => ?_
  cases granted with
  | some block => rfl
  | none => rfl

theorem escalateWith_eq (hook : Hook ω) (size : Nat) :
    escalateWith acquire hook size = (do
      detach size
      let answer ← runProgram acquire size hook.program
      reattach hook size answer) := by
  simp only [escalateWith, detach, bind_assoc]
  rfl

theorem resizeWith_eq (oldSize : Nat) (addr : Addr) (newSize : Nat) :
    resizeWith acquire oldSize addr newSize = (do
      match ← resizeInPlace oldSize addr newSize with
      | some outcome => return outcome
      | none => replaceWith acquire oldSize addr newSize) := by
  simp only [resizeWith, resizeInPlace, bind_assoc]
  refine bind_congr fun arena => bind_congr fun oldLen? => ?_
  cases oldLen? with
  | none => rfl
  | some oldLen =>
    simp only [bind_assoc]
    refine bind_congr fun arena => bind_congr fun newLen? => ?_
    cases newLen? with
    | none => rfl
    | some newLen =>
      by_cases same : newLen = oldLen
      · simp only [if_pos same, pure_bind]
      simp only [if_neg same, bind_assoc]
      refine bind_congr fun moved => ?_
      cases moved with
      | none => rfl
      | some moved => simp only [bind_assoc, pure_bind]

variable (acquire : Nat → Run (Arena σ ω) Outcome) (turnsOf : Nat → Arena σ ω → Turns ω)

def resizeTurns (oldSize : Nat) (addr : Addr) (newSize : Nat) : Arena σ ω → Turns ω :=
  following (resizeInPlace oldSize addr newSize) fun settled middle =>
    if settled.isSome then .done else turnsOf newSize middle

def deedTurns : Deed → Arena σ ω → Turns ω
  | .acquire size, arena => turnsOf size arena
  | .resize oldSize addr newSize, arena => resizeTurns turnsOf oldSize addr newSize arena
  | .take, _ => .taken .done
  | _, _ => .done

def programTurns (requested : Nat) : Program ω → Arena σ ω → Turns ω
  | .answer _, _ => .done
  | .perform choose learn next, arena =>
    let deed := choose requested arena.env
    (deedTurns turnsOf deed arena).append <| following (carryOut acquire deed) (fun reply middle =>
      programTurns requested next { middle with env := learn reply middle.env }) arena
  | .record change next, arena => programTurns requested next { arena with env := change requested arena.env }
  | .branch test yes no, arena =>
    if test arena.env then programTurns requested yes arena else programTurns requested no arena
  | .install programs next, arena =>
    .installed ⟨programs⟩ (programTurns requested next { arena with hook := some ⟨programs⟩ })

/-- A hook whose run can no longer be counted is lost. -/
def hookTurns (hook : Hook ω) (size : Nat) (denied : Arena σ ω) : Turns ω :=
  match detach size denied with
  | .ok _ begun => .ran hook (programTurns acquire turnsOf size hook.program begun) .done
  | .error _ _ => .taken .done

def acquireTurns (recoverTurns : Hook ω → Arena σ ω → Turns ω) (size : Nat) : Arena σ ω → Turns ω :=
  following (ask size) fun granted denied =>
    match granted, denied.hook with
    | none, some hook => recoverTurns hook denied
    | _, _ => .done

def turnsWithin : (depth size : Nat) → Arena σ ω → Turns ω
  | 0, size => acquireTurns (fun _ _ => .done) size
  | depth + 1, size =>
    acquireTurns (fun hook => hookTurns (acquireWithin depth) (turnsWithin depth) hook size) size

def turns (size : Nat) (arena : Arena σ ω) : Turns ω :=
  turnsWithin arena.hookDepth size arena

end Phases

end Arena
end SlabAllocator
