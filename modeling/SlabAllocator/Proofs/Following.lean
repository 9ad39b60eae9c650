import SlabAllocator.Proofs.Calm

/-! Every call takes the turns that are read off it. The induction is on how deep the hooks can nest, and
inside it on the program of one hook. -/

namespace SlabAllocator.Arena

variable {arena before middle after : Arena σ ω} {turns later : Turns ω}
  {depth fuel size newSize oldSize addr : Nat}

structure Follows (depth : Nat) (run : Run (Arena σ ω) α) (arena : Arena σ ω) (turns : Turns ω) : Prop where
  orderly : turns.Orderly arena.hook
  below : turns.Below depth
  meets : run.Meets arena (fun _ after => after.hook = turns.settle arena.hook ∧
    Counted turns.started arena after)
    fun fault after => fault ≠ .nesting ∧ Counted turns.started arena after

theorem Keeps.follows {run : Run (Arena σ ω) α} (kept : Keeps run) (depth : Nat) (arena : Arena σ ω) :
    Follows depth run arena .done :=
  ⟨trivial, trivial, (kept arena).mono (fun _ _ same => watch_eq same) fun _ _ stopped =>
    ⟨stopped.1, (watch_eq stopped.2).2⟩⟩

namespace Follows

variable {run : Run (Arena σ ω) α} {next : α → Run (Arena σ ω) β}

theorem bind (later : α → Arena σ ω → Turns ω) (first : Follows depth run arena turns)
    (second : ∀ a middle, run arena = .ok a middle → Follows depth (next a) middle (later a middle)) :
    Follows depth (run >>= next) arena (turns.append (following run later arena)) := by
  obtain ⟨orderly, below, meets⟩ := first
  cases ran : run arena with
  | error fault middle =>
    rw [following_error ran, Turns.append_done]
    refine ⟨orderly, below, ?_⟩
    rw [Run.meets_bind]
    exact .halted ran (meets.of_error ran)
  | ok a middle =>
    obtain ⟨hook, counted⟩ := meets.of_ok ran
    obtain ⟨orderly', below', meets'⟩ := second a middle ran
    rw [hook] at orderly' meets'
    rw [following_ok ran]
    refine ⟨orderly.append orderly', below.append below', ?_⟩
    rw [Run.meets_bind]
    refine .ended ran (meets'.mono ?_ ?_) <;> rw [Turns.started_append]
    · rintro b after ⟨hook', counted'⟩
      exact ⟨hook'.trans (Turns.settle_append ..).symm, counted.trans counted'⟩
    · rintro fault after ⟨calm, counted'⟩
      exact ⟨calm, counted.trans counted'⟩

theorem then_keeps (first : Follows depth run arena turns) (kept : ∀ a, Keeps (next a)) :
    Follows depth (run >>= next) arena turns := by
  have whole := first.bind (fun _ _ => .done) fun a middle _ => (kept a).follows depth middle
  rwa [following_done, Turns.append_done] at whole

theorem reading {next : Arena σ ω → Run (Arena σ ω) β} (follows : Follows depth (next arena) arena turns) :
    Follows depth (get >>= next) arena turns :=
  ⟨follows.orderly, follows.below, by rw [Run.meets_bind, Run.meets_get]; exact follows.meets⟩

/-- How deep the hooks of an arena can nest is bounded for as long as it is for what is installed. -/
theorem shallow {a : α} (follows : Follows depth run arena turns) (nested : arena.hookDepth ≤ depth)
    (ran : run arena = .ok a after) : after.hookDepth ≤ depth := by
  rw [hookDepth, (follows.meets.of_ok ran).1]
  cases slot : turns.settle arena.hook with
  | none => exact Nat.zero_le depth
  | some hook =>
    refine follows.below.settle ?_ hook slot
    rintro other installed
    rwa [hookDepth, installed] at nested

end Follows

variable [Host σ] {acquire : Nat → Run (Arena σ ω) Outcome} {turnsOf : Nat → Arena σ ω → Turns ω}

/-- Allocation takes these turns as long as hooks nest at most this deep. -/
def Obeys (depth : Nat) (acquire : Nat → Run (Arena σ ω) Outcome) (turnsOf : Nat → Arena σ ω → Turns ω) : Prop :=
  ∀ size arena, arena.hookDepth ≤ depth → Follows depth (acquire size) arena (turnsOf size arena)

theorem replaceWith_follows (calm : Host.Calm σ)
    (acquired : Follows depth (acquire newSize) arena turns) (oldSize : Nat)
    (addr : Addr) : Follows depth (replaceWith acquire oldSize addr newSize) arena turns := by
  refine acquired.then_keeps fun outcome => ?_
  cases outcome with
  | error error => exact .pure _
  | ok fresh =>
    refine .bind (.bind .get fun _ => .pure _) fun memory =>
      .bind (keeps_onMachine (Machine.keeps_setMemory _)) fun _ => ?_
    exact .bind (keeps_release calm oldSize addr) fun _ => .pure _

theorem resizeWith_follows (calm : Host.Calm σ) (obeys : Obeys depth acquire turnsOf)
    (nested : arena.hookDepth ≤ depth) (oldSize : Nat) (addr : Addr) (newSize : Nat) :
    Follows depth (resizeWith acquire oldSize addr newSize) arena
      (resizeTurns turnsOf oldSize addr newSize arena) := by
  have first := (keeps_resizeInPlace calm oldSize addr newSize).follows (ω := ω) depth arena
  rw [resizeWith_eq]
  refine first.bind _ fun settled middle ran => ?_
  cases settled with
  | some outcome => exact Keeps.follows (.pure outcome) depth middle
  | none => exact replaceWith_follows calm (obeys newSize middle (first.shallow nested ran)) oldSize addr

theorem carryOut_follows (calm : Host.Calm σ) (obeys : Obeys depth acquire turnsOf)
    (nested : arena.hookDepth ≤ depth) (deed : Deed) :
    Follows depth (carryOut acquire deed) arena (deedTurns turnsOf deed arena) := by
  cases deed with
  | pass => exact Keeps.follows (.pure _) depth arena
  | acquire size => exact (obeys size arena nested).then_keeps fun outcome => .pure _
  | resize oldSize addr newSize =>
    exact (resizeWith_follows calm obeys nested oldSize addr newSize).then_keeps fun outcome => .pure _
  | release size addr => exact Keeps.follows (.bind (keeps_release calm size addr) fun _ => .pure _) depth arena
  | take =>
    have taken : Follows depth takeHook arena (.taken .done) := by
      refine ⟨trivial, trivial, ?_⟩
      simp only [takeHook, setHook, Run.meets_bind, Run.meets_get, Run.meets_modify, Run.meets_pure]
      exact ⟨rfl, rfl, rfl⟩
    exact taken.then_keeps fun hook => .bind (keeps_note rfl) fun _ => .pure _
  | probe => exact Keeps.follows (.bind .get fun _ => .bind (keeps_note rfl) fun _ => .pure _) depth arena
  | supply base len =>
    have supplied : Machine.Keeps (σ := σ) (Machine.supply base len) :=
      .bind .get fun _ => .bind (Machine.keeps_setMemory _) fun _ => Machine.keeps_note rfl
    exact Keeps.follows (.bind (keeps_onMachine supplied) fun _ => .pure _) depth arena
  | unwind => exact Keeps.follows (.throw (by decide)) depth arena

theorem runProgram_follows (calm : Host.Calm σ) (obeys : Obeys depth acquire turnsOf) (requested : Nat) :
    ∀ (program : Program ω) (arena : Arena σ ω), program.depth ≤ depth → arena.hookDepth ≤ depth →
      Follows depth (runProgram acquire requested program) arena
        (programTurns acquire turnsOf requested program arena)
  | .answer choose, arena, _, _ => Keeps.follows (.bind .get fun _ => .pure _) depth arena
  | .perform choose learn next, arena, small, nested => by
    have first := carryOut_follows calm obeys nested (choose requested arena.env)
    refine .reading (first.bind (fun reply middle =>
      programTurns acquire turnsOf requested next { middle with env := learn reply middle.env })
        fun reply middle ran => ?_)
    have learnt : Keeps (modify fun arena : Arena σ ω => { arena with env := learn reply arena.env }) :=
      .modify fun _ => rfl
    have nested' := first.shallow nested ran
    refine (learnt.follows depth middle).bind (fun _ => programTurns acquire turnsOf requested next) ?_
    exact fun _ after ran =>
      runProgram_follows calm obeys requested next after small ((learnt.follows depth middle).shallow nested' ran)
  | .record change next, arena, small, nested => by
    have changed : Keeps (modify fun arena : Arena σ ω => { arena with env := change requested arena.env }) :=
      .modify fun _ => rfl
    refine (changed.follows depth arena).bind (fun _ => programTurns acquire turnsOf requested next) ?_
    exact fun _ after ran =>
      runProgram_follows calm obeys requested next after small ((changed.follows depth arena).shallow nested ran)
  | .branch test yes no, arena, small, nested => by
    refine .reading ?_
    rw [programTurns]
    split
    · exact runProgram_follows calm obeys requested yes arena (Nat.le_trans (Nat.le_max_left _ _) small) nested
    · exact runProgram_follows calm obeys requested no arena (Nat.le_trans (Nat.le_max_right _ _) small) nested
  | .install programs next, arena, small, nested => by
    have installed : Follows depth (setHook (some ⟨programs⟩)) arena (.installed ⟨programs⟩ .done) := by
      refine ⟨trivial, ⟨Nat.le_trans (Nat.le_max_left _ _) small, trivial⟩, ?_⟩
      simp only [setHook, Run.meets_modify]
      exact ⟨rfl, rfl, rfl⟩
    refine installed.bind (fun _ => programTurns acquire turnsOf requested next) fun _ after ran => ?_
    exact runProgram_follows calm obeys requested next after (Nat.le_trans (Nat.le_max_right _ _) small)
      (installed.shallow nested ran)

/-- The body of a hook runs while the slot is empty, and the hook is put back into a slot that is still empty
after it. -/
theorem escalateWith_follows (calm : Host.Calm σ) {hook : Hook ω} (obeys : Obeys (hook.depth - 1) acquire turnsOf)
    (installed : arena.hook = some hook) (small : hook.depth ≤ depth) (size : Nat) :
    Follows depth (escalateWith acquire hook size) arena (hookTurns acquire turnsOf hook size arena) := by
  rw [escalateWith_eq]
  have first := detach_spec size arena
  unfold hookTurns
  cases ran : detach size arena with
  | error fault after =>
    obtain ⟨rfl, -, counted, -⟩ := first.of_error ran
    refine ⟨trivial, trivial, ?_⟩
    rw [Run.meets_bind]
    exact .halted ran ⟨by decide, counted⟩
  | ok _ begun =>
    obtain ⟨empty, counted, -⟩ := first.of_ok ran
    have bare : begun.hookDepth ≤ hook.depth - 1 := by rw [hookDepth, empty]; exact Nat.zero_le _
    have inside := runProgram_follows calm obeys size hook.program begun hook.depth_program bare
    have orderly := inside.orderly
    have meets := inside.meets
    rw [empty] at orderly meets
    refine ⟨⟨installed, orderly, trivial⟩, ⟨small, inside.below, trivial⟩, ?_⟩
    rw [Run.meets_bind]
    refine .ended ran ?_
    rw [Run.meets_bind]
    refine meets.mono ?_ ?_
    · rintro answer middle ⟨slot, counted'⟩
      refine (reattach_spec hook size answer middle).imp ?_
      rintro _ after ⟨-, back, counted'', -⟩
      rw [slot] at back
      refine ⟨back, ?_⟩
      rw [Turns.started, Nat.add_comm (Turns.started _)]
      exact (counted.trans counted').trans counted''
    · rintro fault after ⟨calm, counted'⟩
      refine ⟨calm, ?_⟩
      rw [Turns.started, Nat.add_comm (Turns.started _)]
      exact counted.trans counted'

theorem acquireOr_follows (calm : Host.Calm σ) {recover : Hook ω → Run (Arena σ ω) Outcome}
    {recoverTurns : Hook ω → Arena σ ω → Turns ω} (nested : arena.hookDepth ≤ depth) (size : Nat)
    (recovers : ∀ denied hook, denied.hook = some hook → hook.depth ≤ depth →
      Follows depth (recover hook) denied (recoverTurns hook denied)) :
    Follows depth (acquireOr recover size) arena (acquireTurns recoverTurns size arena) := by
  rw [acquireOr_eq]
  have first := (keeps_ask calm size).follows (ω := ω) depth arena
  refine first.bind _ fun granted denied ran => ?_
  have nested' := first.shallow nested ran
  cases granted with
  | some block => exact Keeps.follows (.pure _) depth denied
  | none =>
    refine .reading ?_
    cases installed : denied.hook with
    | none => exact Keeps.follows (.bind (keeps_say _) fun _ => .pure _) depth denied
    | some hook =>
      rw [hookDepth, installed] at nested'
      exact recovers denied hook installed nested'

/-- The bound may be less than the fuel: inside a hook there is more left than the hooks to come can use. -/
theorem acquireWithin_follows (calm : Host.Calm σ) (fuel : Nat) :
    ∀ depth, depth ≤ fuel → Obeys depth (acquireWithin (σ := σ) (ω := ω) fuel) (turnsWithin fuel) := by
  induction fuel with
  | zero =>
    intro depth bounded size arena nested
    refine acquireOr_follows calm nested size fun denied hook installed small => ?_
    -- A hook that is installed can run, so it is at least one deep.
    exact absurd (Nat.le_trans small bounded) (Nat.not_succ_le_zero _)
  | succ fuel ih =>
    intro depth bounded size arena nested
    refine acquireOr_follows calm nested size fun denied hook installed small => ?_
    exact escalateWith_follows calm (ih (hook.depth - 1) (by omega)) installed small size

theorem acquire_follows (calm : Host.Calm σ) (depth : Nat) :
    Obeys depth (Arena.acquire (σ := σ) (ω := ω)) Arena.turns := by
  intro size arena nested
  have follows := acquireWithin_follows calm _ _ (Nat.le_refl arena.hookDepth) size arena (Nat.le_refl _)
  exact .reading ⟨follows.orderly, follows.below.mono nested, follows.meets⟩

theorem resize_follows (calm : Host.Calm σ) (oldSize : Nat) (addr : Addr) (newSize : Nat) (arena : Arena σ ω) :
    Follows arena.hookDepth (resize oldSize addr newSize) arena
      (resizeTurns Arena.turns oldSize addr newSize arena) :=
  resizeWith_follows calm (acquire_follows calm arena.hookDepth) (Nat.le_refl _) oldSize addr newSize

end SlabAllocator.Arena
