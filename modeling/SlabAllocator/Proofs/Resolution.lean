import SlabAllocator.Proofs.Calm

/-! How a request for a block ends, in any state of an arena and whatever its hook is: the host serves it, or the
answer of the hook decides. What the arena does itself around the run of the hook touches no block and no
counter of blocks. -/

namespace SlabAllocator

theorem Machine.request_denied [Host σ] (len : Nat) (machine : Machine σ) :
    (request len).Meets machine (fun granted after => granted = none → after.memory = machine.memory)
      fun _ _ => True := by
  simp only [request, onHost, Run.meets_bind, Run.meets_focus]
  refine .any fun granted host => ?_
  cases granted with
  | none =>
    simp only [note, Run.meets_bind, Run.meets_modify, Run.meets_pure]
    exact fun _ => trivial
  | some base =>
    simp only [note, setMemory, Run.meets_bind, Run.meets_get, Run.meets_modify, Run.meets_pure]
    exact nofun

namespace Arena

variable {arena before middle after : Arena σ ω} {size : Nat}

def Inquired (before after : Arena σ ω) : Prop :=
  ∃ host journal, after = { before with machine := ⟨host, before.machine.memory, journal⟩ }

theorem Inquired.undisturbed (inquired : Inquired before after) : Undisturbed before after := by
  obtain ⟨host, journal, rfl⟩ := inquired
  exact ⟨rfl, rfl, rfl, rfl⟩

variable [Host σ]

theorem request_denied (size : Nat) (arena : Arena σ ω) :
    (request size).Meets arena (fun granted after => granted = none → Inquired arena after) fun _ _ => True := by
  simp only [request, onMachine, Run.meets_bind, Run.meets_get]
  refine Run.meets_lift_any fun len? _ => ?_
  cases len? with
  | none =>
    simp only [Run.meets_pure]
    exact fun _ => ⟨_, _, rfl⟩
  | some len =>
    simp only [Run.meets_bind, Run.meets_focus]
    refine (Machine.request_denied len arena.machine).imp fun granted machine same => ?_
    cases granted with
    | none =>
      simp only [Run.meets_pure]
      exact fun _ => ⟨machine.host, machine.journal, by rw [← same rfl]⟩
    | some base =>
      simp only [Run.meets_bind, Run.meets_pure]
      exact .any fun _ _ => nofun

/-- How a request comes to its end. -/
inductive Resolved (size : Nat) (before : Arena σ ω) : Outcome → Arena σ ω → Prop
  | served {addr : Addr} {after : Arena σ ω} (granted : request size before = .ok (some addr) after) :
    Resolved size before (.ok addr) after
  | unaided {after : Arena σ ω} (bare : before.hook = none) (calm : Undisturbed before after) :
    Resolved size before (.error (.outOfMemory size)) after
  | answered {hook : Hook ω} {answer : Option Addr} {begun ended after : Arena σ ω}
    (installed : before.hook = some hook)
    (start : Undisturbed before begun)
    (ran : runProgram (acquireWithin (hook.depth - 1)) size hook.program begun = .ok answer ended)
    (finish : Undisturbed ended after) : Resolved size before (answer.elim (.error (.outOfMemory size)) .ok) after

inductive Broken (size : Nat) (before : Arena σ ω) : Fault → Arena σ ω → Prop
  | asked {fault : Fault} {after : Arena σ ω} (failed : request size before = .error fault after) :
    Broken size before fault after
  | unwound {hook : Hook ω} {begun after : Arena σ ω} {fault : Fault} (installed : before.hook = some hook)
    (start : Undisturbed before begun)
    (ran : runProgram (acquireWithin (hook.depth - 1)) size hook.program begun = .error fault after) :
    Broken size before fault after
  | uncounted {hook : Hook ω} {after : Arena σ ω} (installed : before.hook = some hook)
    (calm : Undisturbed before after)
    (full : Size.bound ≤ before.stats.hookInvocations + 1) : Broken size before .overflow after

theorem escalateWith_resolves {hook : Hook ω} (installed : arena.hook = some hook) (size : Nat)
    (inquired : Inquired arena middle) :
    (escalateWith (acquireWithin (hook.depth - 1)) hook size).Meets middle (Resolved size arena)
      (Broken size arena) := by
  have first := inquired.undisturbed
  have counters : middle.stats = arena.stats := by
    obtain ⟨host, journal, rfl⟩ := inquired
    rfl
  simp only [escalateWith_eq, Run.meets_bind]
  refine (detach_spec size middle).mono ?_ ?_
  · rintro _ begun ⟨-, -, start⟩
    have program : (runProgram (acquireWithin (hook.depth - 1)) size hook.program).Meets begun (fun _ _ => True)
        fun _ _ => True :=
      .any fun _ _ => trivial
    refine program.traced.mono ?_ fun fault after stopped => .unwound installed (first.trans start) stopped.1
    rintro answer ended ⟨ran, -⟩
    refine (reattach_spec hook size answer ended).imp ?_
    rintro outcome after ⟨rfl, -, -, finish⟩
    exact .answered installed (first.trans start) ran finish
  · rintro fault after ⟨rfl, full, -, calm⟩
    rw [counters] at full
    exact .uncounted installed (first.trans calm) full

theorem acquireOr_resolves {recover : Hook ω → Run (Arena σ ω) Outcome} (size : Nat) (arena : Arena σ ω)
    (recovers : ∀ denied hook, Inquired arena denied → denied.hook = some hook →
      (recover hook).Meets denied (Resolved size arena) (Broken size arena)) :
    (acquireOr recover size).Meets arena (Resolved size arena) (Broken size arena) := by
  simp only [acquireOr, Run.meets_bind]
  refine (request_denied size arena).traced.mono ?_ fun fault after failed => .asked failed.1
  rintro granted denied ⟨ran, inquired⟩
  cases granted with
  | some block =>
    simp only [Run.meets_pure]
    exact .served ran
  | none =>
    obtain ⟨host, journal, rfl⟩ := inquired rfl
    simp only [say, onMachine, Run.meets_bind, Run.meets_focus, Run.meets_modify, Run.meets_get]
    split
    next hook installed =>
      exact recovers _ hook ⟨_, _, rfl⟩ installed
    next bare =>
      simp only [Run.meets_bind, Run.meets_focus, Run.meets_modify, Run.meets_pure]
      exact .unaided bare ⟨rfl, rfl, rfl, rfl⟩

theorem acquire_resolves (size : Nat) (arena : Arena σ ω) :
    (acquire size).Meets arena (Resolved size arena) (Broken size arena) := by
  simp only [acquire, Run.meets_bind, Run.meets_get]
  cases slot : arena.hook with
  | none =>
    rw [hookDepth, slot]
    refine acquireOr_resolves size arena ?_
    rintro denied hook ⟨host, journal, rfl⟩ installed
    cases slot.symm.trans installed
  | some hook =>
    rw [hookDepth, slot]
    refine acquireOr_resolves size arena ?_
    rintro denied other inquired installed
    have same : denied.hook = arena.hook := by
      obtain ⟨host, journal, rfl⟩ := inquired
      rfl
    obtain rfl : other = hook := Option.some.inj (installed.symm.trans (same.trans slot))
    exact escalateWith_resolves slot size inquired

end Arena
end SlabAllocator
