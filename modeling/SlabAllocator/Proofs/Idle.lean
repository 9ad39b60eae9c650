import SlabAllocator.Proofs.Berth

/-! What a request comes to when the hook has nothing to offer: the host alone decides, and a denial
leaves every block and every counter of blocks as it was. The hook was asked once, if there is one. -/

namespace SlabAllocator

/-- A program of a hook that leaves the arena alone and has no answer. -/
inductive Program.Idle : Program ω → Prop
  | answer {choose : ω → Option Addr} (silent : ∀ env, choose env = none) : Idle (.answer choose)
  | perform {choose : Nat → ω → Deed} {learn : Reply → ω → ω} {next : Program ω}
    (passes : ∀ requested env, choose requested env = .pass) (rest : Idle next) :
    Idle (.perform choose learn next)
  | record {change : Nat → ω → ω} {next : Program ω} (rest : Idle next) : Idle (.record change next)
  | branch {test : ω → Bool} {yes no : Program ω} (first : Idle yes) (second : Idle no) :
    Idle (.branch test yes no)

structure Books.Agree (before after : Books ω) : Prop where
  held : after.held = before.held
  tickets : after.tickets = before.tickets
  errands : after.errands = before.errands

namespace Arena

/-- There is no hook, or its next run is one that leaves the arena alone and has no answer. -/
def Idle (arena : Arena σ (Books ω)) : Prop :=
  ∀ hook, arena.hook = some hook → ∃ programs : List (Program ω),
    hook.programs = Program.auditedAll arena.pageSize programs ∧ (programs.headD (.answer fun _ => none)).Idle

section Runs

variable [Host σ] {arena : Arena σ (Books ω)} {acquire : Nat → Run (Arena σ (Books ω)) Outcome}

private theorem runProgram_idle {program : Program ω} (idle : program.Idle) (requested pageSize : Nat)
    (arena : Arena σ (Books ω)) :
    (runProgram acquire requested (program.audited pageSize)).Ends arena fun answer after =>
      answer = none ∧ ∃ env, after = { arena with env } ∧ arena.env.Agree env := by
  induction idle generalizing arena with
  | answer silent =>
    simp only [Program.audited, runProgram, silent, Books.conclude, carryOut, Run.meets_bind, Run.meets_get,
      Run.meets_modify, Run.meets_pure]
    exact ⟨trivial, _, rfl, rfl, rfl, rfl⟩
  | perform passes rest ih =>
    simp only [Program.audited, runProgram, passes, Books.begin, Books.undertake, carryOut, Run.meets_bind,
      Run.meets_get, Run.meets_modify, Run.meets_pure]
    refine (ih _).imp ?_
    rintro answer after ⟨none, env, rfl, agree⟩
    exact ⟨none, env, rfl, agree.held, agree.tickets, agree.errands⟩
  | record rest ih =>
    simp only [Program.audited, runProgram, Run.meets_bind, Run.meets_modify]
    refine (ih _).imp ?_
    rintro answer after ⟨none, env, rfl, agree⟩
    exact ⟨none, env, rfl, agree.held, agree.tickets, agree.errands⟩
  | branch first second ih ih' =>
    simp only [Program.audited, runProgram, Run.meets_bind, Run.meets_get]
    split
    · exact ih arena
    · exact ih' arena

theorem Idle.runProgram_eq (idle : arena.Idle) {hook : Hook (Books ω)} (installed : arena.hook = some hook)
    (requested : Nat) (begun : Arena σ (Books ω)) :
    (runProgram acquire requested hook.program).Ends begun fun answer after =>
      answer = none ∧ ∃ env, after = { begun with env } ∧ begun.env.Agree env := by
  obtain ⟨programs, audited, first⟩ := idle hook installed
  rw [Hook.program, audited]
  cases programs with
  | nil =>
    simp only [Program.auditedAll, List.headD_nil, runProgram, Run.meets_bind, Run.meets_get, Run.meets_pure]
    exact ⟨trivial, _, rfl, rfl, rfl, rfl⟩
  | cons program rest => exact runProgram_idle first requested arena.pageSize begun

end Runs

/-- What the host is asked for a block of this length. A block that is too long it is not asked for. -/
def asking (len : Nat) (granted : Option Addr) : List Event :=
  if len ≤ Size.longest then [.request len granted] else []

variable [Host σ] [LawfulHost σ] {arena : Arena σ (Books ω)} {locked : List Extent}

omit [LawfulHost σ] in
/-- How the host answers a request, and what the journal says of it. -/
private theorem request_told (power : Size.isPowerOfTwo arena.pageSize = true) (size : Nat) :
    (request size).Meets arena
      (fun granted after => after.events = arena.events ++ asking (pageBytes arena.pageSize size) granted ∧
        (pageBytes arena.pageSize size ≤ Size.longest →
          Host.grants arena.machine.host (pageBytes arena.pageSize size) = granted.isSome) ∧
        (granted.isSome → pageBytes arena.pageSize size ≤ Size.longest)) fun _ _ => True := by
  simp only [request, Run.meets_bind, Run.meets_get, Run.meets_lift (blockLen_eq power size)]
  by_cases short : pageBytes arena.pageSize size ≤ Size.longest
  case neg =>
    simp only [if_neg short, Run.meets_pure, asking, List.append_nil]
    exact ⟨trivial, fun fits => absurd fits short, nofun⟩
  simp only [if_pos short, asking, Arena.onMachine, Machine.request, Machine.onHost,
    Run.meets_bind, Run.meets_focus]
  refine (Run.Meets.result _ _).mono ?_ fun _ _ _ => trivial
  intro granted host asked
  have grants : Host.grants arena.machine.host (pageBytes arena.pageSize size) = granted.isSome := by
    rw [Host.grants, asked]
    cases granted <;> rfl
  cases granted with
  | none =>
    simp only [Machine.note, Run.meets_bind, Run.meets_modify, Run.meets_pure]
    exact ⟨Journal.events_note .., fun _ => grants, nofun⟩
  | some base =>
    simp only [Machine.note, Machine.setMemory, Run.meets_bind, Run.meets_get, Run.meets_modify, Run.meets_pure]
    refine (recordMapped_counts _ _).mono ?_ fun _ _ _ => trivial
    rintro _ after ⟨-, machine, -⟩
    refine ⟨?_, fun _ => grants, fun _ => short⟩
    rw [events, machine]
    exact Journal.events_note ..

structure Granted (locked : List Extent) (size : Nat) (before : Arena σ (Books ω)) (addr : Addr)
    (after : Arena σ (Books ω)) : Prop where
  sound : Sound ((addr, pageBytes before.pageSize size) :: locked) after
  steady : Steady locked before after
  quiet : Quiet before after
  short : pageBytes before.pageSize size ≤ Size.longest
  grants : Host.grants before.machine.host (pageBytes before.pageSize size) = true
  events : after.events = before.events ++ [.request (pageBytes before.pageSize size) (some addr)]

structure Denied (size : Nat) (before after : Arena σ (Books ω)) : Prop where
  memory : after.machine.memory = before.machine.memory
  paged : after.pageSize = before.pageSize
  books : before.env.Agree after.env
  hook : after.hook = before.hook.map Hook.afterRun
  stats : after.stats =
    { before.stats with hookInvocations := before.stats.hookInvocations + if before.hasHook then 1 else 0 }
  events : after.events = before.events ++ (asking (pageBytes before.pageSize size) none ++
    if before.hasHook then [.hookStarted size, .hookFinished none] else [])
  refused : pageBytes before.pageSize size ≤ Size.longest →
    Host.grants before.machine.host (pageBytes before.pageSize size) = false

structure Uncounted (size : Nat) (before : Arena σ (Books ω)) (fault : Fault) : Prop where
  fault : fault = .overflow
  full : Size.bound ≤ before.stats.hookInvocations + 1
  installed : before.hasHook = true
  refused : pageBytes before.pageSize size ≤ Size.longest →
    Host.grants before.machine.host (pageBytes before.pageSize size) = false

omit [LawfulHost σ] in
/-- The hook is asked once and given back. -/
private theorem escalateWith_idle {acquire : Nat → Run (Arena σ (Books ω)) Outcome} (idle : arena.Idle)
    {hook : Hook (Books ω)} {size : Nat} {denied : Arena σ (Books ω)} (installed : arena.hook = some hook)
    (inquired : Inquired arena denied)
    (told : denied.events = arena.events ++ asking (pageBytes arena.pageSize size) none)
    (refused : pageBytes arena.pageSize size ≤ Size.longest →
      Host.grants arena.machine.host (pageBytes arena.pageSize size) = false) :
    (escalateWith acquire hook size).Meets denied
      (fun outcome after => outcome = .error (.outOfMemory size) ∧ Denied size arena after)
      fun fault _ => Uncounted size arena fault := by
  have attached : arena.hasHook = true := by rw [hasHook, installed]; rfl
  obtain ⟨host, journal, rfl⟩ := inquired
  simp only [escalateWith, setHook, setStats, note, Machine.note, onMachine, Run.meets_bind, Run.meets_get,
    Run.meets_modify, Run.meets_focus]
  refine Run.meets_lift_cases (fun invocations counted => ?_) fun fault failed => ?_
  · obtain ⟨-, rfl⟩ := Size.add_eq_ok.mp counted
    refine (idle.runProgram_eq installed size _).imp ?_
    rintro _ after ⟨rfl, env, rfl, agree⟩
    simp only [hasHook, Option.isSome_none, Bool.not_false, if_true, say, onMachine, Run.meets_bind,
      Run.meets_modify, Run.meets_focus, Run.meets_pure]
    refine ⟨trivial, rfl, rfl, agree, ?_, ?_, ?_, refused⟩
    · rw [installed, Option.map_some]
    · rw [attached, if_pos rfl]
    · rw [attached, if_pos rfl, ← List.append_assoc, ← told]
      change (journal.note _ |>.note _).events.toList = _
      rw [Journal.events_note, Journal.events_note, List.append_assoc]
      rfl
  · obtain ⟨full, overflow⟩ := Size.add_eq_error.mp failed
    exact ⟨overflow, full, attached, refused⟩

private theorem acquireOr_idle {recover : Hook (Books ω) → Run (Arena σ (Books ω)) Outcome}
    (sound : Sound locked arena) (size : Nat)
    (recovers : ∀ hook denied, arena.hook = some hook → Inquired arena denied →
      denied.events = arena.events ++ asking (pageBytes arena.pageSize size) none →
      (pageBytes arena.pageSize size ≤ Size.longest →
        Host.grants arena.machine.host (pageBytes arena.pageSize size) = false) →
      (recover hook).Meets denied (fun outcome after => outcome = .error (.outOfMemory size) ∧
        Denied size arena after)
        fun fault _ => Uncounted size arena fault) :
    (acquireOr recover size).Meets arena
      (fun outcome after => match outcome with
        | .ok addr => Granted locked size arena addr after
        | .error error => error = .outOfMemory size ∧ Denied size arena after)
      fun fault _ => Uncounted size arena fault := by
  simp only [acquireOr, Run.meets_bind]
  refine ((sound.request_spec size).and ((request_told sound.power size).and (request_denied size arena))).mono ?_
    fun _ _ stopped => stopped.1.elim
  rintro granted middle ⟨⟨quiet, steady, result⟩, ⟨told, grants, short⟩, inquired⟩
  cases granted with
  | some addr =>
    have fits := short rfl
    rw [asking, if_pos fits] at told
    simp only [Run.meets_pure]
    exact ⟨result, steady, quiet, fits, grants fits, told⟩
  | none =>
    obtain ⟨host, journal, rfl⟩ := inquired rfl
    simp only [say, onMachine, Run.meets_bind, Run.meets_focus, Run.meets_modify, Run.meets_get]
    split
    next hook installed =>
      refine (recovers hook { arena with machine := ⟨host, arena.machine.memory, journal.say (.denied size)⟩ }
        installed ⟨_, _, rfl⟩ told grants).imp ?_
      rintro _ after ⟨rfl, denied⟩
      exact ⟨rfl, denied⟩
    next bare =>
      have detached : arena.hasHook = false := by rw [hasHook, show arena.hook = none from bare]; rfl
      simp only [Run.meets_bind, Run.meets_focus, Run.meets_modify, Run.meets_pure]
      refine ⟨trivial, rfl, rfl, ⟨rfl, rfl, rfl⟩, ?_, ?_, ?_, grants⟩
      · rw [show arena.hook = none from bare]
        rfl
      · rw [detached]
        rfl
      · rw [detached, if_neg Bool.false_ne_true, List.append_nil]
        exact told

/-- With a hook that has nothing to offer a request succeeds exactly when the host grants it. -/
theorem Sound.acquire_idle (sound : Sound locked arena) (idle : arena.Idle) (size : Nat) :
    (acquire size).Meets arena
      (fun outcome after => match outcome with
        | .ok addr => Granted locked size arena addr after
        | .error error => error = .outOfMemory size ∧ Denied size arena after)
      fun fault _ => Uncounted size arena fault := by
  simp only [acquire, Run.meets_bind, Run.meets_get]
  cases slot : arena.hook with
  | none =>
    rw [hookDepth, slot]
    refine acquireOr_idle sound size fun hook denied installed => ?_
    rw [slot] at installed
    cases installed
  | some hook =>
    rw [hookDepth, slot]
    exact acquireOr_idle sound size fun hook denied => escalateWith_idle idle

end Arena
end SlabAllocator
