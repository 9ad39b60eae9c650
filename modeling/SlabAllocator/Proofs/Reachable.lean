import SlabAllocator.Proofs.Steps

/-! The sessions that a client can reach, whatever it does, whatever the host denies and whatever
the recovery hooks do. All of them are in order. -/

namespace SlabAllocator

variable [Host σ] [LawfulHost σ]

theorem Arena.new_sound {host : σ} (fresh : LawfulHost.Fresh host)
    (power : Size.isPowerOfTwo (Host.pageSize host) = true) (env : ω) :
    Arena.Sound [] (Arena.new (.new host) (Books.new env)) where
  power := power
  machine := Machine.new_sound fresh
  live := .of_eq Memory.live_empty
  liveBlocks := by
    rw [show (Arena.new (.new host) (Books.new env)).machine.memory.live = [] from Memory.live_empty]; rfl
  mappedBytes := by
    rw [show (Arena.new (.new host) (Books.new env)).machine.memory.live = [] from Memory.live_empty]; rfl
  issued := nofun
  audited := nofun

namespace Session

variable {session before after : Session σ ω} {host : σ} {policy : Policy} {env : ω}

/-- What a session starts from: a host without blocks that counts in powers of two, and a
policy in machine words. Validation is up to the start itself. -/
structure Starts (host : σ) (policy : Policy) (env : ω) (session : Session σ ω) : Prop where
  fresh : LawfulHost.Fresh host
  power : Size.isPowerOfTwo (Host.pageSize host) = true
  word : policy.compactInterval < Size.bound
  started : start host policy env = .ok (.ok session)

inductive Reachable : Session σ ω → Prop
  | start {host : σ} {policy : Policy} {env : ω} {session : Session σ ω}
    (starts : Starts host policy env session) :
    Reachable session
  | step {before after : Session σ ω} {op : Op ω} (reachable : Reachable before)
    (stepped : Session.step op before = .ok () after) : Reachable after

omit [LawfulHost σ] in
/-- A valid policy starts a session, with an empty registry. -/
theorem start_eq (host : σ) (env : ω) (checked : policy.validate = .ok (.ok ())) : start host policy env =
    .ok (.ok ⟨⟨Arena.new (.new host) (Books.new env), policy, Array.replicate (max policy.classes 1) none⟩,
      #[], []⟩) := by
  obtain ⟨-, classes⟩ := Policy.validate_spec checked
  rw [start, Allocator.withPolicy, checked, checked_bind, Allocator.build, classes]
  rfl

omit [LawfulHost σ] in
private theorem start_spec (started : start host policy env = .ok (.ok session)) :
    policy.Sound ∧
    session = ⟨⟨Arena.new (.new host) (Books.new env), policy, Array.replicate (max policy.classes 1) none⟩,
      #[], []⟩ := by
  cases checked : policy.validate with
  | error fault =>
    rw [start, Allocator.withPolicy, checked] at started
    cases started
  | ok verdict =>
    cases verdict with
    | error error =>
      rw [start, Allocator.withPolicy, checked] at started
      cases started
    | ok _ =>
      rw [start_eq host env checked] at started
      cases started
      exact ⟨(Policy.validate_spec checked).1, rfl⟩

/-- A session starts without pools. -/
theorem Starts.vacant (starts : Starts host policy env session) (source : Source) :
    session.pool? source = none := by
  obtain ⟨-, rfl⟩ := start_spec starts.started
  refine Option.eq_none_iff_forall_ne_some.mpr fun pool found => ?_
  cases source with
  | registry index =>
    have here := Option.join_eq_some_iff.mp found
    rw [Array.getElem?_replicate] at here
    split at here <;> cases here
  | dedicated number => cases found

theorem Starts.sound (starts : Starts host policy env session) : Sound session := by
  have vacant := starts.vacant
  obtain ⟨valid, rfl⟩ := start_spec starts.started
  have absent : ∀ (index : Nat) pool, (Array.replicate (max policy.classes 1) (none : Option Pool))[index]? ≠
      some (some pool) := by
    intro index pool here
    have none := vacant (.registry index)
    rw [pool?, here] at none
    cases none
  have bare : ∀ pageSize, Entries.extents pageSize (Array.replicate (max policy.classes 1) none) = [] := by
    intro pageSize
    simp [Entries.extents, Entries.pools]
  refine ⟨⟨⟨?_, fun index pool here => (absent index pool here).elim⟩, valid, starts.word, Array.size_replicate,
    fun index pool here => (absent index pool here).elim⟩, fun number pool here => ?_, fun source => ?_⟩
  · change Arena.Sound (Entries.extents _ (Array.replicate (max policy.classes 1) none) ++ [])
      (Arena.new (.new host) (Books.new env))
    rw [bare]
    exact Arena.new_sound starts.fresh starts.power env
  · cases here
  · rw [live_elim, vacant]
    exact .refl _

theorem Starts.paged (starts : Starts host policy env session) : session.arena.pageSize = Host.pageSize host := by
  obtain ⟨-, rfl⟩ := start_spec starts.started
  rfl

theorem Reachable.sound (reachable : Reachable session) : Sound session := by
  induction reachable with
  | start starts => exact starts.sound
  | step _ stepped sound => exact ((sound.step_spec _).of_ok stepped).1

/-- A run of any length ends in a session that can be reached, or stops inside one of its steps. -/
theorem Reachable.run_spec (reachable : Reachable session) (ops : List (Op ω)) :
    (run ops).Meets session (fun _ after => Reachable after ∧ after.arena.pageSize = session.arena.pageSize)
      (fun fault after => ∃ before, Reachable before ∧ before.arena.pageSize = session.arena.pageSize ∧
        Halted before fault after) := by
  induction ops generalizing session with
  | nil =>
    simp only [run, Run.meets_pure]
    exact ⟨reachable, trivial⟩
  | cons op rest ih =>
    simp only [run, Run.meets_bind]
    refine (reachable.sound.step_spec op).traced.mono ?_ fun fault after halted =>
      ⟨session, reachable, rfl, halted.2⟩
    rintro _ middle ⟨stepped, -, kept, -⟩
    rw [← kept.paged]
    exact ih (.step reachable stepped)

omit [LawfulHost σ] in
theorem replay_spec {ops : List (Op ω)} (ended : replay host policy env ops = some after) :
    ∃ session, start host policy env = .ok (.ok session) ∧ run ops session = .ok () after := by
  unfold replay at ended
  split at ended
  next session started =>
    split at ended
    next final ran =>
      cases ended
      exact ⟨session, started, ran⟩
    next => cases ended
  next => cases ended

theorem Reachable.of_replay (fresh : LawfulHost.Fresh host)
    (power : Size.isPowerOfTwo (Host.pageSize host) = true) (word : policy.compactInterval < Size.bound)
    {ops : List (Op ω)} (ended : replay host policy env ops = some session) : Reachable session := by
  obtain ⟨begun, started, ran⟩ := replay_spec ended
  exact (((Reachable.start ⟨fresh, power, word, started⟩).run_spec ops).of_ok ran).1

end Session

/-- A hook that trades in a block of the client for the one that was denied. -/
def Program.trade (size : Nat) (addr : Addr) : Program (Option Addr) :=
  .perform (fun _ _ => .release size addr) (fun _ env => env) <|
  .perform (fun requested _ => .acquire requested)
    (fun reply _ => match reply with | .block found => found | _ => none) <|
  .answer id

/-- Operations of which the fourth needs the hook when there are four pages. -/
def trading : List (Op (Option Addr)) :=
  [.acquire 8192, .setHook (some [.trade 8192 0x10000000000]), .alloc 24, .alloc 5000,
    .realloc 5000 0x30000000000 9000]

def fourPages : Quota Kernel :=
  .new .new 16384

theorem fourPages_fresh : LawfulHost.Fresh fourPages :=
  ⟨Placement.holds_start, rfl⟩

end SlabAllocator
