import SlabAllocator.Proofs.Attained

/-! A session does not fail. Every policy that is valid starts one, every run of it ends unless a
hook leaves, and every question about it is answered: no sum or difference is out of range, no entry
is missing and no check of a pool or frame fails. -/

namespace SlabAllocator

variable [Host σ] [LawfulHost σ]
variable {arena : Arena σ (Books ω)} {locked : List Extent} {pool : Pool}

namespace Pool

/-- A frame that has just been added has a slot to hand out. -/
def Fertile (state : Pool × Arena σ (Books ω)) : Prop :=
  grow.Meets state
    (fun outcome after => ∀ base, outcome = .ok base →
      ∃ slot, Frame.takeSlot state.1.geometry (after.2.machine.memory.block base) = .ok (some slot))
    fun _ _ => True

theorem Sound.fertile (sound : Sound locked pool arena) : Fertile (pool, arena) := by
  refine sound.grow_spec.mono ?_ fun _ _ _ => trivial
  rintro _ after ⟨sound', changes, -, grown⟩ base rfl
  obtain ⟨slot, -, taken, -⟩ := grown.serves sound' changes.geometry
  exact ⟨slot, taken⟩

theorem Sound.liveSlots_eq (sound : Sound locked pool arena) :
    pool.liveSlots arena.machine.memory = .ok (pool.live arena.machine.memory).length := by
  have room := sound.accounts.spread.sum_lt
  have bytes := sound.valid.length_live_le sound.accounts.power
  change Extent.total _ < _ at room
  rw [Extent.total_append, Extent.total_append] at room
  exact sound.valid.liveSlots_ok (Nat.lt_of_le_of_lt bytes (by omega))

end Pool

namespace Session

variable {session : Session σ ω} {host : σ} {policy : Policy} {env : ω}

/-- What can be asked of a session at any time. -/
structure Answers (session : Session σ ω) : Prop where
  stats : ∃ stats, session.allocator.stats = .ok stats
  sizeClass : ∀ size, ∃ found, session.allocator.sizeClass size = .ok found
  route : ∀ size, ∃ entry, session.route size = .ok entry
  pool? : ∀ entitySize, ∃ entry, session.allocator.pool? entitySize = .ok entry
  liveSlots : ∀ source pool, session.pool? source = some pool → ∃ count, pool.liveSlots session.memory = .ok count
  fertile : ∀ source pool, session.pool? source = some pool → Pool.Fertile (pool, session.arena)
  /-- This also holds of a pool on its first request. -/
  begun : ∀ entitySize pool arena,
    Pool.create entitySize session.arena.pageSize session.allocator.policy.compactInterval
    session.arena = .ok (.ok pool) arena → Pool.Fertile (pool, arena)

theorem Sound.answers (sound : Sound session) : Answers session := by
  have policy := sound.registry.policy
  have positive := Size.pos_of_isPowerOfTwo sound.accounts.power
  refine ⟨⟨_, sound.registry.stats_eq⟩, fun size => ?_, fun size => ?_, Allocator.pool?_ok policy,
    fun source pool here => ?_, fun source pool here => ?_, fun entitySize pool arena created => ?_⟩
  · cases kind : session.allocator.policy.class? size with
    | some index => exact ⟨_, Allocator.sizeClass_pool policy kind⟩
    | none => exact ⟨_, Allocator.sizeClass_arena positive kind⟩
  · exact ⟨_, route_eq sound.registry size⟩
  · obtain ⟨locked, sound'⟩ := sound.focus here
    exact ⟨_, sound'.liveSlots_eq⟩
  · obtain ⟨locked, sound'⟩ := sound.focus here
    exact sound'.fertile
  · exact (Pool.Sound.of_create sound.accounts sound.registry.word created).fertile

/-- A run ends, or stops because a hook leaves or has been called as often as can be counted. -/
theorem unfailing (fresh : LawfulHost.Fresh host) (power : Size.isPowerOfTwo (Host.pageSize host) = true)
    (word : policy.compactInterval < Size.bound) (accepted : policy.validate = .ok (.ok ())) (env : ω) :
    ∃ session, start host policy env = .ok (.ok session) ∧ ∀ ops,
      (run ops).Meets session (fun _ after => Answers after)
      fun fault after => fault = .unwound ∨ fault = .overflow ∧
        Size.bound ≤ after.arena.stats.hookInvocations + 1 := by
  have started := start_eq host env accepted
  refine ⟨_, started, fun ops => ((Reachable.start ⟨fresh, power, word, started⟩).run_spec ops).mono ?_ ?_⟩
  · rintro _ after ⟨reachable, -⟩
    exact reachable.sound.answers
  · rintro fault after ⟨before, -, -, halted⟩
    exact halted.cause

theorem unfailing_of_trading : ∃ session after : Session (Quota Kernel) (Option Addr),
    start fourPages .standard none = .ok (.ok session) ∧ run trading session = .ok () after ∧
      after.arena.stats.hookInvocations = 1 ∧ Answers after := by
  have ended : (replay fourPages .standard none trading).map (·.arena.stats.hookInvocations) = some 1 := by
    decide +kernel
  obtain ⟨after, replayed, hooks⟩ := Option.map_eq_some_iff.mp ended
  obtain ⟨session, started, ran⟩ := replay_spec replayed
  obtain ⟨begun, started', meets⟩ := unfailing fourPages_fresh (by decide) (by decide)
    (show Policy.validate .standard = .ok (.ok ()) by decide) none
  rw [started] at started'
  cases started'
  exact ⟨session, after, started, ran, hooks, (meets trading).of_ok ran⟩

end Session
end SlabAllocator
