import SlabAllocator.Proofs.Attained

/-! What a pool takes back: a slot that it has handed out, by the address where the slot starts. Any other
address is refused before anything has changed, wherever it lies. -/

namespace SlabAllocator.Session

variable [Host σ] [LawfulHost σ]
variable {session : Session σ ω} {pool : Pool} {source : Source} {addr : Addr}

/-- A slot has been freed and no more than that has happened. -/
structure Freed (session : Session σ ω) (source : Source) (pool : Pool) (addr : Addr)
    (middle : Arena σ (Books ω)) : Prop where
  silent : Arena.Silent session.arena middle
  stock : pool.stock middle.machine.memory = (pool.stock session.memory).vacate pool.geometry addr
  others : ∀ other, (pool.stock middle.machine.memory).Holds pool.geometry other ↔
    other ≠ addr ∧ session.HandedOut source other

theorem Sound.freed (sound : Sound session) (here : session.pool? source = some pool) {middle : Arena σ (Books ω)}
    (silent : Arena.Silent session.arena middle)
    (vacated : Pool.view (pool, middle) = (Pool.view (pool, session.arena)).vacate pool.geometry addr) :
    Freed session source pool addr middle := by
  refine ⟨silent, vacated, fun other => ?_⟩
  change (Pool.view (pool, middle)).Holds pool.geometry other ↔ _
  rw [vacated, Stock.holds_vacate, sound.handedOut_iff here]
  exact and_congr_right fun _ => (sound.valid_of here).holds_iff

/-- A slot of the client is freed first. Then the release is counted, and the empty frames go when enough were. -/
theorem Sound.release_freed (sound : Sound session) (here : session.pool? source = some pool)
    (taken : session.HandedOut source addr) :
    ∃ middle after, Freed session source pool addr middle ∧
      Pool.release addr (pool, session.arena) = Pool.countRelease (pool, middle) ∧
      Pool.countRelease (pool, middle) = .ok () after ∧
      Pool.view after = (pool.stock middle.machine.memory).tally pool.interval := by
  obtain ⟨locked, sound'⟩ := sound.focus here
  obtain ⟨middle, same, sound'', -, -, silent, vacated⟩ := sound'.release_eq ((sound.handedOut_iff here).mp taken)
  obtain ⟨_, after, counted, -, -, -, tallied⟩ := sound''.countRelease_spec.exists_ok
  exact ⟨middle, after, sound.freed here silent vacated, same, counted, tallied⟩

theorem Sound.release_refused (sound : Sound session) (here : session.pool? source = some pool)
    (free : ¬ session.HandedOut source addr) :
    Pool.release addr (pool, session.arena) = .error .violated (pool, session.arena) := by
  obtain ⟨locked, sound'⟩ := sound.focus here
  exact sound'.release_refused ((sound.handedOut_iff here).not.mp free)

theorem Attained.release_exact (attained : Attained session)
    (here : session.pool? source = some pool) (addr : Addr) :
    ((∃ after, Pool.release addr (pool, session.arena) = .ok () after) ↔ session.HandedOut source addr) ∧
    (session.HandedOut source addr → ∃ middle after, Freed session source pool addr middle ∧
      Pool.release addr (pool, session.arena) = Pool.countRelease (pool, middle) ∧
      Pool.countRelease (pool, middle) = .ok () after ∧
      Pool.view after = (pool.stock middle.machine.memory).tally pool.interval) ∧
    (¬ session.HandedOut source addr →
      Pool.release addr (pool, session.arena) = .error .violated (pool, session.arena)) := by
  have sound := attained.sound
  refine ⟨⟨fun accepted => ?_, fun taken => ?_⟩, sound.release_freed here, sound.release_refused here⟩
  · obtain ⟨after, released⟩ := accepted
    by_contra free
    rw [sound.release_refused here free] at released
    cases released
  · obtain ⟨middle, after, -, same, counted, -⟩ := sound.release_freed here taken
    exact ⟨after, same.trans counted⟩

theorem release_exact_of_handmade : ∃ (session : Session (Quota Kernel) (Option Addr)) (pool : Pool),
    handmade = some session ∧ session.pool? (.dedicated 0) = some pool ∧
      (∃ after, Pool.release 0x10000000030 (pool, session.arena) = .ok () after) ∧
      Pool.release 0x10000000058 (pool, session.arena) = .error .violated (pool, session.arena) := by
  have ended : (handmade.bind fun session => (session.pool? (.dedicated 0)).map fun _ =>
      (decide (session.HandedOut (.dedicated 0) 0x10000000030),
        decide (session.HandedOut (.dedicated 0) 0x10000000058))) =
      some (true, false) := by
    decide +kernel
  obtain ⟨session, made, ended⟩ := Option.bind_eq_some_iff.mp ended
  obtain ⟨pool, here, same⟩ := Option.map_eq_some_iff.mp ended
  obtain ⟨taken, free⟩ := Prod.mk.inj same
  have attained := attained_of_handmade made
  exact ⟨session, pool, made, here, (attained.release_exact here _).1.mpr (of_decide_eq_true taken),
    (attained.release_exact here _).2.2 (of_decide_eq_false free)⟩

end SlabAllocator.Session
