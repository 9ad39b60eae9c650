import SlabAllocator.Proofs.Reachable

/-! The calls that reach a host keep to its contract, in every run of a client and also in a run
that stops because a hook left. -/

namespace SlabAllocator.Session

variable [Host σ] [LawfulHost σ]
variable {session : Session σ ω} {host : σ} {policy : Policy} {env : ω}

/-- Every length that was asked for is proper, every other call names a live block by its base
and its length, and a block that went back stays away until the host grants it again. -/
structure Respects (pageSize : Nat) (session : Session σ ω) : Prop where
  lawful : Journal.Lawful pageSize session.arena.machine.journal.events.toList
  final : Journal.Final session.arena.machine.journal.events.toList

private theorem respects_of_sound {locked : List Extent} {pageSize : Nat}
    (sound : Arena.Sound locked session.arena) (paged : session.arena.pageSize = pageSize) :
    Respects pageSize session :=
  paged ▸ ⟨sound.machine.lawful, sound.machine.lawful.final sound.machine.scattered⟩

theorem Starts.respects (starts : Starts host policy env session) (ops : List (Op ω)) :
    (run ops).Meets session (fun _ after => Respects (Host.pageSize host) after)
      (fun fault after => Respects (Host.pageSize host) after ∧
        (fault = .unwound ∨ fault = .overflow ∧ Size.bound ≤ after.arena.stats.hookInvocations + 1)) := by
  have paged := starts.paged
  refine ((Reachable.start starts).run_spec ops).mono ?_ ?_
  · rintro _ after ⟨reachable, same⟩
    exact respects_of_sound reachable.sound.accounts (same.trans paged)
  · rintro fault after ⟨before, reachable, same, halted⟩
    obtain ⟨lost, sound⟩ := halted.sound
    exact ⟨respects_of_sound sound (halted.steady.paged.trans (same.trans paged)), halted.cause⟩

theorem respects_of_trading : ∃ session after : Session (Quota Kernel) (Option Addr),
    start fourPages .standard none = .ok (.ok session) ∧ run trading session = .ok () after ∧
      after.arena.stats.hookInvocations = 1 ∧ after.arena.machine.journal.events.size = 8 ∧
      Respects 4096 after := by
  have ended : (replay fourPages .standard none trading).map (fun after =>
      (after.arena.stats.hookInvocations, after.arena.machine.journal.events.size)) = some (1, 8) := by
    decide +kernel
  obtain ⟨after, replayed, counts⟩ := Option.map_eq_some_iff.mp ended
  obtain ⟨session, started, ran⟩ := replay_spec replayed
  obtain ⟨hooks, events⟩ := Prod.mk.inj counts
  have starts : Starts fourPages .standard none session := ⟨fourPages_fresh, by decide, by decide, started⟩
  exact ⟨session, after, started, ran, hooks, events, (starts.respects trading).of_ok ran⟩

end SlabAllocator.Session
