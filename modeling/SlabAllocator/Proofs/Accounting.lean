import SlabAllocator.Proofs.Reachable

/-! The counters of a session. Each layer keeps its own, and all of them tell of the same blocks. -/

namespace SlabAllocator.Session

variable {slots : List Slot} {slot : Slot}

private theorem length_flatMap_ite (indices : List Nat) (index addr : Nat) :
    (indices.flatMap fun other => if index = other then [addr] else []).length = indices.count index := by
  induction indices with
  | nil => rfl
  | cons head rest ih =>
    rw [List.flatMap_cons, List.length_append, ih, List.count_cons]
    by_cases same : index = head
    · simp [same, Nat.add_comm]
    · simp [same, Ne.symm same]

private theorem length_slotsOf {entries : Nat}
    (inside : ∀ slot ∈ slots, ∀ index, slot.source = .registry index → index < entries) :
    ((List.range entries).flatMap fun index => slotsOf slots (.registry index)).length =
      (slots.filter (·.source.isRegistry)).length := by
  induction slots with
  | nil => simp [slotsOf]
  | cons slot rest ih =>
    have rest_inside := ih fun other member => inside other (List.mem_cons_of_mem _ member)
    simp only [slotsOf_cons]
    rw [← (List.flatMap_append_perm ..).length_eq, List.length_append, rest_inside]
    cases source : slot.source with
    | registry index =>
      have one := List.count_range (a := index) (n := entries)
      rw [if_pos (inside slot List.mem_cons_self index source)] at one
      simp only [Source.registry.injEq, length_flatMap_ite, one, List.filter_cons, source, Source.isRegistry,
        if_true, List.length_cons]
      omega
    | dedicated number => simp [source, Source.isRegistry]

variable [Host σ] [LawfulHost σ]
variable {session : Session σ ω}

/-- Every slot of the client from the registry is one of its pools', and every such slot is with the client. -/
private theorem Sound.length_slots (sound : Sound session) :
    session.allocator.slots.length = (session.slots.filter (·.source.isRegistry)).length := by
  have inside : ∀ slot ∈ session.slots, ∀ index, slot.source = .registry index →
      index < session.allocator.pools.size := by
    intro slot member index registered
    obtain ⟨pool, here, -, -⟩ := sound.pool_of member
    rw [registered] at here
    exact Entries.lt_size (Option.join_eq_some_iff.mp here)
  rw [Allocator.slots_eq, ← length_slotsOf inside, List.length_flatMap, List.length_flatMap]
  exact congrArg List.sum (List.map_congr_left fun index _ => (sound.ledger (.registry index)).length_eq)

structure Accounted (session : Session σ ω) : Prop where
  holders : (Journal.live session.arena.machine.journal.events.toList).Perm
    (session.frames ++ session.held.map session.blockExtent)
  live : session.arena.stats.liveBlocks = (Journal.live session.arena.machine.journal.events.toList).length
  blocks : session.arena.stats.liveBlocks =
    Entries.frameCount session.allocator.pools + Entries.frameCount session.dedicated + session.held.length
  mapped : session.arena.stats.mappedBytes =
    Extent.total (Journal.live session.arena.machine.journal.events.toList)
  peak : Journal.Peak session.arena.machine.journal.events.toList session.arena.stats.peakMappedBytes
  stats : ∃ stats, session.allocator.stats = .ok stats ∧ stats.arena = session.arena.stats ∧
    stats.frames = Entries.frameCount session.allocator.pools ∧
    stats.liveSlots = (session.slots.filter (·.source.isRegistry)).length

theorem Reachable.accounted : (∀ {session : Session σ ω}, Reachable session → Accounted session) ∧
    ∀ {session : Session (Quota σ) ω}, Reachable session →
      session.arena.machine.host.inUse = session.arena.stats.mappedBytes := by
  refine ⟨fun {session} reachable => ?_, fun {session} reachable => ?_⟩
  · have sound := reachable.sound
    have accounts := sound.accounts
    have same := accounts.machine.journal
    refine ⟨same.trans accounts.live, accounts.liveBlocks.trans same.length_eq.symm, ?_,
      accounts.mappedBytes.trans (Extent.total_perm same).symm, accounts.machine.peak, _,
      sound.registry.stats_eq, rfl, ?_,
      sound.length_slots⟩
    · rw [accounts.liveBlocks, accounts.live.length_eq,
        sound.registry.entries.frameCount_eq session.arena.pageSize, sound.pools.frameCount_eq
          session.arena.pageSize, List.length_append, List.length_map, frames, List.length_append]
      rfl
    · exact (sound.registry.entries.frameCount_eq session.allocator.arena.pageSize).symm
  · have accounts := reachable.sound.accounts
    rw [accounts.mappedBytes]
    exact accounts.machine.holds.2

theorem accounted_of_trading : ∃ session : Session (Quota Kernel) (Option Addr),
    replay fourPages .standard none trading = some session ∧ session.arena.stats = ⟨2, 16384, 16384, 1⟩ ∧
      session.arena.machine.host.inUse = session.arena.stats.mappedBytes ∧ Accounted session := by
  have ended : (replay fourPages .standard none trading).map (·.arena.stats) = some ⟨2, 16384, 16384, 1⟩ := by
    decide +kernel
  obtain ⟨session, replayed, stats⟩ := Option.map_eq_some_iff.mp ended
  have reachable : Reachable session := .of_replay fourPages_fresh (by decide) (by decide) replayed
  exact ⟨session, replayed, stats, Reachable.accounted.2 reachable, Reachable.accounted.1 reachable⟩

end SlabAllocator.Session
