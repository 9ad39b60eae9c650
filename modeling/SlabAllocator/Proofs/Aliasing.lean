import SlabAllocator.Proofs.Reachable

/-! Nothing that is in the hands of a client shares a byte with anything else: not with another
block or slot, and not with what a pool keeps in its frames for itself. -/

namespace SlabAllocator.Session

variable [Host σ] [LawfulHost σ]
variable {session : Session σ ω} {pool : Pool} {source : Source} {slot other : Slot} {base : Nat}
  {extent : Extent}

private theorem Sound.nodup_slotsOf (sound : Sound session) (source : Source) :
    (slotsOf session.slots source).Nodup := by
  refine (sound.ledger source).nodup_iff.mp ?_
  cases source with
  | registry index => exact sound.registry.entries.nodup_live index
  | dedicated number => exact sound.pools.nodup_live number

theorem Sound.nodup_slots (sound : Sound session) : session.slots.Nodup := by
  refine List.nodup_iff_count_le_one.mpr fun slot => ?_
  have few := List.nodup_iff_count_le_one.mp (List.Nodup.of_map _ (sound.nodup_slotsOf slot.source)) slot
  have all : (session.slots.filter (·.source = slot.source)).count slot = session.slots.count slot :=
    List.count_filter (decide_eq_true rfl)
  rwa [all] at few

private theorem Sound.addr_ne (sound : Sound session) (member : slot ∈ session.slots)
    (member' : other ∈ session.slots) (different : slot ≠ other) (same : slot.source = other.source) :
    slot.addr ≠ other.addr := fun equal =>
  different (List.inj_on_of_nodup_map (sound.nodup_slotsOf other.source)
    (List.mem_filter.mpr ⟨member, decide_eq_true same⟩)
    (List.mem_filter.mpr ⟨member', decide_eq_true rfl⟩) equal)

theorem Sound.slots_apart (sound : Sound session) (member : slot ∈ session.slots)
    (member' : other ∈ session.slots) (different : slot ≠ other) :
    Extent.Apart (session.slotExtent slot) (session.slotExtent other) := by
  by_cases same : slot.source = other.source
  · obtain ⟨pool, here, taken, place⟩ := sound.pool_of member
    obtain ⟨_, there, taken', place'⟩ := sound.pool_of member'
    rw [same, there] at here
    cases here
    have apart := (sound.valid_of there).slots_apart sound.accounts.power (sound.spread_of there)
    rw [place, place']
    exact apart.forall (List.mem_map_of_mem taken) (List.mem_map_of_mem taken') fun equal =>
      sound.addr_ne member member' different same (congrArg Prod.fst equal)
  · obtain ⟨pool, base, here, owned, -, within⟩ := sound.frame_of member
    obtain ⟨pool', base', there, owned', -, within'⟩ := sound.frame_of member'
    refine (sound.frames_apart here there owned owned' fun equal => ?_).mono within within'
    subst equal
    exact same (sound.owner_unique here there owned owned')

theorem Sound.block_apart (sound : Sound session) (here : session.pool? source = some pool)
    (owned : base ∈ pool.owners) (member : extent ∈ session.held.map session.blockExtent) :
    Extent.Apart (base, pageBytes session.arena.pageSize pool.frameLen) extent :=
  sound.spread.apart_of_ne (List.mem_append_left _ (mem_frames here owned)) (List.mem_append_right _ member)
    fun same => sound.block_ne_frame here owned member (congrArg Prod.fst same).symm

/-- How what is in the hands of a client lies in memory. -/
structure Separate (session : Session σ ω) : Prop where
  apart : session.handedOut.Pairwise Extent.Apart
  placed : ∀ extent ∈ session.handedOut, 0 < extent.2 ∧
    ∃ block ∈ Journal.live session.arena.machine.journal.events.toList, Extent.Within extent block
  slots : ∀ slot ∈ session.slots, ∃ pool base, session.pool? slot.source = some pool ∧ base ∈ pool.owners ∧
    Extent.Within (session.slotExtent slot) (pool.area base)
  /-- The headers and the bitmaps of all frames are out of reach. -/
  preludes : ∀ extent ∈ session.handedOut, ∀ source pool base, session.pool? source = some pool →
    base ∈ pool.owners →
    Extent.Apart extent (pool.prelude base)

theorem Reachable.separate (reachable : Reachable session) : Separate session := by
  have sound := reachable.sound
  have live : ∀ extent ∈ session.frames ++ session.held.map session.blockExtent,
      extent ∈ Journal.live session.arena.machine.journal.events.toList := fun extent member =>
    sound.accounts.machine.journal.mem_iff.mpr (sound.accounts.live.mem_iff.mpr member)
  refine ⟨?_, fun extent member => ?_, fun slot member => ?_,
    fun extent member source other base' there owned' => ?_⟩
  · refine List.pairwise_append.mpr ⟨?_, (List.pairwise_append.mp sound.spread.apart).2.1, ?_⟩
    · refine List.pairwise_map.mpr (sound.nodup_slots.pairwise_of_forall_ne
        fun slot member other member' different => ?_)
      exact sound.slots_apart member member' different
    · intro first fromSlot second fromBlock
      obtain ⟨slot, member, rfl⟩ := List.mem_map.mp fromSlot
      obtain ⟨pool, base, here, owned, -, within⟩ := sound.frame_of member
      exact (sound.block_apart here owned fromBlock).mono within ⟨Nat.le_refl _, Nat.le_refl _⟩
  · rcases List.mem_append.mp member with fromSlot | fromBlock
    · obtain ⟨slot, inHand, rfl⟩ := List.mem_map.mp fromSlot
      obtain ⟨pool, base, here, owned, -, within⟩ := sound.frame_of inHand
      obtain ⟨_, again, -, same⟩ := sound.pool_of inHand
      rw [here] at again
      cases again
      refine ⟨?_, _, live _ (List.mem_append_left _ (mem_frames here owned)), within⟩
      rw [same]
      exact (sound.valid_of here).geometry.sized
    · have inside := List.mem_append_right session.frames fromBlock
      exact ⟨(sound.spread.placed extent inside).2.1, extent, live extent inside, Nat.le_refl _, Nat.le_refl _⟩
  · obtain ⟨pool, base, here, owned, inside, -⟩ := sound.frame_of member
    exact ⟨pool, base, here, owned, inside⟩
  · have prelude := (sound.valid_of there).prelude_within base' sound.accounts.power
    rcases List.mem_append.mp member with fromSlot | fromBlock
    · obtain ⟨slot, inHand, rfl⟩ := List.mem_map.mp fromSlot
      obtain ⟨pool, base, here, owned, inside, within⟩ := sound.frame_of inHand
      by_cases same : base = base'
      · subst same
        rw [sound.owner_unique here there owned owned', there] at here
        cases here
        exact ((sound.valid_of there).prelude_apart base).mono inside ⟨Nat.le_refl _, Nat.le_refl _⟩
      · exact (sound.frames_apart here there owned owned' same).mono within prelude
    · exact (sound.block_apart there owned' fromBlock).symm.mono ⟨Nat.le_refl _, Nat.le_refl _⟩ prelude

theorem separate_of_trading : ∃ session : Session (Quota Kernel) (Option Addr),
    replay fourPages .standard none trading = some session ∧
      session.handedOut = [(0x20000000040, 24), (0x30000000000, 12288)] ∧ Separate session := by
  have ended : (replay fourPages .standard none trading).map handedOut =
      some [(0x20000000040, 24), (0x30000000000, 12288)] := by
    decide +kernel
  obtain ⟨session, replayed, lies⟩ := Option.map_eq_some_iff.mp ended
  exact ⟨session, replayed, lies,
    Reachable.separate (.of_replay fourPages_fresh (by decide) (by decide) replayed)⟩

end SlabAllocator.Session
