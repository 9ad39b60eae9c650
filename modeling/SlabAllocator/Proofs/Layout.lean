import SlabAllocator.Proofs.Ledger

/-! Where the slots and the blocks of a client lie. Every frame belongs to one pool, whether the
pool is registered or the client created it, and every slot lies in a frame. -/

namespace SlabAllocator.Session

variable [Host σ] [LawfulHost σ]
variable {session : Session σ ω} {pool candidate : Pool} {source other : Source} {slot : Slot} {base : Nat}

def frames (session : Session σ ω) : List Extent :=
  Entries.extents session.arena.pageSize session.allocator.pools ++ session.extents

theorem Sound.accounts (sound : Sound session) : Arena.Sound session.frames session.arena :=
  sound.registry.entries.accounts

theorem Sound.valid_of (sound : Sound session) (here : session.pool? source = some pool) :
    pool.Valid session.memory := by
  cases source with
  | registry index => exact sound.registry.entries.valid index pool (Option.join_eq_some_iff.mp here)
  | dedicated number => exact sound.valid number pool (Option.join_eq_some_iff.mp here)

theorem Sound.spread_of (sound : Sound session) (here : session.pool? source = some pool) :
    Spread (pool.extents session.arena.pageSize) := by
  cases source with
  | registry index => exact (sound.registry.entries.focus (Option.join_eq_some_iff.mp here)).spread_extents
  | dedicated number => exact (sound.pools.focus (Option.join_eq_some_iff.mp here)).spread_extents

omit [LawfulHost σ] [Host σ] in
theorem live_elim (session : Session σ ω) (source : Source) :
    session.live source = (session.pool? source).elim [] (·.live session.memory) := by
  cases source <;> rfl

omit [LawfulHost σ] [Host σ] in
theorem live_eq (here : session.pool? source = some pool) : session.live source = pool.live session.memory := by
  rw [live_elim, here, Option.elim_some]

omit [LawfulHost σ] [Host σ] in
theorem mem_frames (here : session.pool? source = some pool) (owned : base ∈ pool.owners) :
    (base, pageBytes session.arena.pageSize pool.frameLen) ∈ session.frames := by
  cases source with
  | registry index => exact List.mem_append_left _ (Entries.mem_extents (Option.join_eq_some_iff.mp here) owned _)
  | dedicated number =>
    exact List.mem_append_right _ (Entries.mem_extents (Option.join_eq_some_iff.mp here) owned _)

/-- A registered pool and one that the client created share no frame. -/
private theorem Sound.owner_apart (sound : Sound session) {index number : Nat}
    (here : session.pool? (.registry index) = some pool)
    (there : session.pool? (.dedicated number) = some candidate)
    (owned : base ∈ pool.owners) (claimed : base ∈ candidate.owners) : False := by
  have away :=
    sound.registry.entries.accounts.apart _ (Entries.mem_extents (Option.join_eq_some_iff.mp here) owned _)
    (List.mem_append_left _ (Entries.mem_extents (Option.join_eq_some_iff.mp there) claimed _))
  exact away rfl

theorem Sound.owner_unique (sound : Sound session) (here : session.pool? source = some pool)
    (there : session.pool? other = some candidate) (owned : base ∈ pool.owners)
    (claimed : base ∈ candidate.owners) : source = other := by
  cases source with
  | registry index =>
    cases other with
    | registry index' =>
      exact congrArg Source.registry (sound.registry.entries.owner_unique (Option.join_eq_some_iff.mp here)
        (Option.join_eq_some_iff.mp there) owned claimed)
    | dedicated number => exact (sound.owner_apart here there owned claimed).elim
  | dedicated number =>
    cases other with
    | registry index => exact (sound.owner_apart there here claimed owned).elim
    | dedicated number' =>
      exact congrArg Source.dedicated (sound.pools.owner_unique (Option.join_eq_some_iff.mp here)
        (Option.join_eq_some_iff.mp there) owned claimed)

theorem Sound.pool_of (sound : Sound session) (member : slot ∈ session.slots) :
    ∃ pool, session.pool? slot.source = some pool ∧ slot.addr ∈ pool.live session.memory ∧
      session.slotExtent slot = pool.slot slot.addr := by
  have taken := sound.taken member
  cases here : session.pool? slot.source with
  | none =>
    rw [live_elim, here] at taken
    cases taken
  | some pool =>
    rw [live_eq here] at taken
    exact ⟨pool, rfl, taken, by rw [slotExtent, here]; rfl⟩

/-- The frames and the blocks in the books are all the live blocks, and they share no byte. -/
theorem Sound.spread (sound : Sound session) : Spread (session.frames ++ session.held.map session.blockExtent) :=
  sound.accounts.spread

theorem Sound.block_ne_frame (sound : Sound session) (here : session.pool? source = some pool)
    (owned : base ∈ pool.owners) {block : Extent} (member : block ∈ session.held.map session.blockExtent) :
    block.1 ≠ base := by
  have bases := sound.spread.nodup
  rw [List.map_append] at bases
  intro same
  exact List.disjoint_of_nodup_append bases (List.mem_map_of_mem (mem_frames here owned))
    (List.mem_map.mpr ⟨block, member, same⟩)

theorem Sound.frame_of (sound : Sound session) (member : slot ∈ session.slots) :
    ∃ pool base, session.pool? slot.source = some pool ∧ base ∈ pool.owners ∧
      Extent.Within (session.slotExtent slot) (pool.area base) ∧
      Extent.Within (session.slotExtent slot) (base, pageBytes session.arena.pageSize pool.frameLen) := by
  obtain ⟨pool, here, taken, same⟩ := sound.pool_of member
  obtain ⟨base, owned, inside, within⟩ := (sound.valid_of here).slot_placed sound.accounts.power taken
  exact ⟨pool, base, here, owned, same ▸ inside, same ▸ within⟩

theorem Sound.frames_apart (sound : Sound session) (here : session.pool? source = some pool)
    (there : session.pool? other = some candidate) {base' : Nat} (owned : base ∈ pool.owners)
    (claimed : base' ∈ candidate.owners) (different : base ≠ base') :
    Extent.Apart (base, pageBytes session.arena.pageSize pool.frameLen)
      (base', pageBytes session.arena.pageSize candidate.frameLen) :=
  sound.spread.apart_of_ne (List.mem_append_left _ (mem_frames here owned))
    (List.mem_append_left _ (mem_frames there claimed))
    fun same => different (congrArg Prod.fst same)

end SlabAllocator.Session
