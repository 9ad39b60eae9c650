import SlabAllocator.Proofs.Layout
import SlabAllocator.Proofs.Operations

/-! A step of a client. It leaves a session in order, and what stays in the client's hands keeps
its bytes unless the client writes there. -/

namespace SlabAllocator

/-- The bytes that an operation writes for the client. -/
def Op.target : Op ω → Option Extent
  | .write addr offset bytes => some (addr + offset, bytes.length)
  | _ => none

namespace Session

variable [Host σ] [LawfulHost σ]
variable {session before after : Session σ ω} {size addr : Nat} {target : Option Extent}

def Unchanged (before after : Session σ ω) (extent : Extent) : Prop :=
  after.memory.read extent.1 extent.2 = before.memory.read extent.1 extent.2

/-- Whatever is in the client's hands before and after keeps its place, and its bytes as well
when it is apart from the target. -/
structure Kept (target : Option Extent) (before after : Session σ ω) : Prop where
  paged : after.arena.pageSize = before.arena.pageSize
  slots : ∀ slot ∈ before.slots, slot ∈ after.slots → after.slotExtent slot = before.slotExtent slot ∧
    ((∀ extent ∈ target, Extent.Apart (before.slotExtent slot) extent) →
      Unchanged before after (before.slotExtent slot))
  blocks : ∀ block ∈ before.held, block ∈ after.held → after.blockExtent block = before.blockExtent block ∧
    ((∀ extent ∈ target, Extent.Apart (before.blockExtent block) extent) →
      Unchanged before after (before.blockExtent block))

omit [Host σ] [LawfulHost σ] in
theorem Kept.weaken (kept : Kept none before after) (target : Option Extent) : Kept target before after :=
  ⟨kept.paged, fun slot member member' => (kept.slots slot member member').imp_right fun same _ => same nofun,
    fun block member member' => (kept.blocks block member member').imp_right fun same _ => same nofun⟩

theorem Changes.kept (changes : Changes before after) (sound : Sound before) (sound' : Sound after) :
    Kept none before after where
  paged := changes.steady.paged
  slots slot member member' := by
    obtain ⟨old, here, taken, same⟩ := sound.pool_of member
    obtain ⟨new, here', taken', same'⟩ := sound'.pool_of member'
    obtain ⟨width, read⟩ :=
      changes.slots slot.source old new slot.addr here here' (by rw [live_eq here]; exact taken)
      (by rw [live_eq here']; exact taken')
    rw [same, same', Pool.slot, Pool.slot, width]
    exact ⟨rfl, fun _ => read old.entitySize (Nat.le_refl _)⟩
  blocks block member member' := by
    obtain ⟨-, same⟩ := changes.steady.held block member' (sound.accounts.issued block member)
    have paged : after.arena.pageSize = before.arena.pageSize := changes.steady.paged
    refine ⟨by rw [blockExtent, blockExtent, paged], fun _ => ?_⟩
    exact sound.accounts.read sound'.accounts (before.blockExtent block)
      (List.mem_append_right _ (List.mem_map_of_mem member)) same
      ⟨Nat.le_refl _, Nat.le_refl _⟩

/-- When nothing moves, only bytes can change. -/
private theorem Sound.kept_in_place (sound : Sound session) {arena : Arena σ (Books ω)}
    (paged : arena.pageSize = session.arena.pageSize)
    (reads : ∀ addr count, (∃ block ∈ session.memory.live, Extent.Within (addr, count) block) →
      (∀ extent ∈ target, Extent.Apart (addr, count) extent) →
      arena.machine.memory.read addr count = session.memory.read addr count) :
    Kept target session { session with allocator := { session.allocator with arena } } where
  paged := paged
  slots slot member _ := by
    obtain ⟨pool, base, here, owned, -, within⟩ := sound.frame_of member
    have live := sound.accounts.live.mem_iff.mpr (List.mem_append_left _ (mem_frames here owned))
    exact ⟨rfl, reads _ _ ⟨_, live, within⟩⟩
  blocks block member _ := by
    have live := sound.accounts.live.mem_iff.mpr (List.mem_append_right _ (List.mem_map_of_mem member))
    have same : blockExtent { session with allocator := { session.allocator with arena } } block =
      session.blockExtent block := by
      rw [blockExtent, blockExtent,
        show Session.arena { session with allocator := { session.allocator with arena } } = arena from rfl, paged]
    exact ⟨same, reads _ _ ⟨_, live, Nat.le_refl _, Nat.le_refl _⟩⟩

/-- An edit that no pool sees keeps a session in order. -/
private theorem Sound.edit (sound : Sound session) {arena : Arena σ (Books ω)}
    (accounts : Arena.Sound session.frames arena) (paged : arena.pageSize = session.arena.pageSize)
    {base low high : Nat} (edited : Memory.Edited [base] low high session.memory arena.machine.memory)
    (beyond : ∀ source pool, session.pool? source = some pool → base ∈ pool.owners →
      40 + 8 * pool.geometry.bitmapWords ≤ low) :
    Sound { session with allocator := { session.allocator with arena } } := by
  obtain ⟨entries, live⟩ := sound.registry.entries.edit accounts paged edited fun index pool here =>
    beyond (.registry index) pool (Option.join_eq_some_iff.mpr here)
  obtain ⟨aside, live'⟩ :=
    sound.pools.edit (accounts.perm List.perm_append_comm) paged edited fun number pool here =>
    beyond (.dedicated number) pool (Option.join_eq_some_iff.mpr here)
  refine ⟨?_, aside.valid, fun source => ?_⟩
  · change Allocator.Sound (Entries.extents arena.pageSize session.dedicated) _
    rw [paged]
    exact { sound.registry with entries }
  · cases source with
    | registry index => exact (List.Perm.of_eq (live index)).trans (sound.ledger (.registry index))
    | dedicated number => exact (List.Perm.of_eq (live' number)).trans (sound.ledger (.dedicated number))

omit [LawfulHost σ] [Host σ] in
private theorem mem_held {block : Holding} (found : session.arena.env.find? size addr = some block) :
    (addr, pageBytes session.arena.pageSize size) ∈ session.held.map session.blockExtent := by
  have matched := List.find?_some found
  simp only [Bool.and_eq_true, beq_iff_eq] at matched
  obtain ⟨rfl, rfl⟩ := matched
  exact List.mem_map_of_mem (List.mem_of_find?_eq_some found)

/-- A change of protection is no edit of a frame. -/
theorem Sound.guard_edits (sound : Sound session) {block : Holding}
    (found : session.arena.env.find? size addr = some block) (mode : Protection) :
    (Arena.protect size addr mode).Ends session.arena fun _ arena => arena.pageSize = session.arena.pageSize ∧
      Arena.Sound session.frames arena ∧ Memory.Edited [addr] 0 0 session.memory arena.machine.memory ∧
      ∀ source pool, session.pool? source = some pool → addr ∈ pool.owners →
        40 + 8 * pool.geometry.bitmapWords ≤ 0 := by
  have member := mem_held found
  refine (sound.accounts.protect_spec mode (List.mem_append_right _ member)).imp ?_
  rintro _ arena ⟨_, paged, accounts, edited⟩
  exact ⟨paged, accounts, edited, fun source pool here owned => (sound.block_ne_frame here owned member rfl).elim⟩

private theorem Sound.guard_spec (sound : Sound session) {block : Holding}
    (found : session.arena.env.find? size addr = some block) (mode : Protection) :
    (Arena.protect size addr mode).Ends session.arena fun _ arena =>
      Sound { session with allocator := { session.allocator with arena } } ∧
        Kept none session { session with allocator := { session.allocator with arena } } := by
  refine (sound.guard_edits found mode).imp ?_
  rintro _ arena ⟨paged, accounts, edited, beyond⟩
  refine ⟨sound.edit accounts paged edited beyond, sound.kept_in_place paged ?_⟩
  rintro addr count ⟨block, live, within⟩ -
  obtain ⟨content, there, len⟩ := Memory.mem_live.mp live
  unfold Extent.Within at within
  exact edited.read sound.accounts.machine.spread there within.1 (by rw [len]; exact within.2)
    fun _ => .inr (Nat.zero_le _)

abbrev Steps (target : Option Extent) (run : Run (Session σ ω) α) (session : Session σ ω) : Prop :=
  run.Meets session
    (fun _ after => Sound after ∧ Kept target session after ∧ after.allocator.policy = session.allocator.policy)
    (Halted session)

theorem Sound.protectBlock_spec (sound : Sound session) (size addr : Nat) (mode : Protection) :
    Steps none (protectBlock size addr mode) session := by
  simp only [Steps, protectBlock, Run.meets_bind, Run.meets_get]
  cases found : session.arena.env.find? size addr with
  | none =>
    simp only [Option.isSome_none, Bool.false_eq_true, if_false, Run.meets_pure]
    exact ⟨sound, sound.idle.2.kept sound sound, trivial⟩
  | some block =>
    simp only [Option.isSome_some, if_true, onArena, onAllocator, Allocator.onArena, Run.meets_focus]
    exact Run.Ends.imp (sound.guard_spec found mode) fun _ arena kept => ⟨kept.1, kept.2, trivial⟩

theorem Sound.protect_spec (sound : Sound session) (size addr : Nat) (mode : Protection) :
    Steps none (protect size addr mode) session := by
  simp only [Steps, protect, Run.meets_bind, Run.meets_get, Run.meets_lift (route_eq sound.registry size)]
  split
  next permitted =>
    simp only [Bool.and_eq_true, Option.isNone_iff_eq_none, Option.isSome_iff_exists] at permitted
    obtain ⟨kind, block, found⟩ := permitted
    have routed := Allocator.sizeClass_arena (Size.pos_of_isPowerOfTwo sound.accounts.power) kind
    simp only [onAllocator, Allocator.protect, Allocator.onArena, Run.meets_focus, Run.meets_bind, Run.meets_get,
      Run.meets_lift routed]
    exact Run.Ends.imp (sound.guard_spec found mode) fun _ arena kept => ⟨kept.1, kept.2, trivial⟩
  next =>
    simp only [Run.meets_pure]
    exact ⟨sound, sound.idle.2.kept sound sound, trivial⟩

/-- What a client may write in shows in no bitmap. -/
theorem Sound.write_edits (sound : Sound session) {extent : Extent}
    (member : extent ∈ session.handedOut) {offset : Nat} {bytes : List UInt8} (room : offset < extent.2)
    (short : offset + bytes.length ≤ extent.2) :
    ∃ base low : Nat, base + low = extent.1 + offset ∧
      Memory.Edited [base] low (low + bytes.length) session.memory
        (session.memory.write (extent.1 + offset) bytes) ∧
      ∀ source pool, session.pool? source = some pool → base ∈ pool.owners →
        40 + 8 * pool.geometry.bitmapWords ≤ low := by
  rcases List.mem_append.mp member with fromSlot | fromBlock
  · obtain ⟨slot, inHand, rfl⟩ := List.mem_map.mp fromSlot
    obtain ⟨pool, here, taken, same⟩ := sound.pool_of inHand
    rw [same] at room short ⊢
    obtain ⟨base, owned, below, edited, beyond, -⟩ :=
      (sound.valid_of here).write_slot sound.accounts.machine.spread taken room short
    refine ⟨base, _, ?_, edited, fun source candidate there claimed => ?_⟩
    · simp only [Pool.slot]
      omega
    · cases sound.owner_unique here there owned claimed
      rw [here] at there
      cases there
      exact beyond
  · obtain ⟨content, found, len⟩ := sound.accounts.find (List.mem_append_right _ fromBlock)
    have edited :=
      Memory.edited_write sound.accounts.machine.spread found (Nat.le_add_right extent.1 offset) (by omega) bytes
    refine ⟨extent.1, _, by omega, edited, fun source pool here owned => ?_⟩
    exact (sound.block_ne_frame here owned fromBlock rfl).elim

theorem Sound.write_spec (sound : Sound session) (addr offset : Nat) (bytes : List UInt8) :
    Steps (some (addr + offset, bytes.length)) (write addr offset bytes) session := by
  simp only [Steps, write, Run.meets_bind, Run.meets_get]
  split
  next permitted =>
    simp only [onArena, onAllocator, Allocator.onArena, Arena.setMemory, Arena.onMachine, Machine.setMemory,
      Run.meets_focus, Run.meets_modify]
    obtain ⟨extent, member, inside⟩ := List.any_eq_true.mp permitted
    simp only [Bool.and_eq_true, beq_iff_eq, decide_eq_true_eq] at inside
    obtain ⟨⟨rfl, room⟩, short⟩ := inside
    obtain ⟨base, low, place, edited, beyond⟩ := sound.write_edits member room short
    have elsewhere : Arena.Elsewhere (extent.1 + offset, bytes.length) session.arena
        (session.arena.written (extent.1 + offset) bytes) :=
      Arena.Elsewhere.of_edited sound.accounts.machine.spread edited (by simp only; omega)
    refine ⟨sound.edit (sound.accounts.edit edited) rfl edited beyond, sound.kept_in_place rfl ?_, trivial⟩
    exact fun addr count within apart => elsewhere addr count within (apart _ rfl)
  next =>
    simp only [Run.meets_pure]
    exact ⟨sound, (sound.idle.2.kept sound sound).weaken _, trivial⟩

theorem Settles.step {run : Run (Session σ ω) α} (settles : Settles run session) (sound : Sound session) :
    Steps none run session :=
  settles.imp fun _ _ settled => ⟨settled.1, settled.2.kept sound settled.1, settled.2.policy⟩

theorem Sound.step_spec (sound : Sound session) (op : Op ω) : Steps op.target (step op) session := by
  cases op with
  | alloc size =>
    simp only [step, Run.meets_bind, Run.meets_pure]
    exact (sound.alloc_spec size).step sound
  | free size addr => exact (sound.free_spec size addr).step sound
  | realloc size addr newSize =>
    simp only [step, Run.meets_bind, Run.meets_pure]
    exact Settles.step ((sound.realloc_spec size addr newSize).imp fun _ after moved => moved.1) sound
  | releaseSlot addr => exact (sound.releaseSlot_spec addr).step sound
  | protect size addr mode => exact sound.protect_spec size addr mode
  | compactAll =>
    simp only [step, Run.meets_bind, Run.meets_pure]
    exact sound.compactAll_spec.step sound
  | createPool entitySize => exact (sound.createPool_spec entitySize).step sound
  | poolAcquire number => exact (sound.poolAcquire_spec number).step sound
  | poolRelease number addr => exact (sound.poolRelease_spec number addr).step sound
  | compactPool number => exact (sound.compactPool_spec number).step sound
  | destroyPool number => exact (sound.destroyPool_spec number).step sound
  | acquire size =>
    simp only [step, Run.meets_bind, Run.meets_pure]
    exact (sound.acquire_spec size).step sound
  | resize size addr newSize =>
    simp only [step, Run.meets_bind, Run.meets_pure]
    exact Settles.step ((sound.resize_spec size addr newSize).imp fun _ after moved => moved.1) sound
  | release size addr => exact (sound.release_spec size addr).step sound
  | protectBlock size addr mode => exact sound.protectBlock_spec size addr mode
  | setHook programs => exact (sound.setHook_spec programs).step sound
  | write addr offset bytes => exact sound.write_spec addr offset bytes
  | change f => exact (sound.change_spec f).step sound
  | teardown => exact sound.teardown_spec.step sound

end Session
end SlabAllocator
