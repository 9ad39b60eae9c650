import SlabAllocator.Proofs.Requests

/-! What a client writes in its own blocks. No two of them share a byte, and none has a byte
that a pool keeps for itself, so nothing else changes. -/

namespace SlabAllocator

variable [Host σ] [LawfulHost σ]

def Arena.written (arena : Arena σ ω) (addr : Nat) (bytes : List UInt8) : Arena σ ω :=
  { arena with machine := { arena.machine with memory := arena.machine.memory.write addr bytes } }

def Arena.Elsewhere (target : Extent) (before after : Arena σ ω) : Prop :=
  ∀ addr count, (∃ block ∈ before.machine.memory.live, Extent.Within (addr, count) block) →
    Extent.Apart (addr, count) target →
    after.machine.memory.read addr count = before.machine.memory.read addr count

omit [Host σ] [LawfulHost σ] in
/-- An edit can only be seen where it was made. -/
theorem Arena.Elsewhere.of_edited {arena : Arena σ ω} {base low high : Nat} {memory : Memory}
    (spread : Spread arena.machine.memory.live)
    (edited : Memory.Edited [base] low high arena.machine.memory memory) {target : Extent}
    (inside : target.1 ≤ base + low ∧ base + high ≤ target.1 + target.2) :
    Elsewhere target arena { arena with machine := { arena.machine with memory } } := by
  rintro addr count ⟨block, member, within⟩ apart
  obtain ⟨content, found, len⟩ := Memory.mem_live.mp member
  unfold Extent.Within Extent.Apart at *
  refine edited.read spread found within.1 (by omega) fun single => ?_
  have := List.mem_singleton.mp single
  omega

namespace Entries

variable {entries : Entries} {pool candidate : Pool} {arena : Arena σ (Books ω)} {locked : List Extent}
  {index other addr target : Nat}

theorem Sound.slot_placed (sound : Sound locked entries arena) (here : entries[index]? = some (some pool))
    (taken : addr ∈ pool.live arena.machine.memory) :
    ∃ block ∈ arena.machine.memory.live, Extent.Within (pool.slot addr) block := by
  obtain ⟨base, member, -, within⟩ := (sound.valid index pool here).slot_placed sound.accounts.power taken
  refine ⟨_, sound.accounts.live.mem_iff.mpr ?_, within⟩
  exact List.mem_append_left _ (List.mem_append_left _ (mem_extents here member arena.pageSize))

theorem Sound.nodup_live (sound : Sound locked entries arena) (index : Nat) :
    (entries.live arena.machine.memory index).Nodup := by
  cases found : entries[index]?.join with
  | none =>
    rw [live, found, Option.elim_none]
    exact .nil
  | some pool =>
    have here := Option.join_eq_some_iff.mp found
    have valid := sound.valid index pool here
    have sized : 0 < pool.entitySize := valid.geometry.sized
    rw [live_eq here]
    refine (List.pairwise_map.mp (valid.slots_apart sound.accounts.power (sound.focus here).spread_extents)).imp
      ?_
    rintro addr other apart rfl
    simp only [Extent.Apart, Pool.slot] at apart
    omega

theorem Sound.slot_apart (sound : Sound locked entries arena) (here : entries[index]? = some (some pool))
    (taken : addr ∈ pool.live arena.machine.memory) (block : Extent)
    (member : block ∈ locked ++ arena.env.held.map (Holding.extent arena.pageSize)) :
    Extent.Apart (pool.slot addr) block :=
  (sound.focus here).slot_apart taken (by rw [List.append_assoc]; exact List.mem_append_right _ member)

theorem Sound.slots_apart (sound : Sound locked entries arena) (here : entries[index]? = some (some pool))
    (taken : addr ∈ pool.live arena.machine.memory) (there : entries[other]? = some (some candidate))
    (taken' : target ∈ candidate.live arena.machine.memory) (different : index = other → addr ≠ target) :
    Extent.Apart (pool.slot addr) (candidate.slot target) := by
  by_cases same : index = other
  · subst same
    rw [here] at there
    cases there
    have apart := (sound.valid index pool here).slots_apart sound.accounts.power (sound.focus here).spread_extents
    exact apart.forall (List.mem_map_of_mem taken) (List.mem_map_of_mem taken') fun equal =>
      different rfl (congrArg Prod.fst equal)
  · obtain ⟨base, member, -, within⟩ :=
      (sound.valid other candidate there).slot_placed sound.accounts.power taken'
    have foreign := mem_without same there member arena.pageSize
    exact ((sound.focus here).slot_apart taken (List.mem_append_left _ (List.mem_append_left _ foreign))).mono
      ⟨Nat.le_refl _, Nat.le_refl _⟩ within

/-- An edit in one block that no pool looks at. -/
theorem Sound.edit (sound : Sound locked entries arena) {later : Arena σ (Books ω)}
    (accounts : Arena.Sound (entries.extents arena.pageSize ++ locked) later)
    (paged : later.pageSize = arena.pageSize) {base low high : Nat}
    (edited : Memory.Edited [base] low high arena.machine.memory later.machine.memory)
    (beyond : ∀ (index : Nat) pool, entries[index]? = some (some pool) → base ∈ pool.owners →
      40 + 8 * pool.geometry.bitmapWords ≤ low) :
    Sound locked entries later ∧ ∀ index,
      entries.live later.machine.memory index = entries.live arena.machine.memory index := by
  have kept : ∀ (index : Nat) pool, entries[index]? = some (some pool) →
      pool.Valid later.machine.memory ∧ pool.live later.machine.memory = pool.live arena.machine.memory :=
    fun index pool here => (sound.valid index pool here).slots edited fun other single owned => by
      rw [List.mem_singleton.mp single] at owned
      exact beyond index pool here owned
  exact ⟨⟨by rw [paged]; exact accounts, fun index pool here => (kept index pool here).1⟩,
    fun index => live_congr fun pool here => (kept index pool here).2⟩

theorem Sound.foreign (sound : Sound locked entries arena) {block : Extent}
    (member : block ∈ locked ++ arena.env.held.map (Holding.extent arena.pageSize)) (low : Nat)
    (index : Nat) (pool : Pool) (here : entries[index]? = some (some pool)) (owned : block.1 ∈ pool.owners) :
    40 + 8 * pool.geometry.bitmapWords ≤ low :=
  have away := sound.accounts.apart _ (mem_extents here owned arena.pageSize) member
  (away rfl).elim

/-- Nor does any pool look into its slots. -/
theorem Sound.slot_edited (sound : Sound locked entries arena) (here : entries[index]? = some (some pool))
    (taken : addr ∈ pool.live arena.machine.memory) (offset : Nat) (bytes : List UInt8)
    (room : offset < pool.entitySize) (short : offset + bytes.length ≤ pool.entitySize) :
    ∃ base : Nat, base ∈ pool.owners ∧ base ≤ addr ∧
      Memory.Edited [base] (addr + offset - base) (addr + offset - base + bytes.length)
        arena.machine.memory (arena.machine.memory.write (addr + offset) bytes) ∧
      (∀ (other : Nat) candidate, entries[other]? = some (some candidate) → base ∈ candidate.owners →
        40 + 8 * candidate.geometry.bitmapWords ≤ addr + offset - base) ∧
      (arena.machine.memory.write (addr + offset) bytes).read (addr + offset) bytes.length = bytes := by
  obtain ⟨base, owned, below, edited, beyond, read⟩ :=
    (sound.valid index pool here).write_slot sound.accounts.machine.spread taken room short
  refine ⟨base, owned, below, edited, fun other candidate there claimed => ?_, read⟩
  obtain rfl := sound.owner_unique here there owned claimed
  rw [here] at there
  cases there
  exact beyond

theorem Sound.write_slot (sound : Sound locked entries arena) (here : entries[index]? = some (some pool))
    (taken : addr ∈ pool.live arena.machine.memory) (offset : Nat) (bytes : List UInt8)
    (room : offset < pool.entitySize) (short : offset + bytes.length ≤ pool.entitySize) :
    Sound locked entries (arena.written (addr + offset) bytes) ∧
      Arena.Steady locked arena (arena.written (addr + offset) bytes) ∧
      (∀ index, entries.live (arena.written (addr + offset) bytes).machine.memory index =
        entries.live arena.machine.memory index) ∧
      Arena.Elsewhere (addr + offset, bytes.length) arena (arena.written (addr + offset) bytes) ∧
      (arena.written (addr + offset) bytes).machine.memory.read (addr + offset) bytes.length = bytes := by
  have spread := sound.accounts.machine.spread
  obtain ⟨base, owned, below, edited, beyond, read⟩ := sound.slot_edited here taken offset bytes room short
  have member := mem_extents here owned arena.pageSize
  obtain ⟨sound', live⟩ := sound.edit (sound.accounts.edit edited) rfl edited beyond
  refine ⟨sound', ?_, live, Arena.Elsewhere.of_edited spread edited ?_, read⟩
  · refine .of_apart (· ∈ [base]) rfl rfl (fun extent inside same => ?_) edited.other
    exact sound.accounts.apart _ member inside (List.mem_singleton.mp same)
  · simp only
    omega

theorem Sound.write_block (sound : Sound locked entries arena) (block : Extent)
    (member : block ∈ locked ++ arena.env.held.map (Holding.extent arena.pageSize)) (offset : Nat)
    (bytes : List UInt8) (room : offset < block.2) (short : offset + bytes.length ≤ block.2) :
    Sound locked entries (arena.written (block.1 + offset) bytes) ∧
      (∀ other, other ≠ block.1 →
        (arena.written (block.1 + offset) bytes).machine.memory.find? other = arena.machine.memory.find? other) ∧
      (∀ index, entries.live (arena.written (block.1 + offset) bytes).machine.memory index =
        entries.live arena.machine.memory index) ∧
      Arena.Elsewhere (block.1 + offset, bytes.length) arena (arena.written (block.1 + offset) bytes) ∧
      (arena.written (block.1 + offset) bytes).machine.memory.read (block.1 + offset) bytes.length = bytes := by
  have spread := sound.accounts.machine.spread
  obtain ⟨content, found, len⟩ :=
    sound.accounts.find (by rw [List.append_assoc]; exact List.mem_append_right _ member)
  have edited := Memory.edited_write spread found (Nat.le_add_right block.1 offset) (by omega) bytes
  obtain ⟨sound', live⟩ := sound.edit (sound.accounts.edit edited) rfl edited (sound.foreign member _)
  refine ⟨sound', fun other different => edited.other other (by simpa using different), live,
    Arena.Elsewhere.of_edited spread edited ?_,
    Memory.read_write spread found (Nat.le_add_right block.1 offset) bytes (by omega)⟩
  simp only
  omega

end Entries
end SlabAllocator
