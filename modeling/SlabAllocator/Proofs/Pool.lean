import SlabAllocator.Pool.Basic
import SlabAllocator.Proofs.Chain
import SlabAllocator.Proofs.Escalation
import SlabAllocator.Proofs.Frame
import SlabAllocator.Proofs.Owners
import SlabAllocator.Proofs.Stock

/-! A pool whose chain, owners and bitmaps tell the same story. Its frames are locked blocks
of the arena, and the slots handed out are the set bits of their bitmaps. -/

namespace SlabAllocator.Pool

def extents (pageSize : Nat) (pool : Pool) : List Extent :=
  pool.owners.map fun base => (base, pageBytes pageSize pool.frameLen)

/-- The same blocks in the order of the chain. -/
def chained (pageSize : Nat) (pool : Pool) (memory : Memory) : List Extent :=
  ((pool.frames.nodes memory).toOption.getD []).map fun base => (base, pageBytes pageSize pool.frameLen)

def slotsAt (geometry : Geometry) (memory : Memory) (base : Nat) : List Nat :=
  (Frame.taken geometry (memory.block base)).map fun index => base + geometry.start index

def live (pool : Pool) (memory : Memory) : List Nat :=
  pool.owners.flatMap (slotsAt pool.geometry memory)

def shelf (geometry : Geometry) (memory : Memory) (base : Nat) : Shelf :=
  ⟨base, (Frame.taken geometry (memory.block base)).toFinset⟩

/-- A pool without its memory. -/
def stock (pool : Pool) (memory : Memory) : Stock :=
  ⟨((pool.frames.nodes memory).toOption.getD []).map (shelf pool.geometry memory), pool.releases⟩

structure Valid (pool : Pool) (memory : Memory) : Prop where
  geometry : pool.geometry.Sound
  lists : ∃ nodes, pool.frames.Lists memory nodes ∧ nodes.Perm pool.owners
  sorted : Owners.Sorted pool.owners
  frames : ∀ base ∈ pool.owners, ∃ block, memory.find? base = some block ∧ Frame.Valid pool.geometry block
  cadence : pool.releases < pool.interval ∧ pool.interval < Size.bound

def Kept (before after : Pool × Memory) : Prop :=
  ∀ base ∈ after.1.owners, base ∈ before.1.owners → ∃ block changed, before.2.find? base = some block ∧
    after.2.find? base = some changed ∧ Block.Beside 0 (40 + 8 * before.1.geometry.bitmapWords) block changed

def Untouched (before after : Pool × Memory) : Prop :=
  after.1 = before.1 ∧ ∀ base ∈ before.1.owners, after.2.find? base = before.2.find? base

def Relinked (before after : Pool × Memory) : Prop :=
  ∀ base ∈ after.1.owners, ∃ block changed, before.2.find? base = some block ∧ after.2.find? base = some changed ∧
    Block.Beside 0 16 block changed

variable {pool : Pool} {memory changed : Memory} {base addr index : Nat} {block frame : Block}

theorem mem_slotsAt {geometry : Geometry} :
    addr ∈ slotsAt geometry memory base ↔
      ∃ index ∈ Frame.taken geometry (memory.block base), addr = base + geometry.start index := by
  simp only [slotsAt, List.mem_map, eq_comm]

theorem mem_live :
    addr ∈ pool.live memory ↔ ∃ base ∈ pool.owners, ∃ index ∈ Frame.taken pool.geometry (memory.block base),
      addr = base + pool.geometry.start index := by
  simp only [live, List.mem_flatMap, mem_slotsAt]

theorem mem_extents {pageSize : Nat} (member : base ∈ pool.owners) :
    (base, pageBytes pageSize pool.frameLen) ∈ pool.extents pageSize :=
  List.mem_map_of_mem member

theorem live_split (memory : Memory) (member : base ∈ pool.owners) :
    (pool.live memory).Perm (slotsAt pool.geometry memory base ++
      (pool.owners.erase base).flatMap (slotsAt pool.geometry memory)) := by
  have split := (List.perm_cons_erase member).flatMap_right (slotsAt pool.geometry memory)
  rwa [List.flatMap_cons] at split

theorem slotsAt_congr {geometry : Geometry}
    (same : Frame.bitmap geometry (changed.block base) = Frame.bitmap geometry (memory.block base)) :
    slotsAt geometry changed base = slotsAt geometry memory base := by
  rw [slotsAt, slotsAt, Frame.taken_eq same]

private theorem bitmap_edited {geometry : Geometry} {bases : List Nat} {low high : Nat}
    (edited : Memory.Edited bases low high memory changed)
    (outside : high ≤ 40 ∨ 40 + 8 * geometry.bitmapWords ≤ low) (base : Nat) :
    Frame.bitmap geometry (changed.block base) = Frame.bitmap geometry (memory.block base) :=
  Frame.bitmap_eq (edited.block base) outside

theorem slotsAt_edited {geometry : Geometry} {bases : List Nat} {low high : Nat}
    (edited : Memory.Edited bases low high memory changed)
    (outside : high ≤ 40 ∨ 40 + 8 * geometry.bitmapWords ≤ low) (base : Nat) :
    slotsAt geometry changed base = slotsAt geometry memory base :=
  slotsAt_congr (bitmap_edited edited outside base)

theorem shelf_congr {geometry : Geometry}
    (same : Frame.bitmap geometry (changed.block base) = Frame.bitmap geometry (memory.block base)) :
    shelf geometry changed base = shelf geometry memory base := by
  rw [shelf, shelf, Frame.taken_eq same]

theorem shelf_edited {geometry : Geometry} {bases : List Nat} {low high : Nat}
    (edited : Memory.Edited bases low high memory changed)
    (outside : high ≤ 40 ∨ 40 + 8 * geometry.bitmapWords ≤ low) (base : Nat) :
    shelf geometry changed base = shelf geometry memory base :=
  shelf_congr (bitmap_edited edited outside base)

theorem shelf_update_of_ne {geometry : Geometry} {other : Nat} (change : Block → Block)
    (different : base ≠ other) :
    shelf geometry (memory.update base change) other = shelf geometry memory other :=
  shelf_congr (by rw [Memory.block_update_of_ne _ different])

theorem shelves_eq {nodes : List Nat} (lists : pool.frames.Lists memory nodes) :
    (pool.stock memory).shelves = nodes.map (shelf pool.geometry memory) := by
  rw [stock, lists.nodes_ok]
  rfl

theorem chained_eq {nodes : List Nat} (lists : pool.frames.Lists memory nodes) (pageSize : Nat) :
    pool.chained pageSize memory = nodes.map fun base => (base, pageBytes pageSize pool.frameLen) := by
  rw [chained, lists.nodes_ok]
  rfl

theorem bases_eq {nodes : List Nat} (lists : pool.frames.Lists memory nodes) :
    (pool.stock memory).shelves.map Shelf.base = nodes := by
  rw [shelves_eq lists, List.map_map]
  exact List.map_id nodes

namespace Relinked

variable {before middle after : Pool × Memory}

theorem trans (first : Relinked before middle) (second : Relinked middle after)
    (fewer : ∀ base ∈ after.1.owners, base ∈ middle.1.owners) : Relinked before after := by
  intro base last
  obtain ⟨block, between, found, found', beside⟩ := first base (fewer base last)
  obtain ⟨_, final, again, found'', beside'⟩ := second base last
  rw [found'] at again
  cases again
  exact ⟨block, final, found, found'', beside.trans beside'⟩

theorem bitmap_eq (links : Relinked before after) (member : base ∈ after.1.owners) (geometry : Geometry) :
    Frame.bitmap geometry (after.2.block base) = Frame.bitmap geometry (before.2.block base) := by
  obtain ⟨block, changed, found, found', beside⟩ := links base member
  rw [Memory.block_eq found, Memory.block_eq found']
  exact Frame.bitmap_eq beside (.inl (by decide))

theorem occupied_eq (links : Relinked before after) (member : base ∈ after.1.owners) :
    Frame.occupied (after.2.block base) = Frame.occupied (before.2.block base) := by
  obtain ⟨block, changed, found, found', beside⟩ := links base member
  rw [Memory.block_eq found, Memory.block_eq found', Frame.occupied, Frame.occupied, Node.payload, Node.payload,
    beside.word (.inr (by decide))]

end Relinked

theorem frame_edited {geometry : Geometry} {bases : List Nat} {low high : Nat}
    (edited : Memory.Edited bases low high memory changed)
    (outside : high ≤ 16 ∨ 40 + 8 * geometry.bitmapWords ≤ low)
    (frame : ∃ block, memory.find? base = some block ∧ Frame.Valid geometry block) :
    ∃ block, changed.find? base = some block ∧ Frame.Valid geometry block := by
  obtain ⟨block, found, valid⟩ := frame
  obtain ⟨after, found', beside⟩ := edited.kept found
  exact ⟨after, found', valid.beside beside outside⟩

theorem flatMap_congr {bases : List Nat} {f g : Nat → List Nat} (same : ∀ base ∈ bases, f base = g base) :
    bases.flatMap f = bases.flatMap g := by
  rw [List.flatMap_def, List.flatMap_def, List.map_congr_left same]

theorem live_congr
    (same : ∀ base ∈ pool.owners,
      Frame.bitmap pool.geometry (changed.block base) = Frame.bitmap pool.geometry (memory.block base)) :
    pool.live changed = pool.live memory :=
  flatMap_congr fun base member => slotsAt_congr (same base member)

namespace Valid

theorem nodup (valid : pool.Valid memory) : pool.owners.Nodup :=
  valid.sorted.nodup

/-- Only the frames matter. -/
theorem congr (valid : pool.Valid memory)
    (same : ∀ base ∈ pool.owners, changed.find? base = memory.find? base) :
    pool.Valid changed ∧ pool.live changed = pool.live memory := by
  obtain ⟨nodes, lists, order⟩ := valid.lists
  refine ⟨{ valid with
    lists := ⟨nodes, lists.congr fun node member => same node (order.mem_iff.mp member), order⟩
    frames := fun base member => ?_ }, live_congr fun base member => ?_⟩
  · obtain ⟨block, found, frame⟩ := valid.frames base member
    exact ⟨block, (same base member).trans found, frame⟩
  · rw [Memory.block_congr (same base member)]

theorem stock_congr (valid : pool.Valid memory)
    (same : ∀ base ∈ pool.owners, changed.find? base = memory.find? base) :
    pool.stock changed = pool.stock memory := by
  obtain ⟨nodes, lists, order⟩ := valid.lists
  have kept : ∀ base ∈ nodes, changed.find? base = memory.find? base := fun base member =>
    same base (order.mem_iff.mp member)
  refine congrArg (Stock.mk · pool.releases)
    ((shelves_eq (lists.congr kept)).trans (.trans ?_ (shelves_eq lists).symm))
  exact List.map_congr_left fun base member => shelf_congr (by rw [Memory.block_congr (kept base member)])

theorem chained_perm (valid : pool.Valid memory) (pageSize : Nat) :
    (pool.chained pageSize memory).Perm (pool.extents pageSize) := by
  obtain ⟨nodes, lists, order⟩ := valid.lists
  rw [chained_eq lists]
  exact order.map _

theorem chained_congr (valid : pool.Valid memory)
    (same : ∀ base ∈ pool.owners, changed.find? base = memory.find? base)
    (pageSize : Nat) : pool.chained pageSize changed = pool.chained pageSize memory := by
  obtain ⟨nodes, lists, order⟩ := valid.lists
  rw [chained_eq lists, chained_eq (lists.congr fun base member => same base (order.mem_iff.mp member))]

theorem nodes_eq (valid : pool.Valid memory) :
    pool.frames.nodes memory = .ok ((pool.stock memory).shelves.map Shelf.base) := by
  obtain ⟨nodes, lists, -⟩ := valid.lists
  rw [bases_eq lists, lists.nodes_ok]

theorem length_shelves (valid : pool.Valid memory) : (pool.stock memory).shelves.length = pool.owners.length := by
  obtain ⟨nodes, lists, order⟩ := valid.lists
  rw [shelves_eq lists, List.length_map, order.length_eq]

theorem mem_shelves (valid : pool.Valid memory) {other : Shelf} (member : other ∈ (pool.stock memory).shelves) :
    other.base ∈ pool.owners ∧ other = shelf pool.geometry memory other.base := by
  obtain ⟨nodes, lists, order⟩ := valid.lists
  rw [shelves_eq lists] at member
  obtain ⟨base, listed, rfl⟩ := List.mem_map.mp member
  exact ⟨order.mem_iff.mp listed, rfl⟩

theorem mem_bases (valid : pool.Valid memory) : base ∈ (pool.stock memory).shelves.map Shelf.base ↔
    base ∈ pool.owners := by
  obtain ⟨nodes, lists, order⟩ := valid.lists
  rw [bases_eq lists, order.mem_iff]

theorem holds_iff (valid : pool.Valid memory) : (pool.stock memory).Holds pool.geometry addr ↔
    addr ∈ pool.live memory := by
  rw [mem_live]
  constructor
  · rintro ⟨other, member, index, used, same⟩
    obtain ⟨owned, shape⟩ := valid.mem_shelves member
    rw [shape] at used
    exact ⟨other.base, owned, index, List.mem_toFinset.mp used, same⟩
  · rintro ⟨base, owned, index, used, same⟩
    obtain ⟨other, member, rfl⟩ := List.mem_map.mp (valid.mem_bases.mpr owned)
    rw [(valid.mem_shelves member).2, shelf] at member
    exact ⟨_, member, index, List.mem_toFinset.mpr used, same⟩

theorem frameCount_eq (valid : pool.Valid memory) : pool.frameCount = (pool.stock memory).shelves.length := by
  obtain ⟨nodes, lists, -⟩ := valid.lists
  rw [frameCount, lists.length, shelves_eq lists, List.length_map]

/-- Slots can be written freely. -/
theorem slots (valid : pool.Valid memory) {bases : List Nat} {low high : Nat}
    (edited : Memory.Edited bases low high memory changed)
    (beyond : ∀ base ∈ bases, base ∈ pool.owners → 40 + 8 * pool.geometry.bitmapWords ≤ low) :
    pool.Valid changed ∧ pool.live changed = pool.live memory := by
  by_cases owned : ∃ base ∈ bases, base ∈ pool.owners
  case neg =>
    exact valid.congr fun base member => edited.other base fun inside => owned ⟨base, inside, member⟩
  obtain ⟨base, inside, mine⟩ := owned
  have low_le := beyond base inside mine
  obtain ⟨nodes, lists, order⟩ := valid.lists
  refine ⟨{ valid with
    lists := ⟨nodes, lists.beside (by omega) edited, order⟩
    frames := fun base member => frame_edited edited (.inr low_le) (valid.frames base member) }, ?_⟩
  exact flatMap_congr fun base _ => slotsAt_edited edited (.inr low_le) base

theorem stock_slots (valid : pool.Valid memory) {bases : List Nat} {low high : Nat}
    (edited : Memory.Edited bases low high memory changed)
    (beyond : ∀ base ∈ bases, base ∈ pool.owners → 40 + 8 * pool.geometry.bitmapWords ≤ low) :
    pool.stock changed = pool.stock memory := by
  by_cases owned : ∃ base ∈ bases, base ∈ pool.owners
  case neg =>
    exact valid.stock_congr fun base member => edited.other base fun inside => owned ⟨base, inside, member⟩
  obtain ⟨base, inside, mine⟩ := owned
  have low_le := beyond base inside mine
  obtain ⟨nodes, lists, -⟩ := valid.lists
  refine congrArg (Stock.mk · pool.releases)
    ((shelves_eq (lists.beside (by omega) edited)).trans (.trans ?_ (shelves_eq lists).symm))
  exact List.map_congr_left fun base _ => shelf_edited edited (.inr low_le) base

theorem mark (valid : pool.Valid memory) (found : memory.find? base = some block)
    (frame' : Frame.Valid pool.geometry frame)
    (beside : Block.Beside 32 (40 + 8 * pool.geometry.bitmapWords) block frame) :
    pool.Valid (memory.update base fun _ => frame) ∧
      Memory.Edited [base] 32 (40 + 8 * pool.geometry.bitmapWords) memory
        (memory.update base fun _ => frame) := by
  have edited : Memory.Edited [base] 32 (40 + 8 * pool.geometry.bitmapWords) memory
      (memory.update base fun _ => frame) :=
    .update found beside
  obtain ⟨nodes, lists, order⟩ := valid.lists
  refine ⟨{ valid with
    lists := ⟨nodes, lists.beside (by decide) edited, order⟩
    frames := fun other inside => ?_ }, edited⟩
  by_cases same : base = other
  · subst same
    exact ⟨frame, Memory.find?_update_self _ found, frame'⟩
  · obtain ⟨block, there, valid'⟩ := valid.frames other inside
    exact ⟨block, (Memory.find?_update_of_ne _ same).trans there, valid'⟩

theorem shelves_mark (valid : pool.Valid memory) (found : memory.find? base = some block)
    (beside : Block.Beside 32 (40 + 8 * pool.geometry.bitmapWords) block frame) :
    (pool.stock (memory.update base fun _ => frame)).shelves = (pool.stock memory).shelves.map fun other =>
      if other.base = base then shelf pool.geometry (memory.update base fun _ => frame) base else other := by
  obtain ⟨nodes, lists, -⟩ := valid.lists
  rw [shelves_eq (lists.beside (by decide) (.update found beside)), shelves_eq lists, List.map_map]
  refine List.map_congr_left fun other _ => ?_
  by_cases same : other = base
  · subst same
    exact (if_pos rfl).symm
  · rw [shelf_update_of_ne _ (Ne.symm same)]
    exact (if_neg same).symm

theorem live_mark (valid : pool.Valid memory) (member : base ∈ pool.owners) (frame : Block)
    (found : memory.find? base = some block) :
    ∃ rest, (pool.live memory).Perm
      ((Frame.taken pool.geometry block).map (base + pool.geometry.start ·) ++ rest) ∧
      (pool.live (memory.update base fun _ => frame)).Perm
        ((Frame.taken pool.geometry frame).map (base + pool.geometry.start ·) ++ rest) := by
  refine ⟨(pool.owners.erase base).flatMap (slotsAt pool.geometry memory), ?_, ?_⟩
  · have split := live_split memory member
    rwa [slotsAt, Memory.block_eq found] at split
  · have split := live_split (memory.update base fun _ => frame) member
    rw [slotsAt, Memory.block_update_self _ found] at split
    have others : (pool.owners.erase base).flatMap (slotsAt pool.geometry (memory.update base fun _ => frame)) =
        (pool.owners.erase base).flatMap (slotsAt pool.geometry memory) :=
      flatMap_congr fun other inside => slotsAt_congr (by
        rw [Memory.block_update_of_ne _ fun same => (valid.nodup.mem_erase_iff.mp inside).1 same.symm])
    rwa [others] at split

end Valid

def view (state : Pool × Arena σ ω) : Stock :=
  state.1.stock state.2.machine.memory

section Actions

variable [Host σ] [LawfulHost σ]
variable {arena : Arena σ (Books ω)} {locked : List Extent} {before middle after : Pool × Arena σ (Books ω)}

/-- A pool in an arena where its frames are locked. -/
structure Sound (locked : List Extent) (pool : Pool) (arena : Arena σ (Books ω)) : Prop where
  accounts : Arena.Sound (pool.extents arena.pageSize ++ locked) arena
  valid : pool.Valid arena.machine.memory

/-- What no action changes. Frames either come or go, never both. -/
structure Changes (locked : List Extent) (before after : Pool × Arena σ (Books ω)) : Prop where
  geometry : after.1.geometry = before.1.geometry
  interval : after.1.interval = before.1.interval
  steady : Arena.Steady locked before.2 after.2
  errands : after.2.env.errands = before.2.env.errands
  kept : Kept (before.1, before.2.machine.memory) (after.1, after.2.machine.memory)
  oneWay : (∀ base ∈ after.1.owners, base ∈ before.1.owners) ∨ (∀ base ∈ before.1.owners, base ∈ after.1.owners)

/-- An action stops only while hooks run, before it has changed the pool. -/
def Halted (locked : List Extent) (before : Pool × Arena σ (Books ω)) (fault : Fault)
    (after : Pool × Arena σ (Books ω)) : Prop :=
  after.1 = before.1 ∧ Arena.Stopped (before.1.extents before.2.pageSize ++ locked) before.2 fault after.2

omit [Host σ] [LawfulHost σ] in
theorem Changes.trans (first : Changes locked before middle) (second : Changes locked middle after)
    (through : ∀ base ∈ after.1.owners, base ∈ before.1.owners → base ∈ middle.1.owners)
    (oneWay : (∀ base ∈ after.1.owners, base ∈ before.1.owners) ∨
      (∀ base ∈ before.1.owners, base ∈ after.1.owners)) :
    Changes locked before after where
  geometry := second.geometry.trans first.geometry
  interval := second.interval.trans first.interval
  steady := first.steady.trans second.steady
  errands := second.errands.trans first.errands
  kept := fun base last old => by
    obtain ⟨block, between, found, found', beside⟩ := first.kept base (through base last old) old
    obtain ⟨_, final, again, found'', beside'⟩ := second.kept base last (through base last old)
    rw [found'] at again
    cases again
    rw [first.geometry] at beside'
    exact ⟨block, final, found, found'', beside.trans beside'⟩
  oneWay := oneWay

theorem Sound.spread (sound : Sound locked pool arena) : Spread arena.machine.memory.live :=
  sound.accounts.machine.spread

theorem Sound.length_owners_lt (sound : Sound locked pool arena) : pool.owners.length < Size.bound := by
  have few := sound.accounts.spread.length_lt
  simp only [extents, List.length_append, List.length_map] at few
  omega

theorem Changes.refl (sound : Sound locked pool arena) : Changes locked (pool, arena) (pool, arena) := by
  refine ⟨rfl, rfl, .refl locked arena, rfl, fun base member _ => ?_, .inl fun _ => id⟩
  obtain ⟨block, found, -⟩ := sound.valid.frames base member
  exact ⟨block, block, found, found, .refl _ _ block⟩

theorem Sound.still (sound : Sound locked pool arena) {later : Arena σ (Books ω)}
    (kept : Arena.Sound (pool.extents arena.pageSize ++ locked) later)
    (steady : Arena.Steady (pool.extents arena.pageSize ++ locked) arena later)
    (errands : later.env.errands = arena.env.errands) :
    Sound locked pool later ∧ Changes locked (pool, arena) (pool, later) ∧
      pool.live later.machine.memory = pool.live arena.machine.memory := by
  have same : ∀ base ∈ pool.owners, later.machine.memory.find? base = arena.machine.memory.find? base :=
    fun base member => steady.locked _ (List.mem_append_left _ (mem_extents member))
  obtain ⟨valid, live⟩ := sound.valid.congr same
  refine ⟨⟨by rw [steady.paged]; exact kept, valid⟩, ?_, live⟩
  refine ⟨rfl, rfl, steady.mono fun _ => List.mem_append_right _, errands, fun base member _ => ?_,
    .inl fun _ => id⟩
  obtain ⟨block, found, -⟩ := sound.valid.frames base member
  exact ⟨block, block, found, (same base member).trans found, .refl _ _ block⟩

/-- An edit of frames is out of everybody else's sight. -/
theorem Sound.edit_steady (sound : Sound locked pool arena) {bases : List Nat}
    (owned : ∀ base ∈ bases, base ∈ pool.owners) {low high : Nat}
    (edited : Memory.Edited bases low high arena.machine.memory changed) :
    Arena.Steady locked arena { arena with machine := { arena.machine with memory := changed } } := by
  refine .of_apart (· ∈ bases) rfl rfl (fun extent inside touched => ?_) edited.other
  exact sound.accounts.apart _ (mem_extents (owned _ touched)) inside rfl

theorem Sound.mark (sound : Sound locked pool arena) (member : base ∈ pool.owners)
    (found : arena.machine.memory.find? base = some block) (frame' : Frame.Valid pool.geometry frame)
    (beside : Block.Beside 32 (40 + 8 * pool.geometry.bitmapWords) block frame) :
    Sound locked pool { arena with
        machine := { arena.machine with memory := arena.machine.memory.update base fun _ => frame } } ∧
      Changes locked (pool, arena) (pool, { arena with
        machine := { arena.machine with memory := arena.machine.memory.update base fun _ => frame } }) := by
  obtain ⟨valid, edited⟩ := sound.valid.mark found frame' beside
  refine ⟨⟨sound.accounts.edit edited, valid⟩, rfl, rfl, sound.edit_steady (by simpa using member) edited, rfl,
    ?_, .inl fun _ => id⟩
  intro other inside _
  obtain ⟨old, there, -⟩ := sound.valid.frames other inside
  obtain ⟨final, found', beside'⟩ := edited.kept there
  exact ⟨old, final, there, found', beside'.widen (by omega) (Nat.le_refl _)⟩

end Actions
end SlabAllocator.Pool
