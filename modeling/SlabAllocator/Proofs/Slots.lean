import Mathlib.Algebra.Order.BigOperators.Group.List
import Mathlib.Algebra.Order.Group.Nat
import SlabAllocator.Proofs.Pool

/-! Where slots lie. The slots that are handed out are apart from each other, from the headers
and from the bitmaps, and the bytes in them are the client's. -/

namespace SlabAllocator.Pool

variable {pool : Pool} {memory changed : Memory} {base addr pageSize : Nat}

def slot (pool : Pool) (addr : Nat) : Extent :=
  (addr, pool.entitySize)

/-- The part of a frame that is divided into slots. -/
def area (pool : Pool) (base : Nat) : Extent :=
  (base + pool.geometry.slotsOffset, pool.geometry.slots * pool.geometry.entitySize)

/-- What a frame says of itself: its header and its bitmap. -/
def prelude (pool : Pool) (base : Nat) : Extent :=
  (base, 40 + 8 * pool.geometry.bitmapWords)

theorem slot_within (taken : addr ∈ slotsAt pool.geometry memory base) :
    Extent.Within (pool.slot addr) (pool.area base) := by
  obtain ⟨index, used, rfl⟩ := mem_slotsAt.mp taken
  have within := pool.geometry.within (Frame.mem_taken.mp used).1
  have low : pool.geometry.slotsOffset ≤ pool.geometry.start index := Nat.le_add_right ..
  simp only [Extent.Within, slot, area, entitySize]
  omega

theorem slotsAt_apart (pool : Pool) (memory : Memory) (base : Nat) :
    ((slotsAt pool.geometry memory base).map pool.slot).Pairwise Extent.Apart := by
  have ordered : (Frame.taken pool.geometry (memory.block base)).Pairwise (· < ·) :=
    List.pairwise_lt_range.filter _
  rw [slotsAt, List.map_map, List.pairwise_map]
  refine ordered.imp fun {first second} less => .inl ?_
  have past : (first + 1) * pool.geometry.entitySize ≤ second * pool.geometry.entitySize :=
    Nat.mul_le_mul_right _ less
  rw [Nat.succ_mul] at past
  change base + (_ + _) + pool.geometry.entitySize ≤ base + (_ + _)
  omega

namespace Valid

theorem area_within (valid : pool.Valid memory) (base : Nat) (power : Size.isPowerOfTwo pageSize = true) :
    Extent.Within (pool.area base) (base, pageBytes pageSize pool.frameLen) := by
  have room := valid.geometry.room
  have fits := le_pageBytes power pool.geometry.frameLen
  simp only [Extent.Within, area, frameLen]
  omega

theorem prelude_within (valid : pool.Valid memory) (base : Nat) (power : Size.isPowerOfTwo pageSize = true) :
    Extent.Within (pool.prelude base) (base, pageBytes pageSize pool.frameLen) := by
  have room := valid.geometry.room
  have header := valid.geometry.header
  have fits := le_pageBytes power pool.geometry.frameLen
  simp only [Extent.Within, prelude, frameLen]
  unfold Geometry.headerSize at header
  omega

theorem prelude_apart (valid : pool.Valid memory) (base : Nat) :
    Extent.Apart (pool.area base) (pool.prelude base) := by
  have header := valid.geometry.header
  simp only [Extent.Apart, area, prelude]
  unfold Geometry.headerSize at header
  omega

theorem slot_placed (valid : pool.Valid memory) (power : Size.isPowerOfTwo pageSize = true)
    (taken : addr ∈ pool.live memory) : ∃ base ∈ pool.owners, Extent.Within (pool.slot addr) (pool.area base) ∧
      Extent.Within (pool.slot addr) (base, pageBytes pageSize pool.frameLen) := by
  obtain ⟨base, member, inside⟩ := List.mem_flatMap.mp taken
  have within := slot_within inside
  exact ⟨base, member, within, within.trans (valid.area_within base power)⟩

theorem slots_apart (valid : pool.Valid memory) (power : Size.isPowerOfTwo pageSize = true)
    (spread : Spread (pool.extents pageSize)) : ((pool.live memory).map pool.slot).Pairwise Extent.Apart := by
  rw [live, List.map_flatMap, List.pairwise_flatMap]
  refine ⟨fun base _ => slotsAt_apart pool memory base, (List.pairwise_map.mp spread.apart).imp ?_⟩
  intro base other apart first inside second inside'
  obtain ⟨addr, taken, rfl⟩ := List.mem_map.mp inside
  obtain ⟨addr', taken', rfl⟩ := List.mem_map.mp inside'
  exact apart.mono ((slot_within taken).trans (valid.area_within base power))
    ((slot_within taken').trans (valid.area_within other power))

theorem length_live_le (valid : pool.Valid memory) (power : Size.isPowerOfTwo pageSize = true) :
    (pool.live memory).length ≤ Extent.total (pool.extents pageSize) := by
  have few : ∀ base ∈ pool.owners, (slotsAt pool.geometry memory base).length ≤
      pageBytes pageSize pool.frameLen := by
    intro base _
    have sized : pool.geometry.slots ≤ pool.geometry.slots * pool.geometry.entitySize :=
      Nat.le_mul_of_pos_right _ valid.geometry.sized
    have counted := Frame.length_taken_le pool.geometry (memory.block base)
    have room := valid.geometry.room
    have fits := le_pageBytes power pool.geometry.frameLen
    rw [slotsAt, List.length_map]
    change _ ≤ pageBytes pageSize pool.geometry.frameLen
    omega
  rw [live, List.length_flatMap, Extent.total, extents, List.map_map]
  exact List.sum_le_sum few

/-- The counts in the headers add up to the slots handed out. -/
theorem liveSlots_ok (valid : pool.Valid memory) (small : (pool.live memory).length < Size.bound) :
    pool.liveSlots memory = .ok (pool.live memory).length := by
  obtain ⟨nodes, lists, order⟩ := valid.lists
  have counted : (nodes.map fun frame => Frame.occupied (memory.block frame)).sum =
      (pool.live memory).length := by
    rw [live, List.length_flatMap, (order.map _).sum_nat]
    refine congrArg List.sum (List.map_congr_left fun base member => ?_)
    obtain ⟨block, found, frame⟩ := valid.frames base member
    rw [slotsAt, List.length_map, Memory.block_eq found, frame.occupied]
  rw [liveSlots, lists.nodes_ok, checked_bind, Size.sum_ok (by rw [counted]; exact small), counted]

/-- A byte that is in the slots of two frames is in one frame. -/
theorem area_unique (valid : pool.Valid memory) (power : Size.isPowerOfTwo pageSize = true)
    (spread : Spread (pool.extents pageSize)) {other : Nat} (member : base ∈ pool.owners)
    (member' : other ∈ pool.owners) (inside : Extent.Within (pool.slot addr) (pool.area base))
    (inside' : Extent.Within (pool.slot addr) (pool.area other)) : base = other := by
  have sized : 0 < pool.entitySize := valid.geometry.sized
  have within := inside.trans (valid.area_within base power)
  have within' := inside'.trans (valid.area_within other power)
  simp only [Extent.Within, slot] at within within'
  exact congrArg Prod.fst (spread.eq_of_common (mem_extents member) (mem_extents member') addr
    ⟨within.1, by simp only; omega⟩ ⟨within'.1, by simp only; omega⟩)

theorem slot_found (valid : pool.Valid memory) (taken : addr ∈ pool.live memory) :
    ∃ base : Nat, base ∈ pool.owners ∧ ∃ block, memory.find? base = some block ∧
      base + 40 + 8 * pool.geometry.bitmapWords ≤ addr ∧
      addr + pool.entitySize ≤ base + block.len := by
  obtain ⟨base, member, inside⟩ := List.mem_flatMap.mp taken
  obtain ⟨block, found, frame⟩ := valid.frames base member
  have within := slot_within inside
  have room := valid.geometry.room
  have header := valid.geometry.header
  have long := frame.long
  simp only [Extent.Within, slot, area] at within
  unfold Geometry.headerSize at header
  unfold entitySize at within ⊢
  exact ⟨base, member, block, found, by omega, by omega⟩

/-- A slot keeps its bytes when its frame is left alone. -/
theorem read_slot (valid : pool.Valid memory) (spread : Spread memory.live) (spread' : Spread changed.live)
    (same : ∀ base ∈ pool.owners, changed.find? base = memory.find? base)
    (taken : addr ∈ pool.live memory) {count : Nat} (short : count ≤ pool.entitySize) :
    changed.read addr count = memory.read addr count := by
  obtain ⟨base, member, block, found, low, high⟩ := valid.slot_found taken
  exact Memory.read_congr spread spread' found ((same base member).trans found) (by omega) (by omega) (by omega)
    (by omega) fun _ _ => rfl

/-- Writing in a slot is out of sight of the pool. -/
theorem write_slot (valid : pool.Valid memory) (spread : Spread memory.live) (taken : addr ∈ pool.live memory)
    {offset : Nat} {bytes : List UInt8} (room : offset < pool.entitySize)
    (short : offset + bytes.length ≤ pool.entitySize) :
    ∃ base : Nat, base ∈ pool.owners ∧ base ≤ addr ∧ Memory.Edited [base] (addr + offset - base)
        (addr + offset - base + bytes.length) memory (memory.write (addr + offset) bytes) ∧
      40 + 8 * pool.geometry.bitmapWords ≤ addr + offset - base ∧
      (memory.write (addr + offset) bytes).read (addr + offset) bytes.length = bytes := by
  obtain ⟨base, member, block, found, low, high⟩ := valid.slot_found taken
  have edited := Memory.edited_write spread found (show base ≤ addr + offset by omega) (by omega) bytes
  exact ⟨base, member, by omega, edited, by omega, Memory.read_write spread found (by omega) bytes (by omega)⟩

end Valid

section Actions

variable [Host σ] [LawfulHost σ]
variable {locked : List Extent} {before after : Pool × Arena σ (Books ω)}

theorem Sound.spread_extents {arena : Arena σ (Books ω)} (sound : Sound locked pool arena) :
    Spread (pool.extents arena.pageSize) := by
  have spread := sound.accounts.spread
  rw [List.append_assoc] at spread
  exact ⟨fun extent member => spread.placed extent (List.mem_append_left _ member),
    (List.pairwise_append.mp spread.apart).1⟩

/-- A slot shares no byte with a block that is somebody else's. -/
theorem Sound.slot_apart {arena : Arena σ (Books ω)} (sound : Sound locked pool arena)
    (taken : addr ∈ pool.live arena.machine.memory) {block : Extent}
    (member : block ∈ locked ++ arena.env.held.map (Holding.extent arena.pageSize)) :
    Extent.Apart (pool.slot addr) block := by
  obtain ⟨base, owned, -, within⟩ := sound.valid.slot_placed sound.accounts.power taken
  have different := sound.accounts.apart _ (mem_extents owned) member
  have apart :=
    sound.accounts.spread.apart_of_ne (List.mem_append_left _ (List.mem_append_left _ (mem_extents owned)))
    (by rw [List.append_assoc]; exact List.mem_append_right _ member) fun same =>
      different (congrArg Prod.fst same).symm
  exact apart.mono within ⟨Nat.le_refl _, Nat.le_refl _⟩

theorem Changes.read_slot (changes : Changes locked before after) (sound : Sound locked before.1 before.2)
    (sound' : Sound locked after.1 after.2) (old : addr ∈ before.1.live before.2.machine.memory)
    (new : addr ∈ after.1.live after.2.machine.memory) {count : Nat} (short : count ≤ before.1.entitySize) :
    after.2.machine.memory.read addr count = before.2.machine.memory.read addr count := by
  obtain ⟨base, member, inside, -⟩ := sound.valid.slot_placed sound.accounts.power old
  obtain ⟨other, member', inside', -⟩ := sound'.valid.slot_placed sound'.accounts.power new
  have same : after.1.slot addr = before.1.slot addr ∧ ∀ base, after.1.area base = before.1.area base := by
    simp only [slot, area, entitySize, changes.geometry, implies_true, and_self]
  have here : base = other := by
    rcases changes.oneWay with fewer | more
    · rw [same.1, same.2] at inside'
      exact sound.valid.area_unique sound.accounts.power sound.spread_extents member
        (fewer other member') inside inside'
    · rw [← same.1, ← same.2] at inside
      exact sound'.valid.area_unique sound'.accounts.power sound'.spread_extents
        (more base member) member' inside inside'
  subst here
  obtain ⟨block, changed, found, found', beside⟩ := changes.kept base member' member
  replace beside : Block.Beside 0 (40 + 8 * before.1.geometry.bitmapWords) block changed := beside
  obtain ⟨_, again, frame⟩ := sound.valid.frames base member
  rw [found] at again
  cases again
  have room := sound.valid.geometry.room
  have header := sound.valid.geometry.header
  have long := frame.long
  simp only [Extent.Within, slot, area] at inside
  unfold Geometry.headerSize at header
  exact Memory.read_congr sound.spread sound'.spread found found' (by omega) (by omega) (by omega)
    (by rw [beside.len]; omega) fun k less => beside.byte _ (by omega)

end Actions
end SlabAllocator.Pool
