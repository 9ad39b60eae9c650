import SlabAllocator.Proofs.Block
import SlabAllocator.Proofs.Spread

/-! Memory as the blocks it maps. What a change does is said by the block found at each base
and, up to their order, by the ranges of all blocks. -/

namespace SlabAllocator.Memory

def find? (memory : Memory) (base : Nat) : Option Block :=
  memory.blocks[base]?

def live (memory : Memory) : List Extent :=
  memory.blocks.toList.map fun entry => (entry.1, entry.2.len)

theorem block_eq {memory : Memory} {base : Nat} {block : Block} (found : memory.find? base = some block) :
    memory.block base = block := by
  rw [Memory.block, Std.TreeMap.getD_eq_getD_getElem?]
  unfold find? at found
  rw [found]
  rfl

theorem block_of_none {memory : Memory} {base : Nat} (absent : memory.find? base = none) :
    memory.block base = .missing := by
  rw [Memory.block, Std.TreeMap.getD_eq_getD_getElem?]
  unfold find? at absent
  rw [absent]
  rfl

theorem block_congr {memory other : Memory} {base : Nat} (same : other.find? base = memory.find? base) :
    other.block base = memory.block base := by
  cases found : memory.find? base with
  | none => rw [block_of_none found, block_of_none (same.trans found)]
  | some block => rw [block_eq found, block_eq (same.trans found)]

@[simp] theorem find?_empty (base : Nat) : empty.find? base = none := by
  simp [find?, empty]

theorem find?_map (memory : Memory) (base other len : Nat) (hosted : Bool) :
    (memory.map base len hosted).find? other =
      if base = other then some (.fresh len hosted) else memory.find? other := by
  simp [find?, map, Std.TreeMap.getElem?_insert]

theorem find?_unmap (memory : Memory) (base other : Nat) :
    (memory.unmap base).find? other = if base = other then none else memory.find? other := by
  simp [find?, unmap, Std.TreeMap.getElem?_erase]

theorem find?_update (memory : Memory) (base other : Nat) (change : Block → Block) :
    (memory.update base change).find? other =
      if base = other then (memory.find? base).map change else memory.find? other := by
  simp [find?, update, Std.TreeMap.getElem?_modify]

theorem find?_update_self {memory : Memory} {base : Nat} {block : Block} (change : Block → Block)
    (found : memory.find? base = some block) :
    (memory.update base change).find? base = some (change block) := by
  rw [find?_update, if_pos rfl, found]; rfl

theorem find?_update_of_ne {memory : Memory} {base other : Nat} (change : Block → Block)
    (different : base ≠ other) : (memory.update base change).find? other = memory.find? other := by
  rw [find?_update, if_neg different]

theorem block_update_self {memory : Memory} {base : Nat} {block : Block} (change : Block → Block)
    (found : memory.find? base = some block) : (memory.update base change).block base = change block :=
  block_eq (find?_update_self change found)

theorem block_update_of_ne {memory : Memory} {base other : Nat} (change : Block → Block)
    (different : base ≠ other) : (memory.update base change).block other = memory.block other :=
  block_congr (find?_update_of_ne change different)

theorem find?_remap (memory : Memory) (base target other len : Nat) :
    (memory.remap base target len).find? other =
      if target = other then some ((memory.block base).resize len)
      else if base = other then none else memory.find? other := by
  simp [find?, remap, Std.TreeMap.getElem?_insert, Std.TreeMap.getElem?_erase]

theorem mem_live {memory : Memory} {extent : Extent} :
    extent ∈ memory.live ↔ ∃ block, memory.find? extent.1 = some block ∧ block.len = extent.2 := by
  obtain ⟨base, len⟩ := extent
  simp only [live, List.mem_map, find?]
  constructor
  · intro ⟨⟨other, block⟩, member, same⟩
    obtain ⟨rfl, rfl⟩ := Prod.mk.injEq .. ▸ same
    exact ⟨block, Std.TreeMap.mem_toList_iff_getElem?_eq_some.mp member, rfl⟩
  · intro ⟨block, found, same⟩
    exact ⟨(base, block), Std.TreeMap.mem_toList_iff_getElem?_eq_some.mpr found, by simp [same]⟩

theorem mem_live_of_find? {memory : Memory} {base : Nat} {block : Block}
    (found : memory.find? base = some block) : (base, block.len) ∈ memory.live :=
  mem_live.mpr ⟨block, found, rfl⟩

theorem nodup_live (memory : Memory) : memory.live.Nodup := by
  refine List.pairwise_map.mpr (memory.blocks.distinct_keys_toList.imp ?_)
  intro first second different same
  exact different (by simpa using congrArg Prod.fst same)

/-- Memories that find blocks of the same ranges have the same ranges. -/
private theorem live_perm {memory : Memory} {extents : List Extent} (nodup : extents.Nodup)
    (same : ∀ extent, extent ∈ memory.live ↔ extent ∈ extents) : memory.live.Perm extents :=
  (List.perm_ext_iff_of_nodup memory.nodup_live nodup).mpr same

theorem live_empty : empty.live = [] := by
  refine List.eq_nil_iff_forall_not_mem.mpr fun extent member => ?_
  obtain ⟨block, found, -⟩ := mem_live.mp member
  rw [find?_empty] at found
  cases found

theorem live_map {memory : Memory} {base : Nat} (len : Nat) (hosted : Bool)
    (absent : memory.find? base = none) :
    (memory.map base len hosted).live.Perm ((base, len) :: memory.live) := by
  apply live_perm
  · refine List.nodup_cons.mpr ⟨fun member => ?_, memory.nodup_live⟩
    obtain ⟨block, found, -⟩ := mem_live.mp member
    rw [absent] at found
    cases found
  · intro ⟨other, size⟩
    simp only [mem_live, find?_map, List.mem_cons, Prod.mk.injEq]
    by_cases here : base = other
    · subst here
      simp [absent, Block.fresh, eq_comm]
    · simp [here, Ne.symm here]

theorem live_unmap {memory : Memory} {base : Nat} {block : Block}
    (found : memory.find? base = some block) :
    memory.live.Perm ((base, block.len) :: (memory.unmap base).live) := by
  apply live_perm
  · refine List.nodup_cons.mpr ⟨fun member => ?_, nodup_live _⟩
    obtain ⟨other, present, -⟩ := mem_live.mp member
    rw [find?_unmap, if_pos rfl] at present
    cases present
  · intro ⟨other, size⟩
    simp only [mem_live, find?_unmap, List.mem_cons, Prod.mk.injEq]
    by_cases here : base = other
    · subst here
      simp [found, eq_comm]
    · simp [here, Ne.symm here]

theorem live_remap {memory : Memory} {base target : Nat} (len : Nat)
    (absent : (memory.unmap base).find? target = none) :
    (memory.remap base target len).live.Perm ((target, len) :: (memory.unmap base).live) := by
  apply live_perm
  · refine List.nodup_cons.mpr ⟨fun member => ?_, nodup_live _⟩
    obtain ⟨block, found, -⟩ := mem_live.mp member
    rw [absent] at found
    cases found
  · intro ⟨other, size⟩
    simp only [mem_live, find?_remap, List.mem_cons, Prod.mk.injEq]
    by_cases here : target = other
    · subst here
      simp [absent, eq_comm]
    · simp [here, Ne.symm here, find?_unmap]

theorem live_update {memory : Memory} {base : Nat} {change : Block → Block}
    (kept : ∀ block, (change block).len = block.len) :
    (memory.update base change).live.Perm memory.live := by
  apply live_perm memory.nodup_live
  intro extent
  simp only [mem_live, find?_update]
  split
  next here =>
    subst here
    cases memory.find? extent.1 <;> simp [kept]
  next => rfl

/-- The second memory differs from the first only in the blocks at these bases, each at most in
its bytes from `low` up to `high`. -/
structure Edited (bases : List Nat) (low high : Nat) (before after : Memory) : Prop where
  other : ∀ base, base ∉ bases → after.find? base = before.find? base
  edited : ∀ base ∈ bases, ∃ block changed, before.find? base = some block ∧
    after.find? base = some changed ∧ Block.Beside low high block changed

namespace Edited

variable {bases : List Nat} {low high : Nat} {before middle after : Memory}

theorem refl (present : ∀ base ∈ bases, ∃ block, before.find? base = some block) (low high : Nat) :
    Edited bases low high before before :=
  ⟨fun _ _ => rfl, fun base member =>
    let ⟨block, found⟩ := present base member
    ⟨block, block, found, found, .refl low high block⟩⟩

/-- No block is lost. -/
theorem kept (edited : Edited bases low high before after) {base : Nat} {block : Block}
    (found : before.find? base = some block) :
    ∃ changed, after.find? base = some changed ∧ Block.Beside low high block changed := by
  by_cases member : base ∈ bases
  · obtain ⟨_, changed, again, found', beside⟩ := edited.edited base member
    rw [found] at again
    cases again
    exact ⟨changed, found', beside⟩
  · exact ⟨block, (edited.other base member).trans found, .refl low high block⟩

theorem block (edited : Edited bases low high before after) (base : Nat) :
    Block.Beside low high (before.block base) (after.block base) := by
  by_cases member : base ∈ bases
  · obtain ⟨block, changed, found, found', beside⟩ := edited.edited base member
    rw [block_eq found, block_eq found']
    exact beside
  · rw [block_congr (edited.other base member)]
    exact .refl low high _

theorem update {base : Nat} {block : Block} {change : Block → Block} (found : before.find? base = some block)
    (beside : Block.Beside low high block (change block)) :
    Edited [base] low high before (before.update base change) := by
  refine ⟨fun other outside => find?_update_of_ne change (by simpa [eq_comm] using outside), ?_⟩
  intro other member
  obtain rfl : other = base := by simpa using member
  exact ⟨block, change block, found, find?_update_self change found, beside⟩

theorem mono (edited : Edited bases low high before after) {more : List Nat}
    (included : ∀ base ∈ bases, base ∈ more) (present : ∀ base ∈ more, ∃ block, before.find? base = some block) :
    Edited more low high before after := by
  refine ⟨fun base outside => edited.other base fun member => outside (included base member), ?_⟩
  intro base member
  by_cases inside : base ∈ bases
  · exact edited.edited base inside
  · obtain ⟨block, found⟩ := present base member
    exact ⟨block, block, found, (edited.other base inside).trans found, .refl low high block⟩

theorem widen (edited : Edited bases low high before after) {lower higher : Nat} (below : lower ≤ low)
    (above : high ≤ higher) : Edited bases lower higher before after := by
  refine ⟨edited.other, fun base member => ?_⟩
  obtain ⟨block, changed, found, found', beside⟩ := edited.edited base member
  exact ⟨block, changed, found, found', beside.widen below above⟩

theorem trans (first : Edited bases low high before middle) (second : Edited bases low high middle after) :
    Edited bases low high before after := by
  refine ⟨fun base outside => (second.other base outside).trans (first.other base outside), ?_⟩
  intro base member
  obtain ⟨block, changed, found, found', beside⟩ := first.edited base member
  obtain ⟨final, found'', beside'⟩ := second.kept found'
  exact ⟨block, final, found, found'', beside.trans beside'⟩

theorem live (edited : Edited bases low high before after) : after.live.Perm before.live := by
  refine live_perm before.nodup_live fun extent => ?_
  simp only [mem_live]
  by_cases member : extent.1 ∈ bases
  · obtain ⟨block, changed, found, found', beside⟩ := edited.edited extent.1 member
    simp only [found, found', Option.some.injEq, exists_eq_left', beside.len]
  · rw [edited.other extent.1 member]

end Edited

theorem spans_iff {block : Block} {base addr : Nat} :
    block.spans base addr = true ↔ base ≤ addr ∧ addr < base + block.len := by
  simp only [Block.spans, Bool.and_eq_true, decide_eq_true_eq]

/-- An address in a block is found there when blocks are apart. -/
theorem blockAt?_eq {memory : Memory} (spread : Spread memory.live) {base addr : Nat} {block : Block}
    (found : memory.find? base = some block) (low : base ≤ addr) (high : addr < base + block.len) :
    memory.blockAt? addr = some (base, block) := by
  have only : ∀ (other : Nat) (candidate : Block), memory.find? other = some candidate →
      candidate.spans other addr = true → (other, candidate) = (base, block) := by
    intro other candidate present spans
    have same := spread.eq_of_common (mem_live_of_find? present) (mem_live_of_find? found) addr
      (spans_iff.mp spans) ⟨low, high⟩
    have here : other = base := congrArg Prod.fst same
    rw [here] at present ⊢
    rw [found] at present
    cases present
    rfl
  have spans : block.spans base addr = true := spans_iff.mpr ⟨low, high⟩
  simp only [blockAt?]
  split
  next near =>
    cases present : memory.find? (memory.blocks.getKeyLED addr addr) with
    | none =>
      rw [block_of_none present] at near
      have beyond := (spans_iff.mp near).2
      have reached := (spans_iff.mp near).1
      simp only [Block.missing, Block.fresh] at beyond
      omega
    | some candidate =>
      rw [block_eq present] at near ⊢
      exact congrArg some (only _ candidate present near)
  next =>
    cases result : memory.blocks.toList.find? fun entry => entry.2.spans entry.1 addr with
    | none =>
      have missed := List.find?_eq_none.mp result (base, block)
        (Std.TreeMap.mem_toList_iff_getElem?_eq_some.mpr found)
      exact absurd spans missed
    | some entry =>
      have present := Std.TreeMap.mem_toList_iff_getElem?_eq_some.mp (List.mem_of_find?_eq_some result)
      have spanned : entry.2.spans entry.1 addr = true := by
        simpa using List.find?_some result
      exact congrArg some (only entry.1 entry.2 present spanned)

theorem read_eq {memory : Memory} (spread : Spread memory.live) {base addr count : Nat} {block : Block}
    (found : memory.find? base = some block) (low : base ≤ addr) (positive : 0 < count)
    (high : addr + count ≤ base + block.len) :
    memory.read addr count = (List.range count).map fun k => block.byte (addr - base + k) := by
  rw [read, blockAt?_eq spread found low (by omega)]
  exact block.read_eq (by omega)

theorem write_eq {memory : Memory} (spread : Spread memory.live) {base addr : Nat} {block : Block}
    (found : memory.find? base = some block) (low : base ≤ addr) (high : addr < base + block.len)
    (bytes : List UInt8) : memory.write addr bytes = memory.update base (·.write (addr - base) bytes) := by
  rw [write, blockAt?_eq spread found low high]

@[simp] theorem read_zero (memory : Memory) (addr : Nat) : memory.read addr 0 = [] := by
  unfold read
  split
  · rw [Block.read, Nat.zero_min]; rfl
  · rfl

/-- Reads of blocks that have the same bytes there. -/
theorem read_congr {before after : Memory} (spread : Spread before.live) (spread' : Spread after.live)
    {base base' addr addr' count : Nat} {block block' : Block}
    (found : before.find? base = some block) (found' : after.find? base' = some block')
    (low : base ≤ addr) (high : addr + count ≤ base + block.len)
    (low' : base' ≤ addr') (high' : addr' + count ≤ base' + block'.len)
    (same : ∀ k, k < count → block'.byte (addr' - base' + k) = block.byte (addr - base + k)) :
    after.read addr' count = before.read addr count := by
  rcases Nat.eq_zero_or_pos count with rfl | positive
  · rw [read_zero, read_zero]
  · rw [read_eq spread found low positive high, read_eq spread' found' low' positive high']
    exact List.map_congr_left fun k member => same k (List.mem_range.mp member)

theorem length_read {memory : Memory} (spread : Spread memory.live) {base addr count : Nat} {block : Block}
    (found : memory.find? base = some block) (low : base ≤ addr) (high : addr + count ≤ base + block.len) :
    (memory.read addr count).length = count := by
  rcases Nat.eq_zero_or_pos count with rfl | positive
  · rw [read_zero]; rfl
  · rw [read_eq spread found low positive high, List.length_map, List.length_range]

theorem edited_write {memory : Memory} (spread : Spread memory.live) {base addr : Nat} {block : Block}
    (found : memory.find? base = some block) (low : base ≤ addr) (high : addr < base + block.len)
    (bytes : List UInt8) :
    Edited [base] (addr - base) (addr - base + bytes.length) memory (memory.write addr bytes) := by
  rw [write_eq spread found low high]
  exact .update found (.write block (addr - base) bytes)

theorem read_write {memory : Memory} (spread : Spread memory.live) {base addr : Nat} {block : Block}
    (found : memory.find? base = some block) (low : base ≤ addr) (bytes : List UInt8)
    (high : addr + bytes.length ≤ base + block.len) :
    (memory.write addr bytes).read addr bytes.length = bytes := by
  rcases Nat.eq_zero_or_pos bytes.length with empty | positive
  · rw [empty, read_zero, List.length_eq_zero_iff.mp empty]
  · have edited := edited_write spread found low (by omega) bytes
    have found' : (memory.write addr bytes).find? base = some (block.write (addr - base) bytes) := by
      rw [write_eq spread found low (by omega)]
      exact find?_update_self _ found
    rw [read_eq (spread.perm edited.live.symm) found' low positive high]
    refine List.ext_getElem (by simp) fun i inside _ => ?_
    simp only [List.length_map, List.length_range] at inside
    rw [List.getElem_map, List.getElem_range, Block.byte_write, if_pos (by omega), Nat.add_sub_cancel_left,
      List.getD_eq_getElem?_getD, List.getElem?_eq_getElem inside]
    rfl

/-- A read beside everything that was written. -/
theorem Edited.read {bases : List Nat} {low high : Nat} {before after : Memory}
    (edited : Edited bases low high before after) (spread : Spread before.live)
    {base addr count : Nat} {block : Block} (found : before.find? base = some block) (start : base ≤ addr)
    (fits : addr + count ≤ base + block.len)
    (beside : base ∈ bases → addr - base + count ≤ low ∨ high ≤ addr - base) :
    after.read addr count = before.read addr count := by
  have spread' := spread.perm edited.live.symm
  by_cases member : base ∈ bases
  · obtain ⟨_, changed, again, found', same⟩ := edited.edited base member
    rw [found] at again
    cases again
    exact read_congr spread spread' found found' start fits start (by rw [same.len]; exact fits)
      fun k inside => same.byte _ (by have := beside member; omega)
  · exact read_congr spread spread' found ((edited.other base member).trans found) start fits start
      fits fun _ _ => rfl

end SlabAllocator.Memory
