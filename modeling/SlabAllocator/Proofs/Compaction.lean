import SlabAllocator.Proofs.Growth

/-! How slots and frames go back. A slot that is released leaves its frame, and the frames that
are empty leave the chain and return to the arena. No hook runs meanwhile. -/

namespace SlabAllocator.Pool

variable {pool : Pool} {memory : Memory} {base addr : Nat}

theorem Valid.unlink (valid : pool.Valid memory) (member : base ∈ pool.owners) :
    ∃ chain changed, pool.frames.remove memory base = .ok (chain, changed) ∧
      Valid { pool with frames := chain, owners := pool.owners.erase base } changed ∧
      (stock { pool with frames := chain, owners := pool.owners.erase base } changed).shelves =
        (pool.stock memory).shelves.filter (·.base ≠ base) ∧
      Memory.Edited (pool.owners.erase base) 0 16 memory changed := by
  obtain ⟨nodes, lists, order⟩ := valid.lists
  obtain ⟨left, right, rfl⟩ := List.append_of_mem (order.mem_iff.mpr member)
  obtain ⟨chain, changed, removed, lists', edited⟩ := lists.remove_ok
  have rest : (left ++ right).Perm (pool.owners.erase base) :=
    List.perm_middle.symm.trans order |>.trans (List.perm_cons_erase member) |>.cons_inv
  have edited' : Memory.Edited (pool.owners.erase base) 0 16 memory changed :=
    edited.mono (fun other => rest.mem_iff.mp) fun other inside =>
      (valid.frames other (List.mem_of_mem_erase inside)).imp fun _ frame => frame.1
  refine ⟨chain, changed, removed, ?_, ?_, edited'⟩
  · exact {
      geometry := valid.geometry
      lists := ⟨left ++ right, lists', rest⟩
      sorted := valid.sorted.erase base
      frames := fun other inside =>
        frame_edited edited' (.inl (Nat.le_refl 16)) (valid.frames other (List.mem_of_mem_erase inside))
      cadence := valid.cadence }
  · have distinct := lists.nodup
    rw [← bases_eq lists, shelves_eq lists, List.map_append, List.map_cons] at distinct
    have kept : (left ++ right).map (shelf pool.geometry changed) =
        (left ++ right).map (shelf pool.geometry memory) :=
      List.map_congr_left fun other _ => shelf_edited edited' (.inl (by decide)) other
    rw [shelves_eq lists, List.map_append, List.map_cons]
    refine (shelves_eq lists').trans (kept.trans ?_)
    rw [List.map_append]
    exact (Stock.filter_base distinct).symm

/-- An address in a frame is found by that frame. -/
theorem Valid.owner?_span (valid : pool.Valid memory) (spread : Spread memory.live) (member : base ∈ pool.owners)
    (low : base ≤ addr) (high : addr < base + pool.frameLen) : pool.owner? addr = some base := by
  obtain ⟨block, found, frame⟩ := valid.frames base member
  refine Owners.find?_eq valid.sorted member (fun other owned above => ?_) low high
  obtain ⟨block', found', -⟩ := valid.frames other owned
  have placed := spread.placed _ (Memory.mem_live_of_find? found')
  have apart := spread.apart_of_ne (Memory.mem_live_of_find? found) (Memory.mem_live_of_find? found')
    fun same => absurd (congrArg Prod.fst same) (Nat.ne_of_lt above)
  have long := frame.long
  unfold Extent.Placed at placed
  unfold Extent.Apart at apart
  change base + pool.geometry.frameLen ≤ other
  omega

theorem Valid.slot_lt (valid : pool.Valid memory) {index : Nat} (inside : index < pool.geometry.slots) :
    pool.geometry.start index < pool.frameLen := by
  have room := valid.geometry.room
  have sized := valid.geometry.sized
  have within := pool.geometry.within inside
  unfold frameLen
  omega

theorem Valid.owner?_eq (valid : pool.Valid memory) (spread : Spread memory.live) (member : base ∈ pool.owners)
    {index : Nat} (inside : index < pool.geometry.slots) :
    pool.owner? (base + pool.geometry.start index) = some base :=
  valid.owner?_span spread member (Nat.le_add_right ..) (Nat.add_lt_add_left (valid.slot_lt inside) base)

structure Thinned (before after : Pool × Memory) : Prop where
  geometry : after.1.geometry = before.1.geometry
  interval : after.1.interval = before.1.interval
  stock : after.1.stock after.2 = (before.1.stock before.2).compact
  links : Relinked before after
  owners : ∀ base ∈ after.1.owners, base ∈ before.1.owners

namespace Untouched

variable {before middle after : Pool × Memory}

theorem refl (pool : Pool) (memory : Memory) : Untouched (pool, memory) (pool, memory) :=
  ⟨rfl, fun _ _ => rfl⟩

theorem trans (first : Untouched before middle) (second : Untouched middle after) : Untouched before after := by
  obtain ⟨same, kept⟩ := first
  obtain ⟨same', kept'⟩ := second
  refine ⟨same'.trans same, fun base member => ?_⟩
  exact (kept' base (same ▸ member)).trans (kept base member)

theorem stock_eq (untouched : Untouched before after) (valid : before.1.Valid before.2) :
    after.1.stock after.2 = before.1.stock before.2 := by
  rw [untouched.1]
  exact valid.stock_congr untouched.2

/-- It does not matter what happens elsewhere before a pool is compacted, -/
theorem thinned (first : Untouched before middle) (second : Thinned middle after)
    (valid : before.1.Valid before.2) : Thinned before after := by
  have owners : ∀ base ∈ after.1.owners, base ∈ before.1.owners :=
    fun base last => first.1 ▸ second.owners base last
  refine ⟨second.geometry.trans (congrArg Pool.geometry first.1),
    second.interval.trans (congrArg Pool.interval first.1), ?_, fun base last => ?_, owners⟩
  · rw [second.stock, first.stock_eq valid]
  · rw [← first.2 base (owners base last)]
    exact second.links base last

/-- and what happens elsewhere afterwards. -/
theorem of_thinned (second : Untouched middle after) (first : Thinned before middle)
    (valid : middle.1.Valid middle.2) : Thinned before after := by
  have owners : ∀ base ∈ after.1.owners, base ∈ middle.1.owners := fun base last => second.1 ▸ last
  refine ⟨(congrArg Pool.geometry second.1).trans first.geometry,
    (congrArg Pool.interval second.1).trans first.interval, ?_, fun base last => ?_,
      fun base last => first.owners base (owners base last)⟩
  · rw [second.stock_eq valid, first.stock]
  · rw [second.2 base (owners base last)]
    exact first.links base (owners base last)

end Untouched

/-- The frames that compaction takes away, as blocks of the arena. -/
def surplus (pageSize : Nat) (pool : Pool) (memory : Memory) : List Extent :=
  (Stock.shed (pool.stock memory).shelves).map fun base => (base, pageBytes pageSize pool.frameLen)

theorem Valid.surplus_congr {changed : Memory} (valid : pool.Valid memory)
    (same : ∀ base ∈ pool.owners, changed.find? base = memory.find? base) (pageSize : Nat) :
    pool.surplus pageSize changed = pool.surplus pageSize memory := by
  rw [surplus, surplus, valid.stock_congr same]

section Actions

variable [Host σ] [LawfulHost σ]
variable {arena : Arena σ (Books ω)} {locked : List Extent}

structure Dropped (base : Nat) (before after : Pool × Memory) : Prop where
  owners : after.1.owners = before.1.owners.erase base
  releases : after.1.releases = before.1.releases
  links : Relinked before after
  shelves : (after.1.stock after.2).shelves = (before.1.stock before.2).shelves.filter (·.base ≠ base)

theorem Sound.dropFrame_spec (sound : Sound locked pool arena) (member : base ∈ pool.owners) :
    (dropFrame base).Ends (pool, arena) fun _ after =>
      Sound locked after.1 after.2 ∧ Changes locked (pool, arena) after ∧
        Dropped base (pool, arena.machine.memory) (after.1, after.2.machine.memory) ∧
        Arena.Returned [(base, pageBytes arena.pageSize pool.frameLen)] arena after.2 := by
  obtain ⟨chain, changed, removed, valid, shelved, edited⟩ := sound.valid.unlink member
  have split : (pool.extents arena.pageSize ++ locked).Perm ((base, pageBytes arena.pageSize pool.frameLen) ::
      (extents arena.pageSize { pool with frames := chain, owners := pool.owners.erase base } ++ locked)) :=
    ((List.perm_cons_erase member).map fun base =>
      (base, pageBytes arena.pageSize pool.frameLen)).append_right locked
  simp only [dropFrame, setFrames, put, onArena, Arena.memory, Arena.setMemory, Machine.setMemory, Arena.say,
    Arena.onMachine, Run.meets_bind, Run.meets_get, Run.meets_focus, Run.meets_pure, Run.meets_lift removed,
    Run.meets_modify]
  have accounts := (sound.accounts.edit edited).perm split
  refine accounts.release_spec.imp ?_
  rintro _ later ⟨returned, steady, sound'⟩
  have same : ∀ other ∈ pool.owners.erase base, later.machine.memory.find? other = changed.find? other :=
    fun other inside => steady.locked _ (List.mem_append_left _ (List.mem_map_of_mem inside))
  obtain ⟨valid', -⟩ := valid.congr same
  have paged : later.pageSize = arena.pageSize := steady.paged
  rw [← paged] at sound'
  have unowned : ∀ other ∈ pool.owners.erase base, other ∈ pool.owners := fun other => List.mem_of_mem_erase
  refine ⟨⟨?_, valid'⟩, ⟨rfl, rfl, ?_, ?_, ?_, .inl unowned⟩, ⟨rfl, rfl, ?_,
    (congrArg Stock.shelves (valid.stock_congr same)).trans shelved⟩,
    (Arena.Silent.returned ⟨changed, _, rfl⟩).trans (returned.silent ⟨_, _, rfl⟩)⟩
  · exact sound'.say _
  · exact (sound.edit_steady unowned edited).trans
      ((steady.mono fun _ => List.mem_append_right _).trans (.of_memory rfl rfl rfl))
  · exact congrArg Books.errands returned.quiet.env
  · intro other inside old
    obtain ⟨block, frame, found, found', beside⟩ := edited.edited other inside
    exact ⟨block, frame, found, (same other inside).trans found', beside.widen (Nat.le_refl 0) (by omega)⟩
  · intro other inside
    obtain ⟨block, frame, found, found', beside⟩ := edited.edited other inside
    exact ⟨block, frame, found, (same other inside).trans found', beside⟩

/-- Frames without a slot in use are dropped, and nothing else. -/
structure Compacted (locked : List Extent) (before : Pool × Arena σ (Books ω)) (count : Nat)
    (after : Pool × Arena σ (Books ω)) : Prop where
  sound : Sound locked after.1 after.2
  changes : Changes locked before after
  links : Relinked (before.1, before.2.machine.memory) (after.1, after.2.machine.memory)
  slots : (before.1.live before.2.machine.memory).Perm (after.1.live after.2.machine.memory)
  releases : after.1.releases = before.1.releases
  total : after.1.owners.length + count = before.1.owners.length
  owners : ∀ base ∈ after.1.owners, base ∈ before.1.owners

private theorem Compacted.refl (sound : Sound locked pool arena) :
    Compacted locked (pool, arena) 0 (pool, arena) := by
  refine ⟨sound, .refl sound, fun base member => ?_, .refl _, rfl, rfl, fun _ => id⟩
  obtain ⟨block, found, -⟩ := sound.valid.frames base member
  exact ⟨block, block, found, found, .refl ..⟩

private theorem Compacted.say {before after : Pool × Arena σ (Books ω)} {count : Nat}
    (compacted : Compacted locked before count after) (message : Message) :
    Compacted locked before count (after.1, { after.2 with
      machine := { after.2.machine with journal := after.2.machine.journal.say message } }) :=
  { compacted with
    sound := ⟨compacted.sound.accounts.say message, compacted.sound.valid⟩
    changes := { compacted.changes with steady := compacted.changes.steady.trans (.of_memory rfl rfl rfl) } }

/-- The last frame may stay. -/
private theorem Sound.dropWhileMany_spec : ∀ (frames : List Nat) {pool : Pool} {arena : Arena σ (Books ω)},
    Sound locked pool arena → frames.Nodup →
    (∀ base ∈ frames, base ∈ pool.owners ∧ slotsAt pool.geometry arena.machine.memory base = []) →
    (dropWhileMany frames).Ends (pool, arena) fun count after => Compacted locked (pool, arena) count after ∧
      (view after).shelves = Stock.discard frames (view (pool, arena)).shelves ∧
      Arena.Returned ((frames.take count).map fun base => (base, pageBytes arena.pageSize pool.frameLen)) arena
        after.2
  | [], pool, arena, sound, _, _ => by
    simp only [dropWhileMany, Run.meets_pure]
    exact ⟨.refl sound, rfl, .refl arena⟩
  | base :: rest, pool, arena, sound, nodup, empty => by
    obtain ⟨fresh, nodup⟩ := List.nodup_cons.mp nodup
    obtain ⟨member, bare⟩ := empty base List.mem_cons_self
    -- The check counts the chain, which has as many nodes as there are frames without their memory.
    have count : pool.frameCount = (view (pool, arena)).shelves.length := sound.valid.frameCount_eq
    simp only [dropWhileMany, Run.meets_bind, Run.meets_get, count, Stock.discard]
    split
    · simp only [Run.meets_pure]
      exact ⟨.refl sound, trivial, .refl arena⟩
    simp only [Run.meets_bind]
    refine (sound.dropFrame_spec member).imp ?_
    rintro _ middle ⟨sound', changes, dropped, first⟩
    have slotsAt_eq : ∀ other ∈ middle.1.owners, slotsAt pool.geometry middle.2.machine.memory other =
        slotsAt pool.geometry arena.machine.memory other := fun other inside =>
      slotsAt_congr (dropped.links.bitmap_eq inside _)
    -- The frames still to go are there and empty, as they were, since the loss of another one writes to
    -- no bitmap.
    have kept : ∀ other ∈ rest, other ∈ middle.1.owners ∧
        slotsAt middle.1.geometry middle.2.machine.memory other = [] := by
      intro other later
      obtain ⟨owned, bare'⟩ := empty other (List.mem_cons_of_mem _ later)
      have stays : other ∈ middle.1.owners := by
        rw [dropped.owners]
        exact sound.valid.nodup.mem_erase_iff.mpr ⟨fun same => fresh (same ▸ later), owned⟩
      exact ⟨stays, by rw [changes.geometry, slotsAt_eq other stays, bare']⟩
    have left : ∀ other ∈ middle.1.owners, other ∈ pool.owners := fun other inside => by
      rw [dropped.owners] at inside
      exact List.mem_of_mem_erase inside
    have fewer : middle.1.owners.length + 1 = pool.owners.length := by
      have positive := List.length_pos_of_mem member
      rw [dropped.owners, Owners.erase, List.length_erase_of_mem member]
      omega
    have slots : (pool.live arena.machine.memory).Perm (middle.1.live middle.2.machine.memory) := by
      have split := live_split arena.machine.memory member
      rw [bare, List.nil_append] at split
      refine split.trans (.of_eq ?_)
      rw [live, dropped.owners, changes.geometry]
      exact flatMap_congr fun other inside => (slotsAt_eq other (by rw [dropped.owners]; exact inside)).symm
    refine (dropWhileMany_spec rest sound' nodup kept).imp fun count after result => ?_
    obtain ⟨rest, shelves, others⟩ := result
    have total : after.1.owners.length + count = middle.1.owners.length := rest.total
    have small := sound.length_owners_lt
    have paged : middle.2.pageSize = arena.pageSize := changes.steady.paged
    have frameLen : middle.1.frameLen = pool.frameLen := congrArg Geometry.frameLen changes.geometry
    rw [paged, frameLen] at others
    simp only [Run.meets_lift (Size.add_ok (a := count) (b := 1) (by omega))]
    refine ⟨?_, shelves.trans (congrArg _ dropped.shelves), first.trans others⟩
    exact {
      sound := rest.sound
      changes := changes.trans rest.changes (fun base last _ => rest.owners base last)
        (.inl fun base last => left base (rest.owners base last))
      links := dropped.links.trans rest.links rest.owners
      slots := slots.trans rest.slots
      releases := rest.releases.trans dropped.releases
      total := show after.1.owners.length + (count + 1) = pool.owners.length by omega
      owners := fun base last => left base (rest.owners base last) }

private theorem slotsAt_empty {memory : Memory} {block : Block} (found : memory.find? base = some block)
    (frame : Frame.Valid pool.geometry block) (empty : Frame.isEmpty (memory.block base) = true) :
    slotsAt pool.geometry memory base = [] := by
  rw [Memory.block_eq found, Frame.isEmpty, beq_iff_eq, frame.occupied] at empty
  rw [slotsAt, Memory.block_eq found, List.length_eq_zero_iff.mp empty]
  rfl

/-- The empty frames as compaction finds them. -/
private theorem Valid.spare_eq (valid : pool.Valid memory) {nodes : List Nat}
    (lists : pool.frames.Lists memory nodes) (order : nodes.Perm pool.owners) :
    (nodes.filter fun frame => Frame.isEmpty (memory.block frame)).reverse =
      Stock.spare (pool.stock memory).shelves := by
  rw [Stock.spare, shelves_eq lists, List.filter_map, List.map_map]
  have same : ∀ base ∈ nodes, Frame.isEmpty (memory.block base) =
      decide ((shelf pool.geometry memory base).taken = ∅) := by
    intro base member
    obtain ⟨block, found, frame⟩ := valid.frames base (order.mem_iff.mp member)
    rw [shelf, Memory.block_eq found, Frame.isEmpty, frame.occupied, Bool.eq_iff_iff]
    simp
  rw [List.filter_congr same]
  exact congrArg List.reverse (List.map_id _).symm

/-- Compaction leaves the frames with a slot in use, or else the first one. The others go back from the last one on. -/
theorem Sound.compact_spec (sound : Sound locked pool arena) :
    compact.Ends (pool, arena) fun count after => Compacted locked (pool, arena) count after ∧
      view after = (view (pool, arena)).compact ∧
      Arena.Returned (pool.surplus arena.pageSize arena.machine.memory) arena after.2 := by
  obtain ⟨nodes, lists, order⟩ := sound.valid.lists
  simp only [compact, onArena, Arena.memory, Run.meets_bind, Run.meets_get, Run.meets_focus, Run.meets_pure,
    Run.meets_lift lists.nodes_ok]
  have nodup : (nodes.filter fun frame => Frame.isEmpty (arena.machine.memory.block frame)).reverse.Nodup :=
    List.nodup_reverse.mpr (lists.nodup.filter _)
  have distinct : ((pool.stock arena.machine.memory).shelves.map Shelf.base).Nodup := by
    rw [bases_eq lists]
    exact lists.nodup
  refine (sound.dropWhileMany_spec _ nodup fun base member => ?_).imp fun count after result => ?_
  · obtain ⟨inside, empty⟩ := List.mem_filter.mp (List.mem_reverse.mp member)
    have owned := order.mem_iff.mp inside
    obtain ⟨block, found, frame⟩ := sound.valid.frames base owned
    exact ⟨owned, slotsAt_empty found frame empty⟩
  · obtain ⟨compacted, shelves, returned⟩ := result
    rw [sound.valid.spare_eq lists order] at shelves returned
    have view : view after = (view (pool, arena)).compact :=
      congrArg₂ Stock.mk (shelves.trans (Stock.discard_spare distinct)) compacted.releases
    have gone : count = (pool.stock arena.machine.memory).shelves.length -
        (Stock.compacted (pool.stock arena.machine.memory).shelves).length := by
      have old := sound.valid.length_shelves
      have left := compacted.sound.valid.length_shelves
      have total : after.1.owners.length + count = pool.owners.length := compacted.total
      change (Pool.view after).shelves.length = _ at left
      rw [view] at left
      change (Stock.compacted (pool.stock arena.machine.memory).shelves).length = _ at left
      omega
    rw [gone] at returned
    split
    · simp only [Arena.say, Arena.onMachine, Run.meets_bind, Run.meets_focus, Run.meets_modify, Run.meets_pure]
      exact ⟨compacted.say _, view, returned.silent ⟨_, _, rfl⟩⟩
    · simp only [Run.meets_pure]
      exact ⟨compacted, view, returned⟩

theorem Compacted.thinned {before after : Pool × Arena σ (Books ω)} {count : Nat}
    (compacted : Compacted locked before count after) (shelved : view after = (view before).compact) :
    Thinned (before.1, before.2.machine.memory) (after.1, after.2.machine.memory) :=
  ⟨compacted.changes.geometry, compacted.changes.interval, shelved, compacted.links, compacted.owners⟩

omit [LawfulHost σ] in
private theorem dropWhileMany_idle {frames : List Addr} (few : frames = [] ∨ pool.frameCount = 1) :
    dropWhileMany frames (pool, arena) = (pure 0 : Action σ (Books ω) Nat) (pool, arena) := by
  apply Run.eq_of_meets
  intro post stop
  cases frames with
  | nil => rfl
  | cons base rest =>
    have single := few.resolve_left (List.cons_ne_nil _ _)
    simp only [dropWhileMany, Run.meets_bind, Run.meets_get, if_pos single, Run.meets_pure]

/-- What compaction has left it leaves alone. -/
theorem Sound.compact_settled (sound : Sound locked pool arena)
    (settled : Stock.compacted (view (pool, arena)).shelves = (view (pool, arena)).shelves) :
    compact (pool, arena) = .ok 0 (pool, arena) := by
  change compact (pool, arena) = (pure 0 : Action σ (Books ω) Nat) (pool, arena)
  obtain ⟨nodes, lists, order⟩ := sound.valid.lists
  have count : pool.frameCount = (view (pool, arena)).shelves.length := sound.valid.frameCount_eq
  have few : Stock.spare (pool.stock arena.machine.memory).shelves = [] ∨ pool.frameCount = 1 := by
    have left := Stock.spare_compacted (view (pool, arena)).shelves
    rwa [settled, ← count] at left
  apply Run.eq_of_meets
  intro post stop
  simp only [compact, onArena, Arena.memory, Run.meets_bind, Run.meets_get, Run.meets_focus, Run.meets_pure,
    Run.meets_lift lists.nodes_ok]
  rw [sound.valid.spare_eq lists order, Run.meets_congr (dropWhileMany_idle few)]
  simp only [Run.meets_pure, Nat.lt_irrefl, if_false]

/-- The frames do not depend on where the counter stands. -/
theorem Sound.recount (sound : Sound locked pool arena) {releases : Nat} (less : releases < pool.interval) :
    Sound locked { pool with releases } arena :=
  ⟨sound.accounts, { sound.valid with cadence := ⟨less, sound.valid.cadence.2⟩ }⟩

def countRelease : Action σ (Books ω) Unit := do
  let pool := (← get).1
  let releases ← Size.add pool.releases 1
  if pool.interval ≤ releases then
    put { pool with releases := 0 }
    let _ ← compact
  else put { pool with releases }

theorem Sound.countRelease_spec (sound : Sound locked pool arena) :
    countRelease.Ends (pool, arena) fun _ after =>
      Sound locked after.1 after.2 ∧ Changes locked (pool, arena) after ∧
        (pool.live arena.machine.memory).Perm (after.1.live after.2.machine.memory) ∧
        view after = (view (pool, arena)).tally pool.interval := by
  obtain ⟨due, word⟩ := sound.valid.cadence
  have counted : ∀ releases, releases < pool.interval → Sound locked { pool with releases } arena ∧
      Changes locked (pool, arena) ({ pool with releases }, arena) := fun releases less =>
    ⟨sound.recount less, { Changes.refl sound with }⟩
  simp only [countRelease, put, Stock.tally, Run.meets_bind, Run.meets_get,
    Run.meets_lift (Size.add_ok (a := pool.releases) (b := 1) (by omega))]
  split
  next full =>
    obtain ⟨sound', changes⟩ := counted 0 (by omega)
    simp only [Run.meets_bind, Run.meets_modify]
    refine sound'.compact_spec.imp fun _ after result => ?_
    obtain ⟨compacted, view, -⟩ := result
    simp only [Run.meets_pure]
    exact ⟨compacted.sound, changes.trans compacted.changes (fun base last _ => compacted.owners base last)
      (.inl compacted.owners), compacted.slots, view.trans (if_pos full).symm⟩
  next more =>
    obtain ⟨sound', changes⟩ := counted (pool.releases + 1) (by omega)
    simp only [Run.meets_modify]
    exact ⟨sound', changes, .refl _, (if_neg more).symm⟩

private theorem shelf_vacate {geometry : Geometry} {block changed : Block} {index : Nat} (sound : geometry.Sound)
    (found : memory.find? base = some block)
    (lost : (Frame.taken geometry block).Perm (index :: Frame.taken geometry changed)) :
    shelf geometry (memory.update base fun _ => changed) base =
      (shelf geometry memory base).vacate geometry (base + geometry.start index) := by
  have gone : index ∉ Frame.taken geometry changed :=
    (List.nodup_cons.mp (lost.nodup_iff.mp (Frame.nodup_taken _ _))).1
  rw [shelf, shelf, Shelf.vacate, Memory.block_eq found, Memory.block_update_self _ found]
  congr 1
  ext other
  simp only [List.mem_toFinset, Finset.mem_filter, lost.mem_iff, List.mem_cons, ne_eq, Nat.add_left_cancel_iff]
  constructor
  · intro used
    exact ⟨.inr used, fun same => gone (sound.start_injective same ▸ used)⟩
  · rintro ⟨rfl | used, different⟩
    · exact absurd rfl different
    · exact used

private theorem Valid.shelf_apart (valid : pool.Valid memory) (spread : Spread memory.live)
    (member : base ∈ pool.owners) {index : Nat} (inside : index < pool.geometry.slots) {other : Nat}
    (owned : other ∈ pool.owners) (different : other ≠ base) :
    (shelf pool.geometry memory other).vacate pool.geometry (base + pool.geometry.start index) =
      shelf pool.geometry memory other := by
  rw [Shelf.vacate, Finset.filter_true_of_mem]
  intro place used here
  have owner := valid.owner?_eq spread owned (Frame.mem_taken.mp (List.mem_toFinset.mp used)).1
  change other + _ = _ at here
  rw [here, valid.owner?_eq spread member inside] at owner
  exact different (Option.some.inj owner).symm

private theorem Valid.stock_vacate {block changed : Block} {index : Nat} (valid : pool.Valid memory)
    (spread : Spread memory.live) (member : base ∈ pool.owners) (found : memory.find? base = some block)
    (lost : (Frame.taken pool.geometry block).Perm (index :: Frame.taken pool.geometry changed))
    (beside : Block.Beside 32 (40 + 8 * pool.geometry.bitmapWords) block changed) :
    pool.stock (memory.update base fun _ => changed) =
      (pool.stock memory).vacate pool.geometry (base + pool.geometry.start index) := by
  obtain ⟨nodes, lists, order⟩ := valid.lists
  have inside : index < pool.geometry.slots := (Frame.mem_taken.mp (lost.mem_iff.mpr List.mem_cons_self)).1
  refine congrArg (Stock.mk · pool.releases) ((valid.shelves_mark found beside).trans ?_)
  rw [shelves_eq lists, List.map_map, List.map_map]
  refine List.map_congr_left fun other listed => ?_
  by_cases same : other = base
  · subst same
    exact (if_pos rfl).trans (shelf_vacate valid.geometry found lost)
  · exact (if_neg same).trans (valid.shelf_apart spread member inside (order.mem_iff.mp listed) same).symm

/-- A slot that is handed out is given back first, and then counted. -/
theorem Sound.release_eq (sound : Sound locked pool arena) (taken : addr ∈ pool.live arena.machine.memory) :
    ∃ middle, release addr (pool, arena) = countRelease (pool, middle) ∧ Sound locked pool middle ∧
      Changes locked (pool, arena) (pool, middle) ∧
      (pool.live arena.machine.memory).Perm (addr :: pool.live middle.machine.memory) ∧
      Arena.Silent arena middle ∧ view (pool, middle) = (view (pool, arena)).vacate pool.geometry addr := by
  obtain ⟨base, member, index, used, rfl⟩ := mem_live.mp taken
  obtain ⟨block, found, frame⟩ := sound.valid.frames base member
  rw [Memory.block_eq found] at used
  obtain ⟨changed, given, frame', lost, beside⟩ := Frame.giveBack_ok sound.valid.geometry frame used
  obtain ⟨sound', changes⟩ := sound.mark member found frame' beside
  obtain ⟨rest, old, new⟩ := sound.valid.live_mark member changed found
  have freed := old.trans ((lost.map (base + pool.geometry.start ·)).append_right rest |>.trans (new.symm.cons _))
  have owner := sound.valid.owner?_eq sound.spread member (Frame.mem_taken.mp used).1
  have offset : Size.sub (base + pool.geometry.start index) base = .ok (pool.geometry.start index) := by
    rw [Size.sub_ok (Nat.le_add_right ..), Nat.add_sub_cancel_left]
  refine ⟨_, Run.eq_of_meets fun post stop => ?_, sound', changes, freed, ⟨_, _, rfl⟩,
    sound.valid.stock_vacate sound.spread member found lost beside⟩
  simp only [release, countRelease, onArena, Arena.memory, Run.meets_bind, Run.meets_get, owner, Run.meets_focus,
    Run.meets_pure, Run.meets_lift offset, Memory.block_eq found, Run.meets_lift given, Arena.setMemory,
    Machine.setMemory, Arena.onMachine,
    Run.meets_modify]

theorem Sound.release_spec (sound : Sound locked pool arena) (taken : addr ∈ pool.live arena.machine.memory) :
    (release addr).Ends (pool, arena) fun _ after =>
      Sound locked after.1 after.2 ∧ Changes locked (pool, arena) after ∧
        (pool.live arena.machine.memory).Perm (addr :: after.1.live after.2.machine.memory) ∧
        view after = ((view (pool, arena)).vacate pool.geometry addr).tally pool.interval := by
  obtain ⟨middle, same, sound', changes, freed, -, view⟩ := sound.release_eq taken
  rw [Run.Ends, Run.meets_congr same]
  refine sound'.countRelease_spec.imp fun _ after result => ?_
  obtain ⟨sound'', changes', kept, tallied⟩ := result
  exact ⟨sound'', changes.trans changes' (fun base last old => old) changes'.oneWay,
    freed.trans (kept.cons _), view ▸ tallied⟩

/-- Whatever else is passed to release, nothing changes. -/
theorem Sound.release_refused (sound : Sound locked pool arena) (free : addr ∉ pool.live arena.machine.memory) :
    release addr (pool, arena) = .error .violated (pool, arena) := by
  change release addr (pool, arena) = (throw .violated : Action σ (Books ω) Unit) (pool, arena)
  refine Run.eq_of_meets fun post stop => ?_
  simp only [release, Run.meets_bind, Run.meets_get, Run.meets_throw]
  cases owner : pool.owner? addr with
  | none => simp only [Run.meets_throw]
  | some base =>
    obtain ⟨member, low, -⟩ := Owners.find?_some owner
    obtain ⟨block, found, frame⟩ := sound.valid.frames base member
    have refused : Frame.giveBack pool.geometry block (addr - base) = .error .violated := by
      refine Frame.giveBack_refused sound.valid.geometry frame fun index used start => free (mem_live.mpr ?_)
      exact ⟨base, member, index, by rwa [Memory.block_eq found], by omega⟩
    simp only [onArena, Arena.memory, Run.meets_bind, Run.meets_get, Run.meets_focus, Run.meets_pure,
      Run.meets_lift (Size.sub_ok low), Memory.block_eq found, Run.meets_lift_error refused]

/-- Dropping every frame leaves nothing of the pool in the arena. -/
private theorem Sound.dropAll_spec : ∀ (frames : List Nat) {pool : Pool} {arena : Arena σ (Books ω)},
    Sound locked pool arena → frames.Perm pool.owners →
    (dropAll frames).Ends (pool, arena) fun _ after =>
      Sound locked after.1 after.2 ∧ Changes locked (pool, arena) after ∧ after.1.owners = [] ∧
        Arena.Returned (frames.map fun base => (base, pageBytes arena.pageSize pool.frameLen)) arena after.2
  | [], pool, arena, sound, order => by
    simp only [dropAll, Run.meets_pure]
    exact ⟨sound, .refl sound, List.nil_perm.mp order, .refl arena⟩
  | base :: rest, pool, arena, sound, order => by
    have member : base ∈ pool.owners := order.mem_iff.mp List.mem_cons_self
    simp only [dropAll, Run.meets_bind]
    refine (sound.dropFrame_spec member).imp ?_
    rintro _ middle ⟨sound', changes, dropped, first⟩
    have onward : rest.Perm middle.1.owners := by
      rw [dropped.owners]
      exact (order.trans (List.perm_cons_erase member)).cons_inv
    refine (dropAll_spec rest sound' onward).imp ?_
    rintro _ after ⟨sound'', changes', empty, others⟩
    have paged : middle.2.pageSize = arena.pageSize := changes.steady.paged
    have frameLen : middle.1.frameLen = pool.frameLen := congrArg Geometry.frameLen changes.geometry
    rw [paged, frameLen] at others
    have gone : ∀ other, other ∉ after.1.owners := fun other inside => by
      rw [empty] at inside
      cases inside
    exact ⟨sound'', changes.trans changes' (fun other last => absurd last (gone other))
      (.inl fun other last => absurd last (gone other)), empty, first.trans others⟩

/-- The frames go back from the head on. -/
theorem Sound.destroy_spec (sound : Sound locked pool arena) :
    destroy.Ends (pool, arena) fun _ after => Arena.Sound locked after.2 ∧ Arena.Steady locked arena after.2 ∧
      Arena.Returned (pool.chained arena.pageSize arena.machine.memory) arena after.2 := by
  obtain ⟨nodes, lists, order⟩ := sound.valid.lists
  simp only [destroy, onArena, Arena.memory, Run.meets_bind, Run.meets_get, Run.meets_focus, Run.meets_pure,
    Run.meets_lift lists.nodes_ok]
  refine (sound.dropAll_spec nodes order).imp ?_
  rintro _ after ⟨sound', changes, empty, returned⟩
  have accounts : Arena.Sound locked after.2 := by
    have whole := sound'.accounts
    rwa [extents, empty] at whole
  rw [← chained_eq lists] at returned
  simp only [farewell]
  split
  · simp only [Arena.say, Arena.onMachine, Run.meets_focus, Run.meets_modify]
    exact ⟨accounts.say _, changes.steady.trans (.of_memory rfl rfl rfl), returned.silent ⟨_, _, rfl⟩⟩
  · simp only [Run.meets_pure]
    exact ⟨accounts, changes.steady, returned⟩

end Actions
end SlabAllocator.Pool
