import SlabAllocator.Proofs.Pool

/-! How slots are handed out. A slot is taken in the first frame of the chain that has one
free, and a frame that is added behind the others starts empty. -/

namespace SlabAllocator.Pool

variable {pool : Pool} {memory : Memory} {base : Nat} {block : Block}

structure Took (pool : Pool) (memory : Memory) (base : Nat) (slot : Nat × Memory) : Prop where
  taken : ∃ block frame index, memory.find? base = some block ∧ slot.2 = memory.update base (fun _ => frame) ∧
    slot.1 = base + pool.geometry.start index ∧ Frame.Valid pool.geometry frame ∧
    (Frame.taken pool.geometry frame).Perm (index :: Frame.taken pool.geometry block) ∧
    Block.Beside 32 (40 + 8 * pool.geometry.bitmapWords) block frame
  place : ∃ index, (shelf pool.geometry memory base).vacancy? pool.geometry = some index ∧
    slot.1 = base + pool.geometry.start index ∧
    shelf pool.geometry slot.2 base = (shelf pool.geometry memory base).take index

theorem handOut_spec (sound : pool.geometry.Sound) (spread : Spread memory.live)
    (found : memory.find? base = some block) (valid : Frame.Valid pool.geometry block)
    (free : (Frame.taken pool.geometry block).length < pool.geometry.slots) :
    ∃ slot result, Frame.takeSlot pool.geometry block = .ok (some slot) ∧ handOut memory base slot = .ok result ∧
      Took pool memory base result := by
  obtain ⟨index, frame, taken, inside, absent, below, valid', perm, beside⟩ :=
    Frame.takeSlot_free sound valid free
  have placed := spread.placed _ (Memory.mem_live_of_find? found)
  have within := pool.geometry.within inside
  have room := sound.room
  have long := valid.long
  have sized := sound.sized
  unfold Extent.Placed at placed
  have added : Size.add base (pool.geometry.start index) = .ok (base + pool.geometry.start index) :=
    Size.add_ok (by omega)
  refine ⟨_, (base + pool.geometry.start index, memory.update base fun _ => frame), taken,
    by simp only [handOut, added, checked_bind, checked_pure],
    ⟨block, frame, index, found, rfl, rfl, valid', perm, beside⟩, index, ?_, rfl, ?_⟩
  · simp only [Shelf.vacancy?_eq_some, shelf, Memory.block_eq found, List.mem_toFinset]
    exact ⟨inside, absent, below⟩
  · simp only [shelf, Shelf.take, Memory.block_eq found, Memory.block_update_self _ found]
    rw [List.toFinset_eq_of_perm _ _ perm, List.toFinset_cons]

private theorem shelf_full (found : memory.find? base = some block)
    (full : (Frame.taken pool.geometry block).length = pool.geometry.slots) :
    (shelf pool.geometry memory base).vacancy? pool.geometry = none := by
  refine Shelf.vacancy?_eq_none.mpr fun index inside => ?_
  have whole : Frame.taken pool.geometry block = List.range pool.geometry.slots :=
    List.filter_eq_self.mpr (List.length_filter_eq_length_iff.mp (by rw [List.length_range]; exact full))
  rw [shelf, Memory.block_eq found, whole]
  exact List.mem_toFinset.mpr (List.mem_range.mpr inside)

/-- The walk over the chain takes the first free slot. -/
theorem takeFirst_spec (sound : pool.geometry.Sound) (spread : Spread memory.live) {nodes : List Nat}
    {before : Option Nat} (segment : Chain.Segment memory before nodes none) (nodup : nodes.Nodup)
    (frames : ∀ base ∈ nodes, ∃ block, memory.find? base = some block ∧ Frame.Valid pool.geometry block) :
    (takeFirst pool.geometry memory nodes.length nodes.head? = .ok none ∧
      Stock.place? pool.geometry (nodes.map (shelf pool.geometry memory)) = none) ∨
      ∃ base ∈ nodes, ∃ result, takeFirst pool.geometry memory nodes.length nodes.head? = .ok (some result) ∧
        Took pool memory base result ∧ Stock.place? pool.geometry (nodes.map (shelf pool.geometry memory)) =
          some (result.1, nodes.map (shelf pool.geometry result.2)) := by
  -- A slot taken further on changes none of the full frames that were passed, because no frame comes twice.
  induction nodes generalizing before with
  | nil => exact .inl ⟨rfl, rfl⟩
  | cons base rest ih =>
    obtain ⟨-, next, onward⟩ := segment
    obtain ⟨fresh, nodup⟩ := List.nodup_cons.mp nodup
    rw [Option.or_none] at next
    obtain ⟨block, found, valid⟩ := frames base (by simp)
    rw [Memory.block_eq found] at next
    simp only [List.length_cons, List.head?_cons, takeFirst, Memory.block_eq found, List.map_cons, Stock.place?]
    by_cases full : (Frame.taken pool.geometry block).length = pool.geometry.slots
    · simp only [Frame.takeSlot_full valid full, checked_bind, next, shelf_full found full]
      rcases ih onward nodup (fun other member => frames other (by simp [member])) with
        ⟨none, nowhere⟩ | ⟨other, member, result, walk, took, place⟩
      · exact .inl ⟨none, by rw [nowhere]; rfl⟩
      · obtain ⟨-, frame, -, -, changed, -⟩ := took.taken
        have same : shelf pool.geometry result.2 base = shelf pool.geometry memory base := by
          rw [changed]
          exact shelf_update_of_ne _ fun here => fresh (here ▸ member)
        exact .inr ⟨other, by simp [member], result, walk, took, by rw [place, same]; rfl⟩
    · have free := Nat.lt_of_le_of_ne (Frame.length_taken_le pool.geometry block) full
      obtain ⟨slot, result, taken, out, took⟩ := handOut_spec sound spread found valid free
      obtain ⟨-, frame, -, -, changed, -⟩ := took.taken
      obtain ⟨index, vacant, address, shelved⟩ := took.place
      have same : rest.map (shelf pool.geometry result.2) = rest.map (shelf pool.geometry memory) := by
        rw [changed]
        exact List.map_congr_left fun other member => shelf_update_of_ne _ fun here => fresh (here ▸ member)
      refine .inr ⟨base, by simp, result, by simp only [taken, out, checked_bind, checked_pure], took, ?_⟩
      rw [vacant, same, shelved, address]
      rfl

/-- A block has become the last node of the chain. Its bitmap is yet to be written. -/
structure Linked (pool : Pool) (memory : Memory) (nodes : List Nat) (base : Nat) (chain : Chain)
    (linked : Memory) : Prop where
  lists : chain.Lists linked (nodes ++ [base])
  node : ∃ frame, linked.find? base = some frame ∧ pool.frameLen ≤ frame.len ∧
    ∀ i (inside : i < 3), Node.payload frame i = (Frame.header pool.geometry)[i]
  edits : ∃ written, Memory.Edited [base] 0 40 memory written ∧ Memory.Edited nodes 0 16 written linked

structure Extended (base : Nat) (before after : Pool × Memory) : Prop where
  valid : after.1.Valid after.2
  live : (after.1.live after.2).Perm (before.1.live before.2)
  empty : Frame.taken before.1.geometry (after.2.block base) = []
  shelves : (after.1.stock after.2).shelves = (before.1.stock before.2).shelves ++ [⟨base, ∅⟩]
  edits : ∃ written linked, Memory.Edited [base] 0 40 before.2 written ∧
    Memory.Edited before.1.owners 0 16 written linked ∧
    Memory.Edited [base] 0 (40 + 8 * before.1.geometry.bitmapWords) linked after.2

/-- The nodes and the new one are blocks of their own, and there are fewer of these than can be counted. -/
private theorem length_lt_of_fresh {nodes : List Nat} (lists : pool.frames.Lists memory nodes)
    (spread : Spread memory.live) (found : memory.find? base = some block) (fresh : base ∉ nodes) :
    nodes.length + 1 < Size.bound := by
  have distinct : (base :: nodes).Nodup := List.nodup_cons.mpr ⟨fresh, lists.nodup⟩
  have mapped : base :: nodes ⊆ memory.live.map Prod.fst := by
    intro node member
    rcases List.mem_cons.mp member with rfl | old
    · exact List.mem_map_of_mem (f := Prod.fst) (Memory.mem_live_of_find? found)
    · obtain ⟨-, other, there, -⟩ := lists.ready node old
      exact List.mem_map_of_mem (f := Prod.fst) (Memory.mem_live_of_find? there)
  have fewer := (List.subperm_of_subset distinct mapped).length_le
  rw [List.length_cons, List.length_map] at fewer
  exact Nat.lt_of_le_of_lt fewer spread.length_lt

theorem Valid.link (valid : pool.Valid memory) (spread : Spread memory.live) {nodes : List Nat}
    (lists : pool.frames.Lists memory nodes) (found : memory.find? base = some block)
    (long : pool.frameLen ≤ block.len) (fresh : base ∉ nodes) :
    ∃ chain linked, pool.frames.append memory base (Frame.header pool.geometry) = .ok (chain, linked) ∧
      Linked pool memory nodes base chain linked := by
  have room := valid.geometry.room
  have header := valid.geometry.header
  have few := valid.geometry.few
  have small := valid.geometry.small
  have placed := spread.placed _ (Memory.mem_live_of_find? found)
  have bound : Size.bound = 18446744073709551616 := rfl
  have most : Geometry.mostSlots = 512 := rfl
  have headerSize : Geometry.headerSize = 40 := rfl
  have sized : pool.geometry.entitySize ≤ pool.geometry.slots * pool.geometry.entitySize :=
    Nat.le_mul_of_pos_left _ valid.geometry.inhabited
  unfold Extent.Placed at placed
  change pool.geometry.frameLen ≤ block.len at long
  have real : Node.Real (some base) := by
    intro node member
    cases member
    omega
  have values : ∀ value ∈ Frame.header pool.geometry, value < 2 ^ 64 := by
    intro value member
    simp only [Frame.header, List.mem_cons, List.not_mem_nil, or_false] at member
    omega
  have wide : 16 + 8 * (Frame.header pool.geometry).length ≤ block.len := by
    change 16 + 8 * 3 ≤ block.len
    omega
  obtain ⟨chain, linked, appended, lists', relinked⟩ :=
    lists.append_ok found real fresh wide values (length_lt_of_fresh lists spread found fresh)
  obtain ⟨-, -, payload, beside⟩ := Node.write_spec lists.tail_real wide values
  refine ⟨chain, linked, appended, lists',
    ⟨_, (relinked.other base fresh).trans (Memory.find?_update_self _ found), ?_, payload⟩, _,
    .update found beside, relinked⟩
  rw [beside.len]
  exact long

private theorem Linked.others {nodes : List Nat} {chain : Chain} {linked : Memory}
    (last : Linked pool memory nodes base chain linked) (fresh : base ∉ nodes) {other : Nat}
    (member : other ∈ nodes) :
    ∃ old frame, memory.find? other = some old ∧ linked.find? other = some frame ∧
      Block.Beside 0 16 old frame := by
  obtain ⟨written, wrote, relinked⟩ := last.edits
  obtain ⟨old, frame, kept, found, beside⟩ := relinked.edited other member
  have away : other ∉ [base] := List.mem_singleton.not.mpr fun same => fresh (same ▸ member)
  exact ⟨old, frame, (wrote.other other away).symm.trans kept, found, beside⟩

/-- A block behind the other frames, once its bitmap is reset. -/
theorem Linked.extended {nodes : List Nat} {chain : Chain} {linked : Memory}
    (last : Linked pool memory nodes base chain linked) (valid : pool.Valid memory)
    (lists : pool.frames.Lists memory nodes) (order : nodes.Perm pool.owners) (fresh : base ∉ nodes) :
    Extended base (pool, memory) ({ pool with frames := chain, owners := pool.owners.insert base },
      linked.update base (Frame.reset pool.geometry)) := by
  obtain ⟨frame, there, long, payload⟩ := last.node
  obtain ⟨valid', empty, cleared⟩ := Frame.reset_ok valid.geometry long payload
  have reset := Memory.Edited.update there cleared
  have here := Memory.find?_update_self (Frame.reset pool.geometry) there
  have entered := Owners.insert_perm (order.mem_iff.not.mp fresh)
  have listed := last.lists.beside (by decide) reset
  have different : ∀ other ∈ nodes, base ≠ other := fun other member same => fresh (same ▸ member)
  have same : ∀ other ∈ nodes,
      Frame.bitmap pool.geometry ((linked.update base (Frame.reset pool.geometry)).block other) =
      Frame.bitmap pool.geometry (memory.block other) := by
    intro other member
    obtain ⟨old, frame, kept, found, beside⟩ := last.others fresh member
    rw [Memory.block_update_of_ne _ (different other member), Memory.block_eq kept, Memory.block_eq found]
    exact Frame.bitmap_eq beside (.inl (by decide))
  refine ⟨?_, ?_, ?_, ?_, ?_⟩
  · exact {
      geometry := valid.geometry
      lists := ⟨nodes ++ [base], listed, (List.perm_append_comm.trans (order.cons base)).trans entered.symm⟩
      sorted := valid.sorted.insert (order.mem_iff.not.mp fresh)
      frames := fun other member => by
        rcases List.mem_cons.mp (entered.mem_iff.mp member) with rfl | owned
        · exact ⟨_, here, valid'⟩
        · have inside := order.mem_iff.mpr owned
          obtain ⟨_, frame, kept, found, beside⟩ := last.others fresh inside
          obtain ⟨old, again, frameValid⟩ := valid.frames other owned
          rw [kept] at again
          cases again
          exact ⟨frame, (Memory.find?_update_of_ne _ (different other inside)).trans found,
            frameValid.beside beside (.inl (Nat.le_refl 16))⟩
      cadence := valid.cadence }
  · have gained := entered.flatMap_right (slotsAt pool.geometry (linked.update base (Frame.reset pool.geometry)))
    rw [List.flatMap_cons, slotsAt, Memory.block_eq here, empty] at gained
    exact gained.trans
      (.of_eq (flatMap_congr fun other owned => slotsAt_congr (same other (order.mem_iff.mpr owned))))
  · rw [Memory.block_eq here]
    exact empty
  · have kept : nodes.map (shelf pool.geometry (linked.update base (Frame.reset pool.geometry))) =
        nodes.map (shelf pool.geometry memory) :=
      List.map_congr_left fun other member => shelf_congr (same other member)
    refine (shelves_eq listed).trans ?_
    rw [List.map_append, List.map_singleton, shelf, Memory.block_eq here, empty, kept, ← shelves_eq lists]
    rfl
  · obtain ⟨written, wrote, relinked⟩ := last.edits
    refine ⟨written, linked, wrote, ⟨fun other away => relinked.other other (order.mem_iff.not.mpr away), ?_⟩,
      reset.widen (by omega) (Nat.le_refl _)⟩
    exact fun other owned => relinked.edited other (order.mem_iff.mpr owned)

theorem Valid.extend (valid : pool.Valid memory) (spread : Spread memory.live)
    (found : memory.find? base = some block) (long : pool.frameLen ≤ block.len) (fresh : base ∉ pool.owners) :
    ∃ chain linked, pool.frames.append memory base (Frame.header pool.geometry) = .ok (chain, linked) ∧
      Extended base (pool, memory) ({ pool with frames := chain, owners := pool.owners.insert base },
        linked.update base (Frame.reset pool.geometry)) := by
  obtain ⟨nodes, lists, order⟩ := valid.lists
  have outside := order.mem_iff.not.mpr fresh
  obtain ⟨chain, linked, appended, last⟩ := valid.link spread lists found long outside
  exact ⟨chain, linked, appended, last.extended valid lists order outside⟩

theorem Extended.other {before after : Pool × Memory} (extended : Extended base before after) {other : Nat}
    (away : other ∉ base :: before.1.owners) : after.2.find? other = before.2.find? other := by
  obtain ⟨written, linked, wrote, relinked, reset⟩ := extended.edits
  obtain ⟨different, unowned⟩ := not_or.mp (List.mem_cons.not.mp away)
  have single : other ∉ [base] := List.mem_singleton.not.mpr different
  rw [reset.other other single, relinked.other other unowned, wrote.other other single]

theorem Extended.kept {before after : Pool × Memory} (extended : Extended base before after)
    (fresh : base ∉ before.1.owners) : Kept before after := by
  intro other _ owned
  obtain ⟨written, linked, wrote, relinked, reset⟩ := extended.edits
  obtain ⟨old, frame, kept, found, beside⟩ := relinked.edited other owned
  have single : other ∉ [base] := List.mem_singleton.not.mpr fun here => fresh (here ▸ owned)
  exact ⟨old, frame, (wrote.other other single).symm.trans kept, (reset.other other single).trans found,
    beside.widen (Nat.le_refl 0) (by omega)⟩

section Actions

variable [Host σ] [LawfulHost σ]
variable {arena : Arena σ (Books ω)} {locked : List Extent}

theorem Sound.took (sound : Sound locked pool arena) (member : base ∈ pool.owners) {result : Nat × Memory}
    (took : Took pool arena.machine.memory base result) :
    Sound locked pool { arena with machine := { arena.machine with memory := result.2 } } ∧
      Changes locked (pool, arena) (pool, { arena with machine := { arena.machine with memory := result.2 } }) ∧
      (pool.live result.2).Perm (result.1 :: pool.live arena.machine.memory) := by
  obtain ⟨block, frame, index, found, memory, address, valid', perm, beside⟩ := took.taken
  obtain ⟨rest, old, new⟩ := sound.valid.live_mark member frame found
  obtain ⟨sound', changes⟩ := sound.mark member found valid' beside
  rw [← memory] at new sound' changes
  have gained := (perm.map (base + pool.geometry.start ·)).append_right rest
  rw [address]
  exact ⟨sound', changes, new.trans (gained.trans (old.symm.cons _))⟩

theorem create_spec (accounts : Arena.Sound locked arena) {pageSize interval : Nat} (paged : 0 < pageSize)
    (word : interval < Size.bound) (entitySize : Nat) :
    (create entitySize pageSize interval).Ends arena fun outcome after =>
      Arena.Sound locked after ∧ Arena.Quiet arena after ∧ after.pageSize = arena.pageSize ∧
        after.machine.memory = arena.machine.memory ∧
        match outcome with
        | .ok pool => (∀ memory, pool.Valid memory) ∧ pool.owners = [] ∧ pool.entitySize = entitySize
        | .error _ => True := by
  rcases Geometry.ofEntity_spec entitySize paged with refused | ⟨geometry, found, sound, same⟩
  · simp only [create, Run.meets_bind, Run.meets_lift refused, Run.meets_pure]
    exact ⟨accounts, .refl arena, trivial, trivial, trivial⟩
  · simp only [create, Run.meets_bind, Run.meets_lift found, Arena.say, Arena.onMachine, Run.meets_focus,
      Run.meets_modify, Run.meets_pure]
    refine ⟨accounts.say _, ⟨rfl, rfl, rfl⟩, trivial, trivial, fun memory => ?_, trivial, same⟩
    have bound : Size.bound = 18446744073709551616 := rfl
    exact {
      geometry := sound
      lists := ⟨[], .empty memory, .nil⟩
      sorted := .nil
      frames := by simp
      cadence := ⟨Nat.lt_of_lt_of_le Nat.zero_lt_one (Nat.le_max_right ..), by simp only; omega⟩ }

omit [LawfulHost σ] [Host σ] in
theorem pos_of_create {entitySize pageSize interval : Nat} {after : Arena σ (Books ω)}
    (created : create entitySize pageSize interval arena = .ok (.ok pool) after) : 0 < pageSize := by
  have meets : (create entitySize pageSize interval).Meets arena
      (fun outcome _ => ∀ pool, outcome = .ok pool → 0 < pageSize)
      fun _ _ => True := by
    simp only [create, Run.meets_bind]
    refine Run.meets_lift_any fun geometry? found => ?_
    cases geometry? with
    | none =>
      simp only [Run.meets_pure]
      exact nofun
    | some geometry =>
      simp only [Arena.say, Arena.onMachine, Run.meets_bind, Run.meets_focus, Run.meets_modify, Run.meets_pure]
      exact fun _ _ => Geometry.pos_of_ofEntity found
  exact meets.of_ok created pool rfl

theorem Sound.of_create (accounts : Arena.Sound locked arena) {entitySize pageSize interval : Nat}
    {after : Arena σ (Books ω)} (word : interval < Size.bound)
    (created : create entitySize pageSize interval arena = .ok (.ok pool) after) :
    Sound locked pool after := by
  obtain ⟨accounts', -, -, -, valid, empty, -⟩ :=
    (create_spec accounts (pos_of_create created) word entitySize).of_ok created
  refine ⟨?_, valid _⟩
  rw [extents, empty]
  exact accounts'

structure Grown (before : Pool × Arena σ (Books ω)) (base : Nat) (after : Pool × Arena σ (Books ω)) : Prop where
  member : base ∈ after.1.owners
  fresh : base ∉ before.1.owners
  empty : Frame.taken before.1.geometry (after.2.machine.memory.block base) = []
  shelved : view after = { view before with shelves := (view before).shelves ++ [⟨base, ∅⟩] }
  asked : ∃ later, Arena.acquire before.1.frameLen before.2 = .ok (.ok base) later ∧ Arena.Silent later after.2

/-- The arena is asked once for a frame. -/
theorem Sound.grow_spec (sound : Sound locked pool arena) :
    grow.Meets (pool, arena)
      (fun outcome after => Sound locked after.1 after.2 ∧ Changes locked (pool, arena) after ∧
        (after.1.live after.2.machine.memory).Perm (pool.live arena.machine.memory) ∧
        match outcome with
        | .ok base => Grown (pool, arena) base after
        | .error error => after.1 = pool ∧ error = .outOfMemory pool.frameLen ∧ view after = view (pool, arena) ∧
            Arena.acquire pool.frameLen arena = .ok (.error error) after.2)
      (fun fault after => Halted locked (pool, arena) fault after ∧
        Arena.acquire pool.frameLen arena = .error fault after.2) := by
  simp only [grow, onArena, Run.meets_bind, Run.meets_get, Run.meets_focus]
  refine (Arena.acquires _ _ _ pool.geometry.frameLen sound.accounts (Nat.le_refl _)).traced.mono
    ?_ fun fault later halted => ⟨⟨rfl, halted.2⟩, halted.1⟩
  rintro outcome later ⟨asked, settled, acquired⟩
  have same : ∀ other ∈ pool.owners, later.machine.memory.find? other = arena.machine.memory.find? other :=
    fun other member => settled.steady.locked _ (List.mem_append_left _ (mem_extents member))
  have stock := sound.valid.stock_congr same
  cases outcome with
  | error error =>
    obtain ⟨kept, cause⟩ := acquired
    obtain ⟨sound', changes, live⟩ := sound.still kept settled.steady settled.errands
    simp only [Run.meets_pure]
    exact ⟨sound', changes, .of_eq live, trivial, cause, stock, asked⟩
  | ok base =>
    have fresh : base ∉ pool.owners := fun member =>
      acquired.apart_head (List.mem_append_left _ (List.mem_append_left _ (mem_extents member))) rfl
    obtain ⟨block, found, len⟩ := acquired.find List.mem_cons_self
    obtain ⟨valid, live⟩ := sound.valid.congr same
    have long : pool.frameLen ≤ block.len := by
      have fits := le_pageBytes sound.accounts.power pool.geometry.frameLen
      rw [len]
      change pool.geometry.frameLen ≤ _
      omega
    obtain ⟨chain, linked, appended, extended⟩ := valid.extend acquired.machine.spread found long fresh
    simp only [Arena.memory, setFrames, put, onArena, Arena.setMemory, Machine.setMemory, Arena.say,
      Arena.onMachine, Run.meets_bind, Run.meets_get, Run.meets_focus, Run.meets_modify, Run.meets_pure,
      Run.meets_lift appended]
    have entered := Owners.insert_perm fresh
    have filed : (((base, pageBytes arena.pageSize pool.frameLen) :: pool.extents arena.pageSize) ++ locked).Perm
        (extents later.pageSize { pool with frames := chain, owners := pool.owners.insert base } ++ locked) := by
      rw [settled.steady.paged]
      exact (entered.map fun base => (base, pageBytes arena.pageSize pool.frameLen)).symm.append_right locked
    obtain ⟨written, between, wrote, relinked, reset⟩ := extended.edits
    have accounts := (((acquired.edit wrote).edit relinked).edit reset).perm filed
    refine ⟨⟨accounts.say _, extended.valid⟩,
      ⟨rfl, rfl, ?_, settled.errands, ?_, .inr fun other member => ?_⟩, ?_, ?_⟩
    · refine (settled.steady.mono fun _ => List.mem_append_right _).trans
        (.of_apart (· ∈ base :: pool.owners) rfl rfl (fun extent member inside => ?_) fun other away =>
          extended.other away)
      rcases List.mem_cons.mp inside with here | owned
      · refine acquired.apart_head ?_ here
        rw [List.append_assoc]
        exact List.mem_append_right _ member
      · exact acquired.apart ((base, pageBytes arena.pageSize pool.geometry.frameLen) ::
          pool.extents arena.pageSize)
          (List.mem_cons_of_mem _ (mem_extents owned)) member rfl
    · intro other last member
      obtain ⟨old, frame, kept, found', beside⟩ := extended.kept fresh other last member
      exact ⟨old, frame, (same other member).symm.trans kept, found', beside⟩
    · exact entered.mem_iff.mpr (List.mem_cons_of_mem _ member)
    · exact extended.live.trans (.of_eq live)
    · have shelved := extended.shelves
      rw [stock] at shelved
      exact {
        member := entered.mem_iff.mpr List.mem_cons_self
        fresh
        empty := extended.empty
        shelved := congrArg (Stock.mk · pool.releases) shelved
        asked := ⟨later, asked, _, _, rfl⟩ }

/-- A new frame has a slot to hand out. -/
theorem Grown.serves {before after : Pool × Arena σ (Books ω)} (grown : Grown before base after)
    (sound : Sound locked after.1 after.2) (same : after.1.geometry = before.1.geometry) :
    ∃ slot result, Frame.takeSlot before.1.geometry (after.2.machine.memory.block base) = .ok (some slot) ∧
      handOut after.2.machine.memory base slot = .ok result ∧
      Took after.1 after.2.machine.memory base result := by
  obtain ⟨block, found, frame⟩ := sound.valid.frames base grown.member
  have empty := grown.empty
  rw [Memory.block_eq found, ← same] at empty ⊢
  exact handOut_spec sound.valid.geometry sound.spread found frame
    (by rw [empty]; exact sound.valid.geometry.inhabited)

omit [LawfulHost σ] in
theorem Grown.first {before after : Pool × Arena σ (Books ω)} (grown : Grown before base after)
    (valid : before.1.Valid before.2.machine.memory) (valid' : after.1.Valid after.2.machine.memory)
    (same : after.1.geometry = before.1.geometry) {result : Nat × Memory}
    (took : Took after.1 after.2.machine.memory base result) :
    result.1 = base + before.1.geometry.start 0 ∧
      (after.1.stock result.2).shelves = (view before).shelves ++ [⟨base, {0}⟩] := by
  obtain ⟨index, vacant, address, shelved⟩ := took.place
  obtain ⟨block, frame, -, found, memory, -, -, -, beside⟩ := took.taken
  have bare : shelf after.1.geometry after.2.machine.memory base = ⟨base, ∅⟩ := by
    rw [shelf, same, grown.empty]
    rfl
  have others : ∀ other ∈ (view before).shelves, other.base ≠ base := fun other member here =>
    grown.fresh (valid.mem_bases.mp (List.mem_map.mpr ⟨other, member, here⟩))
  rw [bare] at vacant shelved
  obtain rfl := Shelf.vacancy?_empty vacant
  refine ⟨same ▸ address, ?_⟩
  have old : (after.1.stock after.2.machine.memory).shelves = (view before).shelves ++ [⟨base, ∅⟩] :=
    congrArg Stock.shelves grown.shelved
  rw [memory] at shelved ⊢
  rw [valid'.shelves_mark found beside, shelved, old, List.map_append, List.map_singleton, if_pos rfl]
  refine congrArg (· ++ _)
    ((List.map_congr_left fun other member => if_neg (others other member)).trans (List.map_id _))

/-- A request is served from the first frame with a free slot without a call to the host, or else from a frame
for which the arena is asked once. -/
inductive Provides (before after : Pool × Arena σ (Books ω)) : Outcome → Prop where
  | taken {addr : Nat} {shelves : List Shelf}
    (place : Stock.place? before.1.geometry (view before).shelves = some (addr, shelves))
    (pool : after.1 = before.1)
    (silent : Arena.Silent before.2 after.2) (view : view after = { view before with shelves }) :
    Provides before after (.ok addr)
  | grown {base : Nat} {later : Arena σ (Books ω)}
    (full : Stock.place? before.1.geometry (view before).shelves = none)
    (asked : Arena.acquire before.1.frameLen before.2 = .ok (.ok base) later)
    (silent : Arena.Silent later after.2)
    (fresh : base ∉ before.1.owners)
    (view : Pool.view after = { Pool.view before with shelves := (Pool.view before).shelves ++ [⟨base, {0}⟩] }) :
    Provides before after (.ok (base + before.1.geometry.start 0))
  | denied {error : AllocError} (full : Stock.place? before.1.geometry (view before).shelves = none)
    (asked : Arena.acquire before.1.frameLen before.2 = .ok (.error error) after.2) (pool : after.1 = before.1)
    (view : Pool.view after = Pool.view before) : Provides before after (.error error)

/-- A slot comes from a frame with a free one, or else from a new frame. -/
theorem Sound.acquire_spec (sound : Sound locked pool arena) :
    acquire.Meets (pool, arena)
      (fun outcome after => Sound locked after.1 after.2 ∧ Changes locked (pool, arena) after ∧
        (match outcome with
        | .ok addr => (after.1.live after.2.machine.memory).Perm (addr :: pool.live arena.machine.memory)
        | .error error => after.1 = pool ∧ error = .outOfMemory pool.frameLen ∧
            (after.1.live after.2.machine.memory).Perm (pool.live arena.machine.memory)) ∧
        Provides (pool, arena) after outcome)
      (fun fault after => Halted locked (pool, arena) fault after ∧
        Stock.place? pool.geometry (view (pool, arena)).shelves = none ∧
        Arena.acquire pool.frameLen arena = .error fault after.2) := by
  obtain ⟨nodes, lists, order⟩ := sound.valid.lists
  have walk := takeFirst_spec sound.valid.geometry sound.spread lists.segment lists.nodup
    fun base member => sound.valid.frames base (order.mem_iff.mp member)
  rw [← lists.length, ← lists.head, ← shelves_eq lists] at walk
  simp only [acquire, onArena, Arena.memory, Run.meets_bind, Run.meets_get, Run.meets_focus, Run.meets_pure]
  rcases walk with ⟨none, full⟩ | ⟨base, member, result, taken, took, place⟩
  · simp only [Run.meets_lift none, Run.meets_bind]
    refine sound.grow_spec.mono ?_ fun fault later halted => ⟨halted.1, full, halted.2⟩
    rintro outcome ⟨grown, later⟩ ⟨sound', changes, live, result⟩
    cases outcome with
    | error error =>
      simp only [Run.meets_pure]
      obtain ⟨same, cause, kept, asked⟩ := result
      exact ⟨sound', changes, ⟨same, cause, live⟩, .denied full asked same kept⟩
    | ok base =>
      simp only [Run.meets_bind, Run.meets_get, Run.meets_focus, Run.meets_pure]
      obtain ⟨slot, out, taken, given, took⟩ := result.serves sound' changes.geometry
      obtain ⟨sound'', changes', live'⟩ := sound'.took result.member took
      simp only [Run.meets_lift taken, Run.meets_bind, Run.meets_lift given, Arena.setMemory, Machine.setMemory,
        Arena.onMachine, Run.meets_focus, Run.meets_modify, Run.meets_pure]
      have whole := changes.trans changes' (fun base last _ => last) changes.oneWay
      refine ⟨sound'', whole, live'.trans (live.cons _), ?_⟩
      obtain ⟨between, asked, silent⟩ := result.asked
      obtain ⟨first, shelved⟩ := result.first sound.valid sound'.valid changes.geometry took
      have releases : grown.releases = pool.releases := congrArg Stock.releases result.shelved
      rw [first]
      exact .grown full asked (silent.trans ⟨_, _, rfl⟩) result.fresh (congrArg₂ Stock.mk shelved releases)
  · simp only [Run.meets_lift taken]
    obtain ⟨sound', changes, live⟩ := sound.took (order.mem_iff.mp member) took
    simp only [Arena.setMemory, Machine.setMemory, Arena.onMachine, Run.meets_bind, Run.meets_focus,
      Run.meets_modify, Run.meets_pure]
    obtain ⟨block, frame, -, found, memory, -, -, -, beside⟩ := took.taken
    refine ⟨sound', changes, live, .taken place rfl ⟨_, _, rfl⟩ ?_⟩
    refine congrArg (Stock.mk · pool.releases) (shelves_eq ?_)
    rw [memory]
    exact lists.beside (by decide) (.update found beside)

end Actions
end SlabAllocator.Pool
