import SlabAllocator.Proofs.Attained
import SlabAllocator.Proofs.Compaction

/-! Slots released in any order and a pool compacted afterwards. Frames may go back at other times in
another order, but only frames without a slot in use ever go, so those that stay in use are the same in
the end. Which empty frame is left when none of them is in use is up to the order. -/

namespace SlabAllocator

def Shelf.without (geometry : Geometry) (addrs : List Addr) (shelf : Shelf) : Shelf :=
  { shelf with taken := shelf.taken.filter fun index => shelf.base + geometry.start index ∉ addrs }

namespace Shelf

variable {geometry : Geometry} {addrs others : List Addr} {shelf : Shelf} {addr : Addr}

theorem without_nil (geometry : Geometry) (shelf : Shelf) : shelf.without geometry [] = shelf := by
  simp [without]

theorem without_vacate : (shelf.vacate geometry addr).without geometry addrs = shelf.without geometry
    (addr :: addrs) := by
  simp only [without, vacate, Finset.filter_filter, List.mem_cons, not_or, ne_eq]

theorem without_perm (same : addrs.Perm others) : without geometry addrs = without geometry others := by
  funext shelf
  simp only [without, same.mem_iff]

theorem without_empty (empty : shelf.taken = ∅) : (shelf.without geometry addrs).taken = ∅ := by
  rw [without, empty, Finset.filter_empty]

end Shelf

namespace Stock

variable {geometry : Geometry} {interval : Nat} {stock : Stock} {shelves : List Shelf} {first second : List Addr}

def busy (shelves : List Shelf) : List Shelf :=
  shelves.filter (·.taken ≠ ∅)

/-- Releases slots one after the other, with the compactions that fall due. -/
def giveBack (geometry : Geometry) (interval : Nat) (addrs : List Addr) (stock : Stock) : Stock :=
  addrs.foldl (fun stock addr => (stock.vacate geometry addr).tally interval) stock

theorem busy_compacted (shelves : List Shelf) : busy (compacted shelves) = busy shelves := by
  unfold compacted
  split
  next empty =>
    have none (left : List Shelf) (among : left ⊆ shelves) : busy left = [] :=
      List.filter_eq_nil_iff.mpr fun shelf member => by simpa using empty shelf (among member)
    rw [none shelves (fun _ => id), none _ (List.take_subset 1 shelves)]
  next => rw [busy, List.filter_filter, busy]; simp only [Bool.and_self]

theorem busy_tally (stock : Stock) : busy (stock.tally interval).shelves = busy stock.shelves := by
  rw [tally]
  split
  · exact busy_compacted _
  · rfl

/-- Frames without a slot in use do not matter to what is in use later. -/
theorem busy_without (addrs : List Addr) (shelves : List Shelf) :
    busy (shelves.map (Shelf.without geometry addrs)) =
      busy ((busy shelves).map (Shelf.without geometry addrs)) := by
  rw [busy, List.filter_map, busy, busy, List.filter_map, List.filter_filter]
  congr 1
  apply List.filter_congr
  intro shelf _
  by_cases empty : shelf.taken = ∅
  · simp [empty, Shelf.without_empty]
  · simp [empty]

/-- What is in use after slots were released does not depend on the compactions in between. -/
theorem busy_giveBack (interval : Nat) (addrs : List Addr) (stock : Stock) :
    busy (stock.giveBack geometry interval addrs).shelves =
      busy (stock.shelves.map (Shelf.without geometry addrs)) := by
  induction addrs generalizing stock with
  | nil =>
    rw [List.map_congr_left fun shelf _ => Shelf.without_nil geometry shelf, List.map_id']
    rfl
  | cons addr rest ih =>
    calc busy (giveBack geometry interval rest ((stock.vacate geometry addr).tally interval)).shelves
      _ = busy (((stock.vacate geometry addr).tally interval).shelves.map (Shelf.without geometry rest)) := ih _
      _ = busy ((stock.vacate geometry addr).shelves.map (Shelf.without geometry rest)) := by
        rw [busy_without, busy_tally, ← busy_without]
      _ = busy (stock.shelves.map (Shelf.without geometry (addr :: rest))) := by
        rw [vacate, List.map_map]
        exact congrArg busy (List.map_congr_left fun shelf _ => Shelf.without_vacate)

/-- The count of releases runs from zero up to the interval. -/
theorem releases_giveBack (addrs : List Addr) (stock : Stock) :
    (stock.giveBack geometry interval addrs).releases =
      (fun count => if interval ≤ count + 1 then 0 else count + 1)^[addrs.length] stock.releases := by
  induction addrs generalizing stock with
  | nil => rfl
  | cons addr rest ih =>
    have counted : ((stock.vacate geometry addr).tally interval).releases =
        if interval ≤ stock.releases + 1 then 0 else stock.releases + 1 := by
      rw [tally]
      exact apply_ite Stock.releases ..
    rw [List.length_cons, Function.iterate_succ_apply, ← counted]
    exact ih _

theorem compacted_sublist (shelves : List Shelf) : (compacted shelves).Sublist shelves := by
  unfold compacted
  split
  next => exact List.take_sublist ..
  next => exact List.filter_sublist

theorem compacted_ne_nil (some : shelves ≠ []) : compacted shelves ≠ [] := by
  obtain ⟨shelf, rest, rfl⟩ := List.exists_cons_of_ne_nil some
  unfold compacted
  split
  next =>
    exact List.cons_ne_nil _ _
  next used =>
    intro none
    apply used
    intro other member
    simpa using List.filter_eq_nil_iff.mp none other member

theorem giveBack_ne_nil (addrs : List Addr) (some : stock.shelves ≠ []) :
    (stock.giveBack geometry interval addrs).shelves ≠ [] := by
  induction addrs generalizing stock with
  | nil => exact some
  | cons addr rest ih =>
    have vacated : (stock.vacate geometry addr).shelves ≠ [] := by simpa [vacate] using some
    have counted : ((stock.vacate geometry addr).tally interval).shelves ≠ [] := by
      rw [tally]
      split
      · exact compacted_ne_nil vacated
      · exact vacated
    exact ih counted

private theorem compacted_of_busy (used : busy shelves ≠ []) : compacted shelves = busy shelves := by
  refine if_neg fun empty => used ?_
  exact List.filter_eq_nil_iff.mpr fun shelf member => by simpa using empty shelf member

private theorem compacted_of_bare (some : shelves ≠ []) (bare : busy shelves = []) :
    ∃ base, compacted shelves = [⟨base, ∅⟩] := by
  have empty : ∀ shelf ∈ shelves, shelf.taken = ∅ := fun shelf member => by
    simpa using List.filter_eq_nil_iff.mp bare shelf member
  obtain ⟨shelf, rest, rfl⟩ := List.exists_cons_of_ne_nil some
  refine ⟨shelf.base, (if_pos empty).trans ?_⟩
  rw [← empty shelf List.mem_cons_self]
  rfl

/-- Compaction parts the frames into those that go and those that stay. -/
theorem perm_shed (distinct : (shelves.map Shelf.base).Nodup) :
    (shelves.map Shelf.base).Perm (shed shelves ++ (compacted shelves).map Shelf.base) := by
  have among : ∀ base ∈ (compacted shelves).map Shelf.base, base ∈ shelves.map Shelf.base := by
    intro base member
    obtain ⟨shelf, left, rfl⟩ := List.mem_map.mp member
    exact List.mem_map_of_mem (mem_of_mem_compacted left)
  have stays : ((shelves.map Shelf.base).filter (· ∈ (compacted shelves).map Shelf.base)).Perm
      ((compacted shelves).map Shelf.base) := by
    apply (List.perm_ext_iff_of_nodup (distinct.filter _)
      (distinct.sublist ((compacted_sublist shelves).map _))).mpr
    intro base
    rw [List.mem_filter, decide_eq_true_iff]
    exact and_iff_right_of_imp (among base)
  have parts := List.filter_append_perm (· ∈ (compacted shelves).map Shelf.base) (shelves.map Shelf.base)
  rw [shed_eq distinct]
  refine parts.symm.trans ((stays.append (List.Perm.of_eq ?_)).trans List.perm_append_comm |>.trans
    ((List.reverse_perm _).symm.append_right _))
  simp only [decide_not]

/-- As long as a slot stays in use, the order does not matter. -/
theorem compact_giveBack_eq (same : first.Perm second)
    (used : busy (stock.shelves.map (Shelf.without geometry first)) ≠ []) :
    (stock.giveBack geometry interval first).compact = (stock.giveBack geometry interval second).compact := by
  have busy_eq : busy (stock.giveBack geometry interval first).shelves =
      busy (stock.giveBack geometry interval second).shelves := by
    rw [busy_giveBack, busy_giveBack, Shelf.without_perm same]
  rw [← busy_giveBack interval] at used
  rw [compact, compact, compacted_of_busy used, busy_eq, compacted_of_busy (busy_eq ▸ used), releases_giveBack,
    releases_giveBack, same.length_eq]

/-- No frame is in use once all slots that were handed out are released. -/
theorem busy_without_eq_nil {addrs : List Addr} : busy (stock.shelves.map (Shelf.without geometry addrs)) = [] ↔
    ∀ addr, stock.Holds geometry addr → addr ∈ addrs := by
  rw [busy, List.filter_eq_nil_iff]
  constructor
  · rintro bare _ ⟨shelf, member, index, used, rfl⟩
    by_contra kept
    apply bare _ (List.mem_map_of_mem member)
    apply decide_eq_true
    exact Finset.ne_empty_of_mem (Finset.mem_filter.mpr ⟨used, kept⟩)
  · intro every shelf member
    obtain ⟨old, listed, rfl⟩ := List.mem_map.mp member
    rw [decide_eq_true_iff, not_not]
    apply Finset.filter_eq_empty_iff.mpr
    intro index used kept
    exact kept (every _ ⟨old, listed, index, used, rfl⟩)

theorem compact_giveBack_bare (interval : Nat) (some : stock.shelves ≠ [])
    (bare : busy (stock.shelves.map (Shelf.without geometry first)) = []) :
    ∃ base, (stock.giveBack geometry interval first).compact.shelves = [⟨base, ∅⟩] := by
  rw [← busy_giveBack interval] at bare
  exact compacted_of_bare (giveBack_ne_nil first some) bare

end Stock

/-- A chain follows from its nodes. -/
theorem Chain.Lists.unique {chain other : Chain} {memory changed : Memory} {nodes : List Nat}
    (lists : chain.Lists memory nodes) (again : other.Lists changed nodes) : chain = other := by
  obtain ⟨head, tail, length⟩ := chain
  obtain ⟨head', tail', length'⟩ := other
  rw [Chain.mk.injEq]
  exact ⟨lists.head.trans again.head.symm, lists.tail.trans again.tail.symm, lists.length.trans again.length.symm⟩

namespace Pool

variable {pool other : Pool} {memory changed : Memory} {addr : Addr} {addrs : List Addr}

private theorem bitmap_determined {geometry : Geometry} {block block' : Block}
    (valid : Frame.Valid geometry block) (valid' : Frame.Valid geometry block')
    (same : (Frame.taken geometry block').toFinset = (Frame.taken geometry block).toFinset) :
    Frame.bitmap geometry block' = Frame.bitmap geometry block := by
  apply Bitmap.eq_of_has
  · rw [Frame.length_bitmap, Frame.length_bitmap]
  intro index tracked
  rw [Frame.length_bitmap] at tracked
  by_cases inside : index < geometry.slots
  · have used : index ∈ Frame.taken geometry block' ↔ index ∈ Frame.taken geometry block := by
      rw [← List.mem_toFinset, same, List.mem_toFinset]
    simpa only [Frame.mem_taken, inside, true_and, ← Bool.eq_iff_iff] using used
  · have beyond := Nat.le_of_not_lt inside
    rw [valid.padding index beyond tracked, valid'.padding index beyond tracked]

/-- What a pool has in memory follows from its frames without their memory. -/
theorem Valid.determined (valid : pool.Valid memory) (valid' : other.Valid changed)
    (geometry : other.geometry = pool.geometry) (interval : other.interval = pool.interval)
    (same : other.stock changed = pool.stock memory) :
    other = pool ∧ ∀ base ∈ pool.owners,
      Frame.bitmap pool.geometry (changed.block base) = Frame.bitmap pool.geometry (memory.block base) ∧
        Frame.occupied (changed.block base) = Frame.occupied (memory.block base) := by
  obtain ⟨nodes, lists, order⟩ := valid.lists
  obtain ⟨nodes', lists', order'⟩ := valid'.lists
  obtain rfl : nodes' = nodes := by rw [← bases_eq lists', same, bases_eq lists]
  have chain : other.frames = pool.frames := lists'.unique lists
  have owners : other.owners = pool.owners :=
    (order'.symm.trans order).eq_of_pairwise (fun _ _ _ _ less more => absurd less (Nat.lt_asymm more))
      valid'.sorted valid.sorted
  have releases : other.releases = pool.releases := congrArg Stock.releases same
  refine ⟨?_, fun base member => ?_⟩
  · obtain ⟨_, _, _, _, _⟩ := other
    obtain ⟨_, _, _, _, _⟩ := pool
    rw [Pool.mk.injEq]
    exact ⟨geometry, chain, owners, releases, interval⟩
  · obtain ⟨block, found, frame⟩ := valid.frames base member
    obtain ⟨block', found', frame'⟩ := valid'.frames base (owners ▸ member)
    rw [geometry] at frame'
    have shelves := congrArg Stock.shelves same
    rw [shelves_eq lists, shelves_eq lists', geometry] at shelves
    have alike := congrArg Shelf.taken (List.map_inj_left.mp shelves base (order.mem_iff.mpr member))
    rw [shelf, shelf, Memory.block_eq found, Memory.block_eq found'] at alike
    have words := bitmap_determined frame frame' alike
    rw [Memory.block_eq found, Memory.block_eq found', frame.occupied, frame'.occupied, Frame.taken_eq words]
    exact ⟨words, rfl⟩

variable [Host σ]

def releaseAll : List Addr → Action σ ω Unit
  | [] => return ()
  | addr :: rest => do
    release addr
    releaseAll rest

def drain (addrs : List Addr) : Action σ ω Unit := do
  releaseAll addrs
  let _ ← compact

variable [LawfulHost σ] {arena : Arena σ (Books ω)} {locked : List Extent}
  {before middle after : Pool × Arena σ (Books ω)}
  {bases others : List Addr}

/-- Frames of a pool have gone back to the host, and nothing else was asked of it. -/
structure Sheds (bases : List Addr) (before after : Pool × Arena σ (Books ω)) : Prop where
  geometry : after.1.geometry = before.1.geometry
  interval : after.1.interval = before.1.interval
  paged : after.2.pageSize = before.2.pageSize
  split : ((view before).shelves.map Shelf.base).Perm (bases ++ (view after).shelves.map Shelf.base)
  returned : Arena.Returned (bases.map fun base => (base, pageBytes before.2.pageSize before.1.frameLen)) before.2
    after.2

omit [Host σ] [LawfulHost σ] in
theorem Sheds.trans (first : Sheds bases before middle) (second : Sheds others middle after) :
    Sheds (bases ++ others) before after where
  geometry := second.geometry.trans first.geometry
  interval := second.interval.trans first.interval
  paged := second.paged.trans first.paged
  split := by
    rw [List.append_assoc]
    exact first.split.trans (second.split.append_left bases)
  returned := by
    have later := second.returned
    rw [first.paged, frameLen, first.geometry] at later
    rw [List.map_append]
    exact first.returned.trans later

theorem Sound.compact_sheds (sound : Sound locked pool arena) :
    compact.Ends (pool, arena) fun _ after => ∃ bases, Sheds bases (pool, arena) after := by
  refine sound.compact_spec.imp ?_
  rintro count after ⟨compacted, shelved, returned⟩
  have distinct : ((view (pool, arena)).shelves.map Shelf.base).Nodup := by
    obtain ⟨nodes, lists, -⟩ := sound.valid.lists
    rw [view, bases_eq lists]
    exact lists.nodup
  refine ⟨_, compacted.changes.geometry, compacted.changes.interval, compacted.changes.steady.paged, ?_, returned⟩
  rw [shelved]
  exact Stock.perm_shed distinct

private theorem Sound.countRelease_sheds (sound : Sound locked pool arena) :
    countRelease.Ends (pool, arena) fun _ after => ∃ bases, Sheds bases (pool, arena) after := by
  obtain ⟨due, word⟩ := sound.valid.cadence
  have counted : Size.add pool.releases 1 = .ok (pool.releases + 1) := Size.add_ok (by omega)
  simp only [countRelease, put, Run.meets_bind, Run.meets_get, Run.meets_lift counted]
  split
  next full =>
    have reset : Sound locked { pool with releases := 0 } arena := sound.recount (by omega)
    simp only [Run.meets_bind, Run.meets_modify]
    refine reset.compact_sheds.imp ?_
    rintro _ after ⟨bases, sheds⟩
    simp only [Run.meets_pure]
    exact ⟨bases, sheds.geometry, sheds.interval, sheds.paged, sheds.split, sheds.returned⟩
  next more =>
    simp only [Run.meets_modify]
    exact ⟨[], rfl, rfl, rfl, .refl _, .refl arena⟩

theorem Sound.release_sheds (sound : Sound locked pool arena) (taken : addr ∈ pool.live arena.machine.memory) :
    (release addr).Ends (pool, arena) fun _ after => ∃ bases, Sheds bases (pool, arena) after := by
  obtain ⟨vacated, same, sound', changes, -, silent, shelved⟩ := sound.release_eq taken
  have first : Sheds [] (pool, arena) (pool, vacated) := by
    refine ⟨rfl, rfl, changes.steady.paged, ?_, silent.returned⟩
    rw [shelved, Stock.bases_vacate]
    exact .refl _
  rw [Run.Ends, Run.meets_congr same]
  refine sound'.countRelease_sheds.imp ?_
  rintro _ after ⟨bases, second⟩
  exact ⟨[] ++ bases, first.trans second⟩

/-- A run of releases is a run of releases of the frames without their memory. -/
theorem Sound.releaseAll_spec (sound : Sound locked pool arena) (nodup : addrs.Nodup)
    (taken : ∀ addr ∈ addrs, addr ∈ pool.live arena.machine.memory) :
    (releaseAll addrs).Ends (pool, arena) fun _ after => Sound locked after.1 after.2 ∧
      view after = (view (pool, arena)).giveBack pool.geometry pool.interval addrs ∧
      ∃ bases, Sheds bases (pool, arena) after := by
  -- What is still to be released stays in use until its turn comes.
  induction addrs generalizing pool arena with
  | nil =>
    simp only [releaseAll, Run.meets_pure]
    exact ⟨sound, rfl, [], rfl, rfl, rfl, .refl _, .refl arena⟩
  | cons addr rest ih =>
    obtain ⟨fresh, nodup⟩ := List.nodup_cons.mp nodup
    have held := taken addr List.mem_cons_self
    simp only [releaseAll, Run.meets_bind]
    refine ((sound.release_spec held).and (sound.release_sheds held)).mono ?_ fun _ _ stopped => stopped.1
    rintro _ ⟨middle, later⟩ ⟨⟨sound', changes, freed, shelved⟩, bases, first⟩
    have onward : ∀ other ∈ rest, other ∈ middle.live later.machine.memory := by
      intro other member
      have still := freed.mem_iff.mp (taken other (List.mem_cons_of_mem _ member))
      exact (List.mem_cons.mp still).resolve_left fun same => fresh (same ▸ member)
    refine (ih sound' nodup onward).imp ?_
    rintro _ after ⟨sound'', rest, others, second⟩
    rw [shelved, changes.geometry, changes.interval] at rest
    exact ⟨sound'', rest, bases ++ others, first.trans second⟩

theorem Sound.drain_spec (sound : Sound locked pool arena) (nodup : addrs.Nodup)
    (taken : ∀ addr ∈ addrs, addr ∈ pool.live arena.machine.memory) :
    (drain addrs).Ends (pool, arena) fun _ after => Sound locked after.1 after.2 ∧
      view after = ((view (pool, arena)).giveBack pool.geometry pool.interval addrs).compact ∧
      ∃ bases, Sheds bases (pool, arena) after := by
  simp only [drain, Run.meets_bind]
  refine (sound.releaseAll_spec nodup taken).imp ?_
  rintro _ ⟨middle, later⟩ ⟨sound', shelved, bases, first⟩
  refine (sound'.compact_spec.and sound'.compact_sheds).mono ?_ fun _ _ stopped => stopped.1
  rintro _ after ⟨⟨compacted, view, -⟩, others, second⟩
  rw [shelved] at view
  simp only [Run.meets_pure]
  exact ⟨compacted.sound, view, bases ++ others, first.trans second⟩

/-- Two runs from one arena leave a pool the same frames, and the host the same blocks. -/
structure Alike (start : Arena σ (Books ω)) (after other : Pool × Arena σ (Books ω)) : Prop where
  pool : other.1 = after.1
  frames : ∃ nodes, after.1.frames.nodes after.2.machine.memory = .ok nodes ∧
    other.1.frames.nodes other.2.machine.memory = .ok nodes ∧ ∀ base ∈ nodes,
      Frame.bitmap after.1.geometry (other.2.machine.memory.block base) =
          Frame.bitmap after.1.geometry (after.2.machine.memory.block base) ∧
        Frame.occupied (other.2.machine.memory.block base) = Frame.occupied (after.2.machine.memory.block base)
  returned : ∃ blocks others, Arena.Returned blocks start after.2 ∧ Arena.Returned others start other.2 ∧
    blocks.Perm others

def Lone (state : Pool × Arena σ (Books ω)) : Prop :=
  state.1.frameCount = 1 ∧ ∃ base, state.1.frames.nodes state.2.machine.memory = .ok [base] ∧
    Frame.occupied (state.2.machine.memory.block base) = 0 ∧
    ∀ index, index < state.1.geometry.slots →
      (Frame.bitmap state.1.geometry (state.2.machine.memory.block base)).has index = false

theorem Sound.lone (sound : Sound locked pool arena) (base : Addr)
    (single : (view (pool, arena)).shelves = [⟨base, ∅⟩]) : Lone (pool, arena) := by
  have valid := sound.valid
  have shelved : (pool.stock arena.machine.memory).shelves = [⟨base, ∅⟩] := single
  have nodes := valid.nodes_eq
  rw [shelved] at nodes
  have listed : (⟨base, ∅⟩ : Shelf) ∈ (pool.stock arena.machine.memory).shelves := by
    rw [shelved]
    exact List.mem_cons_self
  obtain ⟨owned, shape⟩ := valid.mem_shelves listed
  obtain ⟨block, found, frame⟩ := valid.frames base owned
  have empty : Frame.taken pool.geometry block = [] := by
    have taken := congrArg Shelf.taken shape
    rw [shelf, Memory.block_eq found] at taken
    exact List.toFinset_eq_empty_iff _ |>.mp taken.symm
  refine ⟨?_, base, nodes, ?_, fun index inside => ?_⟩
  · rw [valid.frameCount_eq, shelved]
    rfl
  · rw [Memory.block_eq found, frame.occupied, empty]
    rfl
  · rw [Memory.block_eq found, Bool.eq_false_iff]
    intro used
    have member := Frame.mem_taken.mpr ⟨inside, used⟩
    rw [empty] at member
    cases member

theorem Sheds.alike {other : Pool × Arena σ (Books ω)} (sheds : Sheds bases before after)
    (sheds' : Sheds others before other) (sound : Sound locked after.1 after.2)
    (sound' : Sound locked other.1 other.2) (same : view other = view after) :
    Alike before.2 after other := by
  have geometry := sheds'.geometry.trans sheds.geometry.symm
  obtain ⟨equal, frames⟩ :=
    sound.valid.determined sound'.valid geometry (sheds'.interval.trans sheds.interval.symm) same
  have split := sheds'.split
  rw [same] at split
  refine ⟨equal, ⟨_, sound.valid.nodes_eq, ?_, fun base member => frames base (sound.valid.mem_bases.mp member)⟩,
    ⟨_, _, sheds.returned, sheds'.returned, ?_⟩⟩
  · rw [sound'.valid.nodes_eq]
    exact congrArg (fun stock => Except.ok (stock.shelves.map Shelf.base)) same
  · exact ((List.perm_append_right_iff _).mp (sheds.split.symm.trans split)).map _

end Pool

namespace Session

variable [Host σ] [LawfulHost σ] {session : Session σ ω} {source : Source} {pool : Pool}
  {first second : List Addr}

/-- Up to compaction, it does not matter in which order slots are released. -/
theorem Attained.drains (attained : Attained session) (here : session.pool? source = some pool)
    (same : first.Perm second) (some : first ≠ []) (distinct : first.Nodup)
    (held : ∀ addr ∈ first, session.HandedOut source addr) :
    ∃ after other, Pool.drain first (pool, session.arena) = .ok () after ∧
      Pool.drain second (pool, session.arena) = .ok () other ∧
      ((∃ addr, session.HandedOut source addr ∧ addr ∉ first) → Pool.Alike session.arena after other) ∧
      ((∀ addr, session.HandedOut source addr → addr ∈ first) →
        Pool.Lone after ∧ Pool.Lone other ∧ other.1.releases = after.1.releases) := by
  obtain ⟨locked, sound⟩ := attained.sound.focus here
  have taken : ∀ addr ∈ first, addr ∈ pool.live session.memory := fun addr member =>
    (attained.sound.handedOut_iff here).mp (held addr member)
  obtain ⟨_, after, ran, sound', shelved, bases, sheds⟩ := (sound.drain_spec distinct taken).exists_ok
  obtain ⟨_, other, ran', sound'', shelved', others, sheds'⟩ := (sound.drain_spec (same.nodup_iff.mp distinct)
    fun addr member => taken addr (same.mem_iff.mpr member)).exists_ok
  have holds_iff (addr : Addr) : (pool.stock session.memory).Holds pool.geometry addr ↔
      session.HandedOut source addr :=
    sound.valid.holds_iff.trans (attained.sound.handedOut_iff here).symm
  refine ⟨after, other, ran, ran', ?_, fun every => ?_⟩
  · rintro ⟨addr, kept, free⟩
    have used : Stock.busy ((pool.stock session.memory).shelves.map (Shelf.without pool.geometry first)) ≠
        [] := fun bare =>
      free (Stock.busy_without_eq_nil.mp bare addr ((holds_iff addr).mpr kept))
    exact sheds.alike sheds' sound' sound''
      (shelved'.trans ((Stock.compact_giveBack_eq same used).symm.trans shelved.symm))
  · have bare : Stock.busy ((pool.stock session.memory).shelves.map (Shelf.without pool.geometry first)) = [] :=
      Stock.busy_without_eq_nil.mpr fun addr holds => every addr ((holds_iff addr).mp holds)
    have bare' := bare
    rw [Shelf.without_perm same] at bare'
    have framed : (pool.stock session.memory).shelves ≠ [] := by
      obtain ⟨addr, rest, rfl⟩ := List.exists_cons_of_ne_nil some
      obtain ⟨shelf, member, -⟩ := (holds_iff addr).mpr (held addr List.mem_cons_self)
      exact List.ne_nil_of_mem member
    obtain ⟨base, single⟩ := Stock.compact_giveBack_bare pool.interval framed bare
    obtain ⟨base', single'⟩ := Stock.compact_giveBack_bare pool.interval framed bare'
    refine ⟨sound'.lone base ?_, sound''.lone base' ?_, ?_⟩
    · rw [Prod.mk.eta, shelved]
      exact single
    · rw [Prod.mk.eta, shelved']
      exact single'
    · change (Pool.view other).releases = (Pool.view after).releases
      rw [shelved, shelved', Stock.compact, Stock.compact, Stock.releases_giveBack,
        Stock.releases_giveBack, same.length_eq]

/-- The second release is followed by a compaction, which takes another frame away in either order. -/
theorem drains_of_handmade : ∃ (session : Session (Quota Kernel) (Option Addr)) (pool : Pool)
    (after other : Pool × Arena (Quota Kernel) (Books (Option Addr))), handmade = some session ∧
      session.pool? (.dedicated 0) = some pool ∧
      Pool.drain [0x10000000030, 0x20000000030, 0x20000000058] (pool, session.arena) = .ok () after ∧
      Pool.drain [0x20000000058, 0x20000000030, 0x10000000030] (pool, session.arena) = .ok () other ∧
      Pool.Alike session.arena after other := by
  have ended : (handmade.bind fun session => (session.pool? (.dedicated 0)).map fun pool =>
      ([0x10000000030, 0x20000000030, 0x20000000058].all fun addr =>
        decide (session.HandedOut (.dedicated 0) addr),
        decide (session.HandedOut (.dedicated 0) 0x30000000030))) = some (true, true) := by decide +kernel
  obtain ⟨session, made, ended⟩ := Option.bind_eq_some_iff.mp ended
  obtain ⟨pool, here, decided⟩ := Option.map_eq_some_iff.mp ended
  rw [Prod.mk.injEq, List.all_eq_true, decide_eq_true_iff] at decided
  obtain ⟨held, kept⟩ := decided
  have same : [0x10000000030, 0x20000000030, 0x20000000058].Perm
      [0x20000000058, 0x20000000030, 0x10000000030] := by decide
  obtain ⟨after, other, ran, ran', alike, -⟩ :=
    (attained_of_handmade made).drains here same (by decide) (by decide)
    fun addr member => of_decide_eq_true (held addr member)
  exact ⟨session, pool, after, other, made, here, ran, ran', alike ⟨_, kept, by decide⟩⟩

end Session
end SlabAllocator
