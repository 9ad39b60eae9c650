import SlabAllocator.Proofs.Compaction
import SlabAllocator.Proofs.Slots

/-! Pools that share an arena, kept in a table. An action on one of them leaves the slots of
all the others as they are, because their frames are locked meanwhile. -/

namespace SlabAllocator

/-- A table of pools, some of its places empty. -/
abbrev Entries := Array (Option Pool)

namespace Entries

def pools (entries : Entries) : List Pool :=
  entries.toList.filterMap id

def extents (pageSize : Nat) (entries : Entries) : List Extent :=
  entries.pools.flatMap (Pool.extents pageSize)

def frameCount (entries : Entries) : Nat :=
  (entries.pools.map Pool.frameCount).sum

def live (entries : Entries) (memory : Memory) (index : Nat) : List Nat :=
  entries[index]?.join.elim [] (·.live memory)

def chained (entries : Entries) (pageSize : Nat) (memory : Memory) (index : Nat) : List Extent :=
  entries[index]?.join.elim [] (·.chained pageSize memory)

def without (entries : Entries) (index : Nat) : Entries :=
  entries.setIfInBounds index none

variable {entries : Entries} {pool : Pool} {memory changed : Memory} {index other : Nat}

theorem mem_pools : pool ∈ entries.pools ↔ ∃ index : Nat, entries[index]? = some (some pool) := by
  simp only [pools, List.mem_filterMap, id_eq, exists_eq_right, Array.mem_toList_iff, Array.mem_iff_getElem?]

theorem lt_size (here : entries[index]? = some (some pool)) : index < entries.size :=
  (Array.getElem?_eq_some_iff.mp here).1

theorem set_self {entry : Option Pool} (here : entries[index]? = some entry) :
    entries.setIfInBounds index entry = entries := by
  refine Array.ext_getElem? fun place => ?_
  obtain ⟨inside, -⟩ := Array.getElem?_eq_some_iff.mp here
  by_cases same : index = place
  · rw [← same, Array.getElem?_setIfInBounds_self_of_lt inside, here]
  · rw [Array.getElem?_setIfInBounds_ne same]

theorem pools_set (inside : index < entries.size) (entry : Option Pool) :
    (pools (entries.setIfInBounds index entry)).Perm (entry.toList ++ (entries.without index).pools) := by
  have split : ∀ entry : Option Pool, pools (entries.setIfInBounds index entry) =
      (entries.toList.take index).filterMap id ++
        (entry.toList ++ (entries.toList.drop (index + 1)).filterMap id) := by
    intro entry
    rw [pools, Array.toList_setIfInBounds, List.set_eq_take_append_cons_drop, Array.length_toList, if_pos inside,
      List.filterMap_append]
    cases entry <;> rfl
  rw [without, split, split, ← List.append_assoc, ← List.append_assoc]
  exact List.perm_append_comm.append_right _

theorem pools_split (here : entries[index]? = some (some pool)) :
    entries.pools.Perm (pool :: (entries.without index).pools) := by
  have split := pools_set (lt_size here) (some pool)
  rwa [set_self here] at split

theorem live_set_self (inside : index < entries.size) (pool : Pool) (memory : Memory) :
    live (entries.setIfInBounds index (some pool)) memory index = pool.live memory := by
  rw [live, Array.getElem?_setIfInBounds_self_of_lt inside]
  rfl

theorem live_set_of_ne (entry : Option Pool) (memory : Memory) (different : index ≠ other) :
    live (entries.setIfInBounds index entry) memory other = entries.live memory other := by
  rw [live, Array.getElem?_setIfInBounds_ne different, live]

theorem live_eq (here : entries[index]? = some (some pool)) (memory : Memory) :
    entries.live memory index = pool.live memory := by
  rw [live, here]
  rfl

theorem live_congr (same : ∀ pool, entries[index]? = some (some pool) → pool.live changed = pool.live memory) :
    entries.live changed index = entries.live memory index := by
  rw [live, live]
  cases found : entries[index]?.join with
  | none => rw [Option.elim_none, Option.elim_none]
  | some pool => rw [Option.elim_some, Option.elim_some, same pool (Option.join_eq_some_iff.mp found)]

theorem exists_of_mem_live {addr : Nat} (taken : addr ∈ entries.live memory index) :
    ∃ pool, entries[index]? = some (some pool) ∧ addr ∈ pool.live memory := by
  rw [live] at taken
  cases found : entries[index]?.join with
  | none =>
    rw [found, Option.elim_none] at taken
    exact absurd taken List.not_mem_nil
  | some pool =>
    rw [found, Option.elim_some] at taken
    exact ⟨pool, Option.join_eq_some_iff.mp found, taken⟩

theorem mem_extents (here : entries[index]? = some (some pool)) {base : Nat} (owned : base ∈ pool.owners)
    (pageSize : Nat) : (base, pageBytes pageSize pool.frameLen) ∈ entries.extents pageSize :=
  List.mem_flatMap.mpr ⟨pool, mem_pools.mpr ⟨index, here⟩, Pool.mem_extents owned⟩

theorem mem_without (different : index ≠ other) (there : entries[other]? = some (some pool)) {base : Nat}
    (owned : base ∈ pool.owners) (pageSize : Nat) :
    (base, pageBytes pageSize pool.frameLen) ∈ (entries.without index).extents pageSize :=
  mem_extents (show (entries.without index)[other]? = some (some pool) by
    rw [without, Array.getElem?_setIfInBounds_ne different]; exact there) owned pageSize

section Actions

variable [Host σ] [LawfulHost σ]
variable {arena later : Arena σ (Books ω)} {given more locked : List Extent}

/-- Pools in an arena where all their frames are locked. -/
structure Sound (locked : List Extent) (entries : Entries) (arena : Arena σ (Books ω)) : Prop where
  accounts : Arena.Sound (entries.extents arena.pageSize ++ locked) arena
  valid : ∀ (index : Nat) pool, entries[index]? = some (some pool) → pool.Valid arena.machine.memory

/-- What no action changes: the slots that stay in use keep their bytes. -/
structure Changes (locked : List Extent) (before after : Entries × Arena σ (Books ω)) : Prop where
  steady : Arena.Steady locked before.2 after.2
  errands : after.2.env.errands = before.2.env.errands
  slots : ∀ (index : Nat) old new addr, before.1[index]? = some (some old) → after.1[index]? = some (some new) →
    addr ∈ old.live before.2.machine.memory → addr ∈ new.live after.2.machine.memory →
    new.entitySize = old.entitySize ∧
      ∀ count, count ≤ old.entitySize →
        after.2.machine.memory.read addr count = before.2.machine.memory.read addr count

omit [LawfulHost σ] [Host σ] in
theorem extents_split (here : entries[index]? = some (some pool)) (pageSize : Nat) (locked : List Extent) :
    (entries.extents pageSize ++ locked).Perm
      (pool.extents pageSize ++ ((entries.without index).extents pageSize ++ locked)) := by
  rw [← List.append_assoc]
  exact ((pools_split here).flatMap_right (Pool.extents pageSize)).append_right locked

theorem Sound.frameCount_eq (sound : Sound locked entries arena) (pageSize : Nat) :
    entries.frameCount = (entries.extents pageSize).length := by
  rw [frameCount, extents, List.length_flatMap]
  refine congrArg List.sum (List.map_congr_left fun pool member => ?_)
  obtain ⟨index, here⟩ := mem_pools.mp member
  obtain ⟨nodes, lists, order⟩ := (sound.valid index pool here).lists
  rw [Pool.frameCount, lists.length, order.length_eq, Pool.extents, List.length_map]

theorem Sound.focus (sound : Sound locked entries arena) (here : entries[index]? = some (some pool)) :
    Pool.Sound ((entries.without index).extents arena.pageSize ++ locked) pool arena :=
  ⟨sound.accounts.perm (extents_split here arena.pageSize locked), sound.valid index pool here⟩

omit [LawfulHost σ] [Host σ] in
/-- A pool whose frames are locked is left alone. -/
private theorem steady_frames (steady : Arena.Steady (entries.extents arena.pageSize ++ locked) arena later)
    (here : entries[index]? = some (some pool)) :
    ∀ base ∈ pool.owners, later.machine.memory.find? base = arena.machine.memory.find? base := fun base member =>
  steady.locked (base, pageBytes arena.pageSize pool.frameLen)
    (List.mem_append_left _ (mem_extents here member arena.pageSize))

omit [LawfulHost σ] [Host σ] in
theorem Changes.trans {before middle after : Entries × Arena σ (Books ω)} (first : Changes locked before middle)
    (second : Changes locked middle after)
    (through : ∀ index addr, addr ∈ before.1.live before.2.machine.memory index →
      addr ∈ after.1.live after.2.machine.memory index → addr ∈ middle.1.live middle.2.machine.memory index) :
    Changes locked before after := by
  refine ⟨first.steady.trans second.steady, second.errands.trans first.errands, ?_⟩
  intro index old new addr here here' taken taken'
  obtain ⟨between, there, kept⟩ := exists_of_mem_live
    (through index addr (by rw [live_eq here]; exact taken) (by rw [live_eq here']; exact taken'))
  obtain ⟨same, read⟩ := first.slots index old between addr here there taken kept
  obtain ⟨same', read'⟩ := second.slots index between new addr there here' kept taken'
  exact ⟨same'.trans same, fun count short => (read' count (by rw [same]; exact short)).trans (read count short)⟩

omit [LawfulHost σ] [Host σ] in
/-- So is every pool but one whose own frames are the only ones not locked. -/
theorem untouched_without
    (steady : Arena.Steady ((entries.without index).extents arena.pageSize ++ locked) arena later)
    (different : index ≠ other) (here : entries[other]? = some (some pool)) :
    Pool.Untouched (pool, arena.machine.memory) (pool, later.machine.memory) :=
  ⟨rfl, steady_frames steady ((Array.getElem?_setIfInBounds_ne different).trans here)⟩

/-- The frames of the other pools stay where they are. -/
theorem Sound.chained_without (sound : Sound locked entries arena)
    (steady : Arena.Steady ((entries.without index).extents arena.pageSize ++ locked) arena later)
    (different : index ≠ other) :
    (entries.without index).chained later.pageSize later.machine.memory other =
      entries.chained arena.pageSize arena.machine.memory other := by
  have there : (entries.without index)[other]? = entries[other]? := Array.getElem?_setIfInBounds_ne different
  rw [chained, chained, there, steady.paged]
  cases found : entries[other]?.join with
  | none => rfl
  | some pool =>
    have here := Option.join_eq_some_iff.mp found
    exact (sound.valid other pool here).chained_congr (untouched_without steady different here).2 arena.pageSize

/-- What becomes of the table when no pool is touched. -/
theorem Sound.still (sound : Sound given entries arena)
    (accounts : Arena.Sound (entries.extents arena.pageSize ++ more) later)
    (steady : Arena.Steady (entries.extents arena.pageSize ++ locked) arena later)
    (errands : later.env.errands = arena.env.errands) :
    Sound more entries later ∧ Changes locked (entries, arena) (entries, later) ∧
      ∀ index, entries.live later.machine.memory index = entries.live arena.machine.memory index := by
  have kept : ∀ (index : Nat) pool, entries[index]? = some (some pool) →
      pool.Valid later.machine.memory ∧ pool.live later.machine.memory = pool.live arena.machine.memory :=
    fun index pool here => (sound.valid index pool here).congr (steady_frames steady here)
  refine ⟨⟨by rw [steady.paged]; exact accounts, fun index pool here => (kept index pool here).1⟩, ?_,
    fun index => live_congr fun pool here => (kept index pool here).2⟩
  refine ⟨steady.mono fun _ => List.mem_append_right _, errands, fun index old new addr here here' taken _ => ?_⟩
  rw [here] at here'
  cases here'
  exact ⟨rfl, fun count => (sound.valid index old here).read_slot sound.accounts.machine.spread
    accounts.machine.spread (steady_frames steady here) taken⟩

/-- What becomes of the table when one entry is replaced, and nothing that is locked changes. -/
private theorem Sound.replace (sound : Sound locked entries arena) (inside : index < entries.size)
    (entry : Option Pool) (accounts : Arena.Sound (entry.toList.flatMap (Pool.extents later.pageSize) ++
      ((entries.without index).extents arena.pageSize ++ locked)) later)
    (valid : ∀ new, entry = some new → new.Valid later.machine.memory)
    (steady : Arena.Steady ((entries.without index).extents arena.pageSize ++ locked) arena later)
    (errands : later.env.errands = arena.env.errands)
    (slots : ∀ old new addr, entries[index]? = some (some old) → entry = some new →
      addr ∈ old.live arena.machine.memory →
      addr ∈ new.live later.machine.memory → new.entitySize = old.entitySize ∧ ∀ count, count ≤ old.entitySize →
        later.machine.memory.read addr count = arena.machine.memory.read addr count) :
    Sound locked (entries.setIfInBounds index entry) later ∧
      Changes locked (entries, arena) (entries.setIfInBounds index entry, later) ∧
      ∀ other, index ≠ other → live (entries.setIfInBounds index entry) later.machine.memory other =
        entries.live arena.machine.memory other := by
  have paged : later.pageSize = arena.pageSize := steady.paged
  have at_index : ∀ new, (entries.setIfInBounds index entry)[index]? = some (some new) → entry = some new := by
    intro new found
    rw [Array.getElem?_setIfInBounds_self_of_lt inside] at found
    exact Option.some.inj found
  have frames : ∀ (other : Nat) pool, index ≠ other → entries[other]? = some (some pool) →
      ∀ base ∈ pool.owners, later.machine.memory.find? base = arena.machine.memory.find? base :=
    fun other pool different there => steady_frames steady
      (show (entries.without index)[other]? = some (some pool) by
      rw [without, Array.getElem?_setIfInBounds_ne different]; exact there)
  refine ⟨⟨?_, fun other new found => ?_⟩, ⟨?_, errands, ?_⟩, fun other different => ?_⟩
  · have split := (pools_set inside entry).flatMap_right (Pool.extents later.pageSize)
    rw [List.flatMap_append] at split
    refine accounts.perm ?_
    rw [← paged, ← List.append_assoc]
    exact (split.append_right locked).symm
  · by_cases same : index = other
    · subst same
      exact valid new (at_index new found)
    · rw [Array.getElem?_setIfInBounds_ne same] at found
      exact ((sound.valid other new found).congr (frames other new same found)).1
  · exact steady.mono fun _ => List.mem_append_right _
  · intro other old new addr found found' taken taken'
    by_cases same : index = other
    · subst same
      exact slots old new addr found (at_index new found') taken taken'
    · rw [Array.getElem?_setIfInBounds_ne same, found] at found'
      cases found'
      exact ⟨rfl, fun count => (sound.valid other old found).read_slot sound.accounts.machine.spread
        accounts.machine.spread (frames other old same found) taken⟩
  · rw [live_set_of_ne _ _ different]
    exact live_congr fun pool there =>
      ((sound.valid other pool there).congr (frames other pool different there)).2

theorem Sound.act (sound : Sound locked entries arena) (here : entries[index]? = some (some pool))
    {after : Pool × Arena σ (Books ω)}
    (sound' : Pool.Sound ((entries.without index).extents arena.pageSize ++ locked) after.1 after.2)
    (changes : Pool.Changes ((entries.without index).extents arena.pageSize ++ locked) (pool, arena) after) :
    Sound locked (entries.setIfInBounds index (some after.1)) after.2 ∧
      Changes locked (entries, arena) (entries.setIfInBounds index (some after.1), after.2) ∧
      ∀ other, index ≠ other → live (entries.setIfInBounds index (some after.1)) after.2.machine.memory other =
        entries.live arena.machine.memory other := by
  refine sound.replace (lt_size here) (some after.1) (by simpa using sound'.accounts) ?_ changes.steady
    changes.errands ?_
  · rintro new ⟨⟩
    exact sound'.valid
  · rintro old new addr found ⟨⟩ taken taken'
    rw [here] at found
    cases found
    exact ⟨congrArg Geometry.entitySize changes.geometry,
      fun count => changes.read_slot (sound.focus here) sound' taken taken'⟩

theorem Sound.enter (sound : Sound locked entries arena) (vacant : entries[index]? = some none)
    (accounts : Arena.Sound (entries.extents arena.pageSize ++ locked) later)
    (steady : Arena.Steady (entries.extents arena.pageSize ++ locked) arena later)
    (errands : later.env.errands = arena.env.errands) (valid : pool.Valid later.machine.memory)
    (empty : pool.owners = []) :
    Sound locked (entries.setIfInBounds index (some pool)) later ∧
      Changes locked (entries, arena) (entries.setIfInBounds index (some pool), later) ∧
      ∀ other, live (entries.setIfInBounds index (some pool)) later.machine.memory other =
        entries.live arena.machine.memory other := by
  obtain ⟨inside, -⟩ := Array.getElem?_eq_some_iff.mp vacant
  have alone : entries.without index = entries := set_self vacant
  have bare : (some pool).toList.flatMap (Pool.extents later.pageSize) = [] := by
    simp [Pool.extents, empty]
  have replaced :=
    sound.replace inside (some pool) (by rw [bare, alone]; exact accounts) (by rintro new ⟨⟩; exact valid)
    (by rw [alone]; exact steady) errands (fun old new addr found => by rw [vacant] at found; cases found)
  refine ⟨replaced.1, replaced.2.1, fun other => ?_⟩
  by_cases same : index = other
  · subst same
    rw [live_set_self inside, live, vacant, Pool.live, empty]
    rfl
  · exact replaced.2.2 other same

theorem Sound.push (sound : Sound locked entries arena)
    (accounts : Arena.Sound (entries.extents arena.pageSize ++ locked) later)
    (steady : Arena.Steady (entries.extents arena.pageSize ++ locked) arena later)
    (errands : later.env.errands = arena.env.errands) (valid : pool.Valid later.machine.memory)
    (empty : pool.owners = []) :
    Sound locked (entries.push (some pool)) later ∧
    Changes locked (entries, arena) (entries.push (some pool), later) ∧
      ∀ index, live (entries.push (some pool)) later.machine.memory index =
        entries.live arena.machine.memory index := by
  obtain ⟨still, changes, same⟩ := sound.still accounts steady errands
  have bare : extents later.pageSize (entries.push (some pool)) = entries.extents later.pageSize := by
    simp [extents, pools, Pool.extents, empty]
  have old : ∀ (index : Nat) candidate, index ≠ entries.size →
      (entries.push (some pool))[index]? = some (some candidate) →
      entries[index]? = some (some candidate) := fun index candidate different found => by
    rwa [Array.getElem?_push, if_neg different] at found
  refine ⟨⟨by rw [bare]; exact still.accounts, fun index candidate found => ?_⟩,
    ⟨changes.steady, errands, fun index before after addr here there taken taken' => ?_⟩, fun index => ?_⟩
  · by_cases last : index = entries.size
    · rw [last, Array.getElem?_push_size] at found
      cases found
      exact valid
    · exact still.valid index candidate (old index candidate last found)
  · exact changes.slots index before after addr here
      (old index after (Nat.ne_of_lt (lt_size here)) there) taken taken'
  · rw [← same]
    by_cases last : index = entries.size
    · have vacant : entries[entries.size]? = none := Array.getElem?_eq_none (Nat.le_refl _)
      rw [last, live, live, Array.getElem?_push_size, vacant, Option.join_some, Option.elim_some,
        Pool.live, empty]
      rfl
    · rw [live, Array.getElem?_push, if_neg last, live]

/-- A pool whose frames have all been released leaves its place. -/
theorem Sound.leave (sound : Sound locked entries arena) (here : entries[index]? = some (some pool))
    (accounts : Arena.Sound ((entries.without index).extents arena.pageSize ++ locked) later)
    (steady : Arena.Steady ((entries.without index).extents arena.pageSize ++ locked) arena later)
    (errands : later.env.errands = arena.env.errands) :
    Sound locked (entries.without index) later ∧ Changes locked (entries, arena) (entries.without index, later) ∧
      ∀ other, (entries.without index).live later.machine.memory other =
        if index = other then [] else entries.live arena.machine.memory other := by
  have replaced := sound.replace (lt_size here) none accounts (by rintro new ⟨⟩) steady errands
    (by rintro old new addr - ⟨⟩)
  refine ⟨replaced.1, replaced.2.1, fun other => ?_⟩
  by_cases same : index = other
  · subst same
    rw [if_pos rfl, without, live, Array.getElem?_setIfInBounds_self_of_lt (lt_size here)]
    rfl
  · rw [if_neg same]
    exact replaced.2.2 other same

theorem Sound.owner_unique (sound : Sound locked entries arena) (here : entries[index]? = some (some pool))
    {candidate : Pool} (there : entries[other]? = some (some candidate)) {base : Nat} (owned : base ∈ pool.owners)
    (claimed : base ∈ candidate.owners) : index = other := by
  by_contra different
  exact (sound.focus here).accounts.apart _ (Pool.mem_extents owned)
    (List.mem_append_left _ (List.mem_append_left _ (mem_without different there claimed arena.pageSize))) rfl

/-- No two pools claim one slot. -/
theorem Sound.owns_iff (sound : Sound locked entries arena)
    (here : entries[index]? = some (some pool)) {addr : Nat} (taken : addr ∈ pool.live arena.machine.memory)
    {candidate : Pool} (there : entries[other]? = some (some candidate)) :
    candidate.owns addr = true ↔ other = index := by
  have power := sound.accounts.power
  obtain ⟨base, member, inside⟩ := List.mem_flatMap.mp taken
  obtain ⟨slot, used, rfl⟩ := Pool.mem_slotsAt.mp inside
  have valid := sound.valid index pool here
  constructor
  · intro owns
    obtain ⟨base', found⟩ := Option.isSome_iff_exists.mp owns
    obtain ⟨member', low, high⟩ := Owners.find?_some found
    have within := (Pool.slot_within inside).trans (valid.area_within base power)
    have sized : 0 < pool.entitySize := valid.geometry.sized
    have fits := le_pageBytes power candidate.frameLen
    have spread := sound.accounts.spread
    rw [List.append_assoc] at spread
    have common := spread.eq_of_common (List.mem_append_left _ (mem_extents here member arena.pageSize))
      (List.mem_append_left _ (mem_extents there member' arena.pageSize)) (base + pool.geometry.start slot)
      (by simp only [Extent.Within, Pool.slot] at within; omega) ⟨low, by simp only; omega⟩
    rw [← show base = base' from congrArg Prod.fst common] at member'
    exact (sound.owner_unique here there member member').symm
  · rintro rfl
    rw [here] at there
    cases there
    rw [Pool.owns, valid.owner?_eq sound.accounts.machine.spread member (Frame.mem_taken.mp used).1]
    rfl

end Actions
end Entries
end SlabAllocator
