import SlabAllocator.Proofs.Requests
import SlabAllocator.Proofs.Writes

/-! How a block gets another size. Whichever way it goes, the common bytes go with it, and a
block that cannot be moved stays as it is. -/

namespace SlabAllocator.Allocator

variable [Host σ] [LawfulHost σ]
variable {allocator before middle after : Allocator σ (Books ω)} {locked more rest : List Extent}
  {kind target : Option Nat}
  {size newSize addr fresh index : Nat}

omit [LawfulHost σ] [Host σ] in
theorem Changes.mono (changes : Changes more before after) (fewer : ∀ extent ∈ locked, extent ∈ more) :
    Changes locked before after :=
  ⟨changes.policy, { changes.entries with steady := changes.entries.steady.mono fewer }⟩

omit [LawfulHost σ] [Host σ] in
theorem Changes.paged (changes : Changes locked before after) : after.arena.pageSize = before.arena.pageSize :=
  changes.entries.steady.paged

/-- The block of the memory that a block of the client lies in: a frame of the pool of an entry, or one of its own. -/
def Houses (allocator : Allocator σ ω) (kind : Option Nat) (addr base : Nat) : Prop :=
  match kind with
  | none => base = addr
  | some index => ∃ pool, allocator.pools[index]? = some (some pool) ∧ base ∈ pool.owners

namespace Owns

/-- The pool behind a slot of the client. -/
theorem pool (owns : Owns locked (some index) size addr allocator) :
    ∃ pool, allocator.pools[index]? = some (some pool) ∧ addr ∈ pool.live allocator.arena.machine.memory ∧
      size ≤ pool.entitySize := by
  obtain ⟨taken, room⟩ := owns.slot index rfl
  obtain ⟨pool, here, inside⟩ := Entries.exists_of_mem_live taken
  rw [← owns.sound.entitySize index pool here] at room
  exact ⟨pool, here, inside, room⟩

/-- Where the bytes of a block of the client are found. -/
theorem housed (owns : Owns locked kind size addr allocator) :
    ∃ base block, allocator.Houses kind addr base ∧
      allocator.arena.machine.memory.find? base = some block ∧ base ≤ addr ∧
      addr + size ≤ base + block.len := by
  have accounts := owns.sound.entries.accounts
  cases kind with
  | none =>
    have fits := le_pageBytes accounts.power size
    have member : (addr, pageBytes allocator.arena.pageSize size) ∈
        Entries.extents allocator.arena.pageSize allocator.pools ++
        ((addr, pageBytes allocator.arena.pageSize size) :: locked) ++
          allocator.arena.env.held.map (Holding.extent allocator.arena.pageSize) := by simp
    obtain ⟨block, found, len⟩ := accounts.find member
    exact ⟨addr, block, rfl, found, Nat.le_refl _, by rw [len]; omega⟩
  | some index =>
    obtain ⟨pool, here, taken, room⟩ := owns.pool
    obtain ⟨base, member, block, found, low, high⟩ := (owns.sound.entries.valid index pool here).slot_found taken
    exact ⟨base, block, ⟨pool, here, member⟩, found, by omega, by omega⟩

theorem found (owns : Owns locked kind size addr allocator) :
    ∃ base block, allocator.arena.machine.memory.find? base = some block ∧ base ≤ addr ∧
      addr + size ≤ base + block.len := by
  obtain ⟨base, block, -, inside⟩ := owns.housed
  exact ⟨base, block, inside⟩

theorem length_read (owns : Owns locked kind size addr allocator) {count : Nat} (short : count ≤ size) :
    (allocator.arena.machine.memory.read addr count).length = count := by
  obtain ⟨base, block, found, low, high⟩ := owns.found
  exact Memory.length_read owns.sound.entries.accounts.machine.spread found low (by omega)

/-- What the client goes on to own keeps its bytes. -/
theorem kept (owns : Owns rest kind size addr before)
    (changes : Changes (lent before.arena.pageSize kind addr size ++ locked) before after)
    (owns' : Owns more kind size addr after) {count : Nat} (short : count ≤ size) :
    after.arena.machine.memory.read addr count = before.arena.machine.memory.read addr count := by
  cases kind with
  | none =>
    have accounts := owns.sound.entries.accounts
    have fits := le_pageBytes accounts.power size
    exact accounts.read owns'.sound.entries.accounts (addr, pageBytes before.arena.pageSize size) (by simp)
      (changes.entries.steady.locked _ (by simp)) ⟨Nat.le_refl _, by omega⟩
  | some index =>
    obtain ⟨old, here, taken, room⟩ := owns.pool
    obtain ⟨new, here', taken', -⟩ := owns'.pool
    exact (changes.entries.slots index old new addr here here' taken taken').2 count (Nat.le_trans short room)

/-- A block of the client shares no byte with any other slot. -/
theorem slot_apart (owns : Owns locked kind size addr allocator) {pool : Pool}
    (here : allocator.pools[index]? = some (some pool)) {target : Nat}
    (taken : target ∈ pool.live allocator.arena.machine.memory) (different : kind = some index → target ≠ addr) :
    Extent.Apart (pool.slot target) (addr, size) := by
  cases kind with
  | none =>
    have fits := le_pageBytes owns.sound.entries.accounts.power size
    exact (owns.sound.entries.slot_apart here taken
      (addr, pageBytes allocator.arena.pageSize size) (by simp)).mono
      ⟨Nat.le_refl _, Nat.le_refl _⟩ ⟨Nat.le_refl _, by simp only; omega⟩
  | some other =>
    obtain ⟨candidate, there, taken', room⟩ := owns.pool
    exact (owns.sound.entries.slots_apart here taken there taken' fun same => different (by rw [same])).mono
      ⟨Nat.le_refl _, Nat.le_refl _⟩ ⟨Nat.le_refl _, by simp only [Pool.slot]; omega⟩

/-- Writing in a block of the client. -/
theorem write (owns : Owns locked kind size addr allocator) {bytes : List UInt8} (short : bytes.length ≤ size) :
    Owns locked kind size addr { allocator with arena := allocator.arena.written addr bytes } ∧
      Arena.Steady locked allocator.arena (allocator.arena.written addr bytes) ∧
      (∀ index, live { allocator with arena := allocator.arena.written addr bytes } index =
        allocator.live index) ∧
      Arena.Elsewhere (addr, bytes.length) allocator.arena (allocator.arena.written addr bytes) ∧
      (allocator.arena.written addr bytes).machine.memory.read addr bytes.length = bytes := by
  have sound := owns.sound
  cases kind with
  | none =>
    have fits := le_pageBytes sound.entries.accounts.power size
    obtain ⟨entries, others, live, elsewhere, read⟩ := sound.entries.write_block
      (addr, pageBytes allocator.arena.pageSize size) (by simp) 0 bytes (by simp only; omega)
        (by simp only; omega)
    refine ⟨.of_block { sound with entries }, .of_apart (· = addr) rfl rfl (fun extent member => ?_) others, live,
      elsewhere, read⟩
    refine (sound.entries.accounts.perm List.perm_middle).apart_head ?_
    rw [List.append_assoc]
    exact List.mem_append_right _ member
  | some index =>
    obtain ⟨pool, here, taken, room⟩ := owns.pool
    have sized := (sound.entries.valid index pool here).geometry.sized
    obtain ⟨entries, steady, same, elsewhere, read⟩ :=
      sound.entries.write_slot here taken 0 bytes sized (by omega)
    replace same : ∀ index, live { allocator with arena := allocator.arena.written addr bytes } index =
        allocator.live index := same
    exact ⟨⟨{ sound with entries }, fun other chosen => by rw [same]; exact owns.slot other chosen⟩, steady, same,
      elsewhere, read⟩

end Owns

/-- Filling a fresh block changes no other. -/
theorem Served.fill (granted : Served locked kind size before (.ok addr) middle) (bytes : List UInt8)
    (short : bytes.length ≤ size) :
    Owns locked kind size addr { middle with arena := middle.arena.written addr bytes } ∧
      Changes locked before { middle with arena := middle.arena.written addr bytes } ∧
      (∀ index, live { middle with arena := middle.arena.written addr bytes } index = middle.live index) ∧
      (middle.arena.written addr bytes).machine.memory.read addr bytes.length = bytes := by
  obtain ⟨changes, owns, gained⟩ := granted
  obtain ⟨owns', steady, same, elsewhere, read⟩ := owns.write short
  refine ⟨owns', ⟨changes.policy, changes.entries.steady.trans steady, changes.entries.errands, ?_⟩,
    same, read⟩
  intro index old new target here here' taken taken'
  have live : target ∈ middle.live index := by
    rw [← same, Allocator.live, Entries.live_eq here']
    exact taken'
  have there : target ∈ new.live middle.arena.machine.memory := by
    rwa [Allocator.live, Entries.live_eq here'] at live
  obtain ⟨width, bytes_same⟩ := changes.entries.slots index old new target here here' taken there
  refine ⟨width, fun count few => (elsewhere target count ?_ ?_).trans (bytes_same count few)⟩
  · obtain ⟨block, member, within⟩ := owns.sound.entries.slot_placed here' there
    have part : Extent.Within (target, count) (new.slot target) :=
      ⟨Nat.le_refl _, by simp only [Pool.slot]; omega⟩
    exact ⟨block, member, part.trans within⟩
  · refine (owns.slot_apart here' there fun chosen same => ?_).mono
      ⟨Nat.le_refl _, by simp only [Pool.slot]; omega⟩
      ⟨Nat.le_refl _, by simp only; omega⟩
    -- The fresh slot is one more than before, and none is handed out twice.
    have nodup := (gained index).nodup_iff.mp (owns.sound.entries.nodup_live index)
    rw [chosen, pooled_self] at nodup
    refine (List.nodup_cons.mp nodup).1 (same ▸ ?_)
    rw [Allocator.live, Entries.live_eq here]
    exact taken

/-- A moved block keeps the common bytes, and one that cannot be moved stays as it is. -/
def Moved (locked : List Extent) (kind target : Option Nat) (size addr newSize : Nat)
    (before : Allocator σ (Books ω)) (outcome : Outcome) (after : Allocator σ (Books ω)) : Prop :=
  match outcome with
  | .ok fresh => Owns locked target newSize fresh after ∧ Changes locked before after ∧
      (∀ index, (pooled kind addr index ++ after.live index).Perm
        (pooled target fresh index ++ before.live index)) ∧
      after.arena.machine.memory.read fresh (min size newSize) =
        before.arena.machine.memory.read addr (min size newSize)
  | .error _ =>
    Owns locked kind size addr after ∧
    Changes (lent before.arena.pageSize kind addr size ++ locked) before after ∧
      ∀ index, (after.live index).Perm (before.live index)

/-- A block that already has the length of its new size. -/
theorem Owns.rename (owns : Owns locked kind size addr allocator)
    (room : ∀ index, kind = some index → newSize ≤ allocator.policy.entitySize index)
    (pages : kind = none → pageBytes allocator.arena.pageSize newSize = pageBytes allocator.arena.pageSize size) :
    Moved locked kind kind size addr newSize allocator (.ok addr) allocator := by
  refine ⟨⟨?_, fun index chosen => ⟨(owns.slot index chosen).1, room index chosen⟩⟩,
    (Changes.refl owns.sound).mono ?_, fun index => .refl _, rfl⟩
  · cases kind with
    | none =>
      rw [lent_none, pages rfl]
      exact owns.sound
    | some index => exact owns.sound
  · exact fun _ => List.mem_append_right _

private theorem Owns.slot_mono (owns : Owns rest kind size addr before) (policy : after.policy = before.policy)
    (stays : ∀ index addr, addr ∈ before.live index → addr ∈ after.live index) (index : Nat)
    (chosen : kind = some index) : addr ∈ after.live index ∧ size ≤ after.policy.entitySize index := by
  obtain ⟨taken, room⟩ := owns.slot index chosen
  exact ⟨stays index addr taken, by rw [policy]; exact room⟩

/-- Either of two blocks of the client can be the one that is locked. -/
private theorem Owns.swap
    (owns : Owns (lent allocator.arena.pageSize kind addr size ++ locked) target newSize fresh allocator)
    (slot : ∀ index, kind = some index → addr ∈ allocator.live index ∧ size ≤ allocator.policy.entitySize index) :
    Owns (lent allocator.arena.pageSize target fresh newSize ++ locked) kind size addr allocator := by
  refine ⟨owns.sound.perm ?_, slot⟩
  rw [← List.append_assoc, ← List.append_assoc]
  exact List.perm_append_comm.append_right _

/-- What is left of a move once there is a new block: its bytes, and the way back of the old one. -/
def settle (size : Nat) (addr : Addr) (newSize : Nat) (fresh : Addr) : Run (Allocator σ ω) Outcome := do
  onArena do Arena.setMemory ((← Arena.memory).copy addr fresh (min size newSize))
  free size addr
  return .ok fresh

def move (size : Nat) (addr : Addr) (newSize : Nat) : Run (Allocator σ ω) Outcome := do
  match ← alloc newSize with
  | .error error => return .error error
  | .ok fresh => settle size addr newSize fresh

def copied (size : Nat) (addr : Addr) (newSize : Nat) (fresh : Addr)
    (allocator : Allocator σ ω) : Allocator σ ω :=
  { allocator with
    arena := allocator.arena.written fresh (allocator.arena.machine.memory.read addr (min size newSize)) }

omit [LawfulHost σ] [Host σ] in
/-- What follows a copy sees the copied bytes. -/
theorem copied_eq (size : Nat) (addr : Addr) (newSize : Nat) (fresh : Addr) (rest : Run (Allocator σ ω) α)
    (allocator : Allocator σ ω) :
    (onArena (do Arena.setMemory ((← Arena.memory).copy addr fresh (min size newSize))) >>=
      fun _ => rest) allocator =
      rest (allocator.copied size addr newSize fresh) := by
  apply Run.eq_of_meets
  intro post stop
  simp only [onArena, Arena.memory, Arena.setMemory, Arena.onMachine, Machine.setMemory, Run.meets_bind,
    Run.meets_focus, Run.meets_get, Run.meets_pure, Run.meets_modify]
  rfl

omit [LawfulHost σ] in
theorem settle_eq (size : Nat) (addr : Addr) (newSize : Nat) (fresh : Addr) (allocator : Allocator σ ω) :
    settle size addr newSize fresh allocator =
      (do free size addr; return .ok fresh : Run (Allocator σ ω) Outcome)
      (allocator.copied size addr newSize fresh) :=
  copied_eq size addr newSize fresh _ allocator

/-- The old block stays with the client until its bytes are in the new one. -/
theorem Owns.keeps (owns : Owns locked kind size addr allocator)
    (granted : Served (lent allocator.arena.pageSize kind addr size ++ locked) target newSize allocator
      (.ok fresh) middle) :
    Owns (lent middle.arena.pageSize target fresh newSize ++ locked) kind size addr middle ∧
      Owns (lent (middle.copied size addr newSize fresh).arena.pageSize target fresh newSize ++
        locked) kind size addr
        (middle.copied size addr newSize fresh) := by
  obtain ⟨changes, gained, live⟩ := id granted
  have paged : middle.arena.pageSize = allocator.arena.pageSize := changes.paged
  have held := owns.slot_mono changes.policy fun index addr old => (live index).mem_iff.mpr
    (List.mem_append_right _ old)
  rw [← paged] at gained
  have stays := gained.swap held
  have length := stays.length_read (Nat.min_le_left size newSize)
  obtain ⟨filled, -, same, -⟩ :=
    granted.fill (middle.arena.machine.memory.read addr (min size newSize))
      (by rw [length]; exact Nat.min_le_right ..)
  change ∀ index, (middle.copied size addr newSize fresh).live index = _ at same
  rw [← paged] at filled
  refine ⟨stays, filled.swap fun index chosen => ?_⟩
  rw [same]
  exact held index chosen

theorem Owns.settle_spec (owns : Owns locked kind size addr allocator) (routed : allocator.class? size = kind)
    (different : ∀ index, kind = some index → allocator.class? newSize ≠ some index)
    (granted : Served (lent allocator.arena.pageSize kind addr size ++ locked) (allocator.class? newSize) newSize
      allocator (.ok fresh) middle) :
    (settle size addr newSize fresh).Ends middle fun outcome after =>
      outcome = .ok fresh ∧ Moved locked kind (allocator.class? newSize) size addr newSize allocator
        (.ok fresh) after := by
  obtain ⟨stays, leaves⟩ := owns.keeps granted
  obtain ⟨changes, gained, live⟩ := id granted
  have original := owns.kept changes stays (Nat.min_le_left size newSize)
  have length := stays.length_read (Nat.min_le_left size newSize)
  obtain ⟨filled, changes', same, copied⟩ :=
    granted.fill (middle.arena.machine.memory.read addr (min size newSize))
      (by rw [length]; exact Nat.min_le_right ..)
  change Owns _ _ _ _ (middle.copied size addr newSize fresh) at filled
  change Changes _ _ (middle.copied size addr newSize fresh) at changes'
  change ∀ index, (middle.copied size addr newSize fresh).live index = _ at same
  rw [length] at copied
  rw [Run.Ends, Run.meets_congr (settle_eq ..)]
  simp only [Run.meets_bind, Run.meets_pure]
  refine (leaves.free_spec ((class?_congr changes.policy size).trans routed)).imp ?_
  rintro _ after ⟨sound, freed, lost⟩
  have slots : ∀ index, (pooled kind addr index ++ after.live index).Perm
      (pooled (allocator.class? newSize) fresh index ++ allocator.live index) := fun index =>
    (lost index).symm.trans (by rw [same]; exact live index)
  have owns' : Owns locked (allocator.class? newSize) newSize fresh after := by
    refine ⟨by rw [freed.paged]; exact sound, fun index chosen => ⟨?_, ?_⟩⟩
    · have apart : kind ≠ some index := fun source => different index source chosen
      have mixed := slots index
      rw [pooled, if_neg apart, chosen, pooled_self] at mixed
      exact mixed.mem_iff.mpr List.mem_cons_self
    · rw [freed.policy]
      exact (gained.slot index chosen).2
  have paged : (middle.copied size addr newSize fresh).arena.pageSize = allocator.arena.pageSize := changes.paged
  rw [← paged] at filled
  refine ⟨trivial, owns', ?_, slots, (filled.kept freed owns' (Nat.min_le_right ..)).trans
    (copied.trans original)⟩
  refine (changes'.mono fun _ => List.mem_append_right _).trans (freed.mono fun _ => List.mem_append_right _) ?_
  intro index target old _
  rw [same]
  exact (live index).mem_iff.mpr (List.mem_append_right _ old)

/-- The old block is locked until its bytes are in the new one. -/
private theorem Owns.move_spec (owns : Owns locked kind size addr allocator)
    (routed : allocator.class? size = kind) (newSize : Nat)
    (different : ∀ index, kind = some index → allocator.class? newSize ≠ some index) :
    (move size addr newSize).Meets allocator
      (Moved locked kind (allocator.class? newSize) size addr newSize allocator)
      (Halted locked allocator) := by
  simp only [move, Run.meets_bind]
  refine (owns.sound.alloc_spec newSize).mono (fun outcome middle served => ?_)
    fun fault after halted => halted.unlock _
  cases outcome with
  | error error =>
    obtain ⟨changes, sound, live⟩ := served
    simp only [Run.meets_pure]
    refine ⟨⟨?_, owns.slot_mono changes.policy fun index addr => (live index).mem_iff.mpr⟩, changes, live⟩
    rw [changes.paged]
    exact sound
  | ok fresh =>
    refine (owns.settle_spec routed different served).imp ?_
    rintro _ after ⟨rfl, moved⟩
    exact moved

omit [LawfulHost σ] [Host σ] in
/-- Sizes that the arena serves are of one class when their blocks are of one length. -/
theorem sizeClass_eq_iff {allocator : Allocator σ ω} {size other : Nat} (policy : allocator.policy.Sound)
    (positive : 0 < allocator.arena.pageSize) (routed : allocator.class? size = none)
    (routed' : allocator.class? other = none) :
    allocator.sizeClass other = allocator.sizeClass size ↔
      pageBytes allocator.arena.pageSize other = pageBytes allocator.arena.pageSize size := by
  rw [sizeClass_arena positive routed, sizeClass_arena positive routed', pageBytes, pageBytes,
    Nat.max_eq_left (policy.pos_of_none routed), Nat.max_eq_left (policy.pos_of_none routed')]
  constructor
  · intro same
    rw [SizeClass.arena.inj (Except.ok.inj same)]
  · intro same
    rw [Nat.mul_right_cancel positive same]

omit [LawfulHost σ] [Host σ] in
/-- Sizes of one class are served from one place, and by blocks of one length. -/
theorem class?_of_sizeClass {allocator : Allocator σ ω} {size other : Nat} (policy : allocator.policy.Sound)
    (positive : 0 < allocator.arena.pageSize) (same : allocator.sizeClass other = allocator.sizeClass size) :
    allocator.class? other = allocator.class? size ∧
      (allocator.class? size = none →
        pageBytes allocator.arena.pageSize other = pageBytes allocator.arena.pageSize size) := by
  have together : allocator.class? other = allocator.class? size := by
    cases kind : allocator.class? size with
    | none =>
      cases kind' : allocator.class? other with
      | none => rfl
      | some index =>
        rw [sizeClass_arena positive kind, sizeClass_pool policy kind'] at same
        cases Except.ok.inj same
    | some index =>
      cases kind' : allocator.class? other with
      | none =>
        rw [sizeClass_pool policy kind, sizeClass_arena positive kind'] at same
        cases Except.ok.inj same
      | some index' =>
        rw [sizeClass_pool policy kind, sizeClass_pool policy kind'] at same
        rw [policy.entitySize_inj (SizeClass.pool.inj (Except.ok.inj same))]
  exact ⟨together, fun routed => (sizeClass_eq_iff policy positive routed (together.trans routed)).mp same⟩

omit [LawfulHost σ] in
/-- Between classes a block is moved by hand. -/
theorem realloc_crossing (policy : allocator.policy.Sound) (positive : 0 < allocator.arena.pageSize)
    (crossing : allocator.class? newSize ≠ allocator.class? size) (addr : Nat) :
    realloc size addr newSize allocator = move size addr newSize allocator := by
  refine Run.eq_of_meets fun post stop => ?_
  cases routed : allocator.class? size with
  | none =>
    cases routed' : allocator.class? newSize with
    | none => exact absurd (routed'.trans routed.symm) crossing
    | some index =>
      simp only [realloc, Run.meets_bind, Run.meets_get, Run.meets_lift (sizeClass_arena positive routed),
        Run.meets_lift (sizeClass_pool policy routed')]
      rw [if_neg nofun]
      rfl
  | some index =>
    cases routed' : allocator.class? newSize with
    | none =>
      simp only [realloc, Run.meets_bind, Run.meets_get, Run.meets_lift (sizeClass_arena positive routed'),
        Run.meets_lift (sizeClass_pool policy routed)]
      rw [if_neg nofun]
      rfl
    | some index' =>
      simp only [realloc, Run.meets_bind, Run.meets_get, Run.meets_lift (sizeClass_pool policy routed'),
        Run.meets_lift (sizeClass_pool policy routed)]
      rw [if_neg fun same => crossing ?_]
      · rfl
      · rw [routed, routed', policy.entitySize_inj (SizeClass.pool.inj same)]

omit [LawfulHost σ] in
/-- Within a class a block stays where it is. -/
theorem realloc_same {sizeClass : SizeClass} (routed : allocator.sizeClass size = .ok sizeClass)
    (same : allocator.sizeClass newSize = .ok sizeClass) (addr : Addr) :
    realloc size addr newSize allocator = .ok (.ok addr) allocator := by
  change _ = (pure (.ok addr) : Run (Allocator σ (Books ω)) Outcome) allocator
  apply Run.eq_of_meets
  intro post stop
  simp only [realloc, Run.meets_bind, Run.meets_get, Run.meets_lift routed, Run.meets_lift same,
    if_true, Run.meets_pure]

omit [LawfulHost σ] in
/-- Between two classes of the arena it is up to the arena. -/
theorem realloc_arena (positive : 0 < allocator.arena.pageSize) (routed : allocator.class? size = none)
    (routed' : allocator.class? newSize = none)
    (different : allocator.sizeClass newSize ≠ allocator.sizeClass size)
    (addr : Addr) : realloc size addr newSize allocator = onArena (Arena.resize size addr newSize) allocator := by
  have class_eq := sizeClass_arena positive routed
  have class_eq' := sizeClass_arena positive routed'
  rw [class_eq, class_eq'] at different
  apply Run.eq_of_meets
  intro post stop
  simp only [realloc, Run.meets_bind, Run.meets_get, Run.meets_lift class_eq, Run.meets_lift class_eq']
  rw [if_neg fun same => different (congrArg _ same.symm)]

/-- The ways in which a block gets another size. Within its class it stays where it is, between two classes of
the arena it is up to the arena, and else it is moved by hand. -/
inductive Rerouted (size addr newSize : Nat) (allocator : Allocator σ (Books ω)) : Prop
  | stays (same : allocator.sizeClass newSize = allocator.sizeClass size)
    (ran : realloc size addr newSize allocator = .ok (.ok addr) allocator)
  | resized (source : allocator.class? size = none) (target : allocator.class? newSize = none)
    (different : allocator.sizeClass newSize ≠ allocator.sizeClass size)
    (ran : realloc size addr newSize allocator = onArena (Arena.resize size addr newSize) allocator)
  | moved (crossing : allocator.class? newSize ≠ allocator.class? size)
    (ran : realloc size addr newSize allocator = move size addr newSize allocator)

omit [LawfulHost σ] in
theorem rerouted (policy : allocator.policy.Sound) (positive : 0 < allocator.arena.pageSize)
    (size addr newSize : Nat) : Rerouted size addr newSize allocator := by
  by_cases crossing : allocator.class? newSize = allocator.class? size
  case neg => exact .moved crossing (realloc_crossing policy positive crossing addr)
  by_cases same : allocator.sizeClass newSize = allocator.sizeClass size
  case pos =>
    obtain ⟨sizeClass, class_eq⟩ := sizeClass_ok policy positive size
    exact .stays same (realloc_same class_eq (same.trans class_eq) addr)
  cases source : allocator.class? size with
  | none =>
    have target := crossing.trans source
    exact .resized source target same (realloc_arena positive source target same addr)
  | some index =>
    exact absurd ((sizeClass_pool policy (crossing.trans source)).trans (sizeClass_pool policy source).symm) same

/-- A move between two blocks of the arena. -/
theorem Owns.resize_spec (owns : Owns locked none size addr allocator) (newSize : Nat) :
    (onArena (Arena.resize size addr newSize)).Meets allocator
      (Moved locked none none size addr newSize allocator)
      (Halted locked allocator) := by
  have sound := owns.sound
  have accounts := sound.entries.accounts.perm List.perm_middle
  simp only [onArena, Run.meets_focus]
  refine (Arena.resize_spec accounts newSize).mono ?_ fun fault arena stopped => stopped.unlock _
  rintro outcome arena ⟨settled, resized⟩
  cases outcome with
  | error error =>
    obtain ⟨accounts', -, same⟩ := resized
    have steady := settled.steady.cons (addr, pageBytes allocator.arena.pageSize size) same
    obtain ⟨sound', changes, live⟩ := sound.still (accounts'.perm List.perm_middle.symm)
      (steady.mono fun _ => List.perm_middle.mem_iff.mp) settled.errands
    rw [← changes.paged] at sound'
    exact ⟨.of_block sound', changes, fun index => .of_eq (live index)⟩
  | ok moved =>
    obtain ⟨accounts', read⟩ := resized
    obtain ⟨sound', changes, live⟩ :=
      sound.still (accounts'.perm List.perm_middle.symm) settled.steady settled.errands
    rw [← changes.paged] at sound'
    exact ⟨.of_block sound', changes, fun index => .of_eq (live index), read⟩

theorem Owns.realloc_spec (owns : Owns locked kind size addr allocator) (routed : allocator.class? size = kind)
    (newSize : Nat) :
    (realloc size addr newSize).Meets allocator
      (Moved locked kind (allocator.class? newSize) size addr newSize allocator)
      (Halted locked allocator) := by
  subst routed
  have policy := owns.sound.policy
  have positive := Size.pos_of_isPowerOfTwo owns.sound.entries.accounts.power
  cases rerouted policy positive size addr newSize with
  | stays same ran =>
    obtain ⟨together, pages⟩ := class?_of_sizeClass policy positive same
    refine .ended ran ?_
    rw [together]
    exact owns.rename (fun index chosen => (policy.class?_spec (together.trans chosen)).2.2.1) pages
  | resized source target different ran =>
    rw [Run.meets_congr ran, target]
    rw [source] at owns ⊢
    exact owns.resize_spec newSize
  | moved crossing ran =>
    rw [Run.meets_congr ran]
    exact owns.move_spec rfl newSize fun index chosen same => crossing (same.trans chosen.symm)

end SlabAllocator.Allocator
