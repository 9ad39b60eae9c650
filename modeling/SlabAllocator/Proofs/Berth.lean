import SlabAllocator.Proofs.FirstFit
import SlabAllocator.Proofs.Moves
import SlabAllocator.Proofs.Outlook

/-! What an operation of an allocator means to one of its pools. Either the pool answers one call, or
nothing happens to it, because its frames are locked whenever others are at work. -/

namespace SlabAllocator

/-- A place for a pool, and the memory that its frames are in. -/
structure Berth where
  pool : Option Pool
  memory : Memory

namespace Berth

variable {make : Make} {granted : Prop} {before middle after : Berth}

/-- The frames of the pool without their memory. There are none where there is no pool. -/
def stock (berth : Berth) : Stock :=
  berth.pool.elim ⟨[], 0⟩ (·.stock berth.memory)

def Fits (make : Make) (berth : Berth) : Prop :=
  ∀ pool, berth.pool = some pool → pool.geometry = make.geometry ∧ pool.interval = make.interval

structure Rests (before after : Berth) : Prop where
  pool : after.pool = before.pool
  stock : after.stock = before.stock

/-- The pool answers a call. It denies one only where the host denies it a frame. -/
structure Works (make : Make) (granted : Prop) (call : Stock.Call) (answer : Stock.Answer)
    (before after : Berth) : Prop where
  present : after.pool.isSome
  fits : after.Fits make
  step : Stock.Step make.geometry make.interval call answer before.stock after.stock
  denied : answer = .denied → ¬ granted

def Visited (make : Make) (granted : Prop) (visit : Option (Stock.Call × Stock.Answer))
    (before after : Berth) : Prop :=
  match visit with
  | none => Rests before after
  | some (call, answer) => Works make granted call answer before after

theorem stock_none (memory : Memory) : stock ⟨none, memory⟩ = ⟨[], 0⟩ :=
  rfl

theorem rests_none (memory changed : Memory) : Rests ⟨none, memory⟩ ⟨none, changed⟩ :=
  ⟨rfl, (stock_none changed).trans (stock_none memory).symm⟩

theorem Rests.refl (berth : Berth) : Rests berth berth :=
  ⟨rfl, rfl⟩

theorem Rests.trans (first : Rests before middle) (second : Rests middle after) : Rests before after :=
  ⟨second.pool.trans first.pool, second.stock.trans first.stock⟩

theorem Rests.visited (first : Rests before middle) {visit : Option (Stock.Call × Stock.Answer)}
    (second : Visited make granted visit middle after) : Visited make granted visit before after := by
  cases visit with
  | none => exact first.trans second
  | some visit => exact { second with step := first.stock ▸ second.step }

theorem Visited.rests {visit : Option (Stock.Call × Stock.Answer)}
    (first : Visited make granted visit before middle) (second : Rests middle after) :
    Visited make granted visit before after := by
  cases visit with
  | none => exact Rests.trans first second
  | some visit =>
    exact { first with
      present := by rw [second.pool]; exact first.present
      fits := by rw [Fits, second.pool]; exact first.fits
      step := by rw [second.stock]; exact first.step }

theorem Rests.fits (rests : Rests before after) (fits : before.Fits make) : after.Fits make := by
  rw [Fits, rests.pool]
  exact fits

theorem Visited.fits {visit : Option (Stock.Call × Stock.Answer)}
    (visited : Visited make granted visit before after) (fits : before.Fits make) : after.Fits make := by
  cases visit with
  | none => exact Rests.fits visited fits
  | some visit => exact Works.fits visited

/-- A pool that answers is there. -/
theorem Visited.absent {visit : Option (Stock.Call × Stock.Answer)}
    (visited : Visited make granted visit before after) (none : after.pool = none) :
    after.pool = before.pool := by
  cases visit with
  | none => exact Rests.pool visited
  | some visit =>
    have present := Works.present visited
    rw [none] at present
    cases present

end Berth

def Host.grants [Host σ] (host : σ) (len : Nat) : Bool :=
  match Host.request len host with
  | .ok (some _) _ => true
  | _ => false

variable [Host σ] [LawfulHost σ]

def Make.of (pageSize : Nat) (geometry : Geometry) (interval : Nat) : Make :=
  ⟨geometry, interval, decide (pageBytes pageSize geometry.frameLen ≤ Size.longest)⟩

def Arena.Supplies (make : Make) (arena : Arena σ ω) : Prop :=
  make.mappable = true ∧ Host.grants arena.machine.host (pageBytes arena.pageSize make.geometry.frameLen) = true

theorem Arena.Sound.acquire_granted {locked : List Extent} {arena : Arena σ (Books ω)}
    (sound : Sound locked arena) {size : Nat} (short : pageBytes arena.pageSize size ≤ Size.longest)
    (grants : Host.grants arena.machine.host (pageBytes arena.pageSize size) = true) :
    (Arena.acquire size).Meets arena (fun outcome _ => ∃ addr, outcome = .ok addr) fun _ _ => True := by
  obtain ⟨base, host, granted⟩ : ∃ base host, Host.request (pageBytes arena.pageSize size) arena.machine.host =
      .ok (some base) host := by
    unfold Host.grants at grants
    split at grants
    next base host granted => exact ⟨base, host, granted⟩
    next => cases grants
  have served : (request size).Meets arena (fun found _ => ∃ addr, found = some addr) fun _ _ => True := by
    simp only [request, Run.meets_bind, Run.meets_get, Run.meets_lift (blockLen_eq sound.power size),
      if_pos short, Arena.onMachine, Run.meets_focus, Machine.request, Machine.onHost]
    apply Run.Meets.ended granted
    simp only [Machine.setMemory, Machine.note, Run.meets_bind, Run.meets_get, Run.meets_modify, Run.meets_pure]
    apply Run.Meets.any
    intro _ _
    exact ⟨base, rfl⟩
  have asked (recover : Hook (Books ω) → Run (Arena σ (Books ω)) Outcome) :
      (acquireOr recover size).Meets arena (fun outcome _ => ∃ addr, outcome = .ok addr) fun _ _ => True := by
    simp only [acquireOr, Run.meets_bind]
    apply served.imp
    rintro _ middle ⟨addr, rfl⟩
    simp only [Run.meets_pure]
    exact ⟨addr, rfl⟩
  simp only [Arena.acquire, Run.meets_bind, Run.meets_get]
  cases arena.hookDepth with
  | zero => exact asked _
  | succ depth => exact asked _

namespace Pool

variable {arena : Arena σ (Books ω)} {locked : List Extent} {pool : Pool} {make : Make}

def berth (state : Pool × Arena σ ω) : Berth :=
  ⟨some state.1, state.2.machine.memory⟩

omit [Host σ] [LawfulHost σ] in
theorem Valid.rests {memory changed : Memory} (valid : pool.Valid memory)
    (kept : ∀ base ∈ pool.owners, changed.find? base = memory.find? base) :
    Berth.Rests ⟨some pool, memory⟩ ⟨some pool, changed⟩ :=
  ⟨rfl, valid.stock_congr kept⟩

theorem Sound.acquire_works (sound : Sound locked pool arena) (fits : (berth (pool, arena)).Fits make)
    (mappable : make.mappable = true → pageBytes arena.pageSize make.geometry.frameLen ≤ Size.longest) :
    acquire.Meets (pool, arena) (fun outcome after =>
      Berth.Works make (arena.Supplies make) .acquire (.of outcome) (berth (pool, arena)) (berth after))
        fun _ _ => True := by
  obtain ⟨geometry, interval⟩ := fits pool rfl
  apply sound.acquire_spec.mono _ fun _ _ _ => trivial
  rintro outcome after ⟨-, changes, -, provides⟩
  have step := provides.step sound.valid
  constructor
  case present => rfl
  case fits =>
    rintro _ ⟨⟩
    exact ⟨changes.geometry.trans geometry, changes.interval.trans interval⟩
  case step =>
    rw [← geometry, ← interval]
    exact step
  case denied =>
    rintro refused ⟨short, grants⟩
    cases provides with
    | taken => cases refused
    | grown => cases refused
    | denied full asked =>
      rw [← geometry] at grants mappable
      obtain ⟨addr, impossible⟩ := (sound.accounts.acquire_granted (mappable short) grants).of_ok asked
      cases impossible

theorem Sound.release_works (sound : Sound locked pool arena) (fits : (berth (pool, arena)).Fits make)
    {addr : Addr} (taken : addr ∈ pool.live arena.machine.memory) (granted : Prop) :
    (release addr).Ends (pool, arena) fun _ after =>
      Berth.Works make granted (.release addr) .released (berth (pool, arena)) (berth after) := by
  obtain ⟨geometry, interval⟩ := fits pool rfl
  apply (sound.release_spec taken).imp
  rintro _ after ⟨-, changes, -, view⟩
  constructor
  case present => rfl
  case fits =>
    rintro _ ⟨⟩
    exact ⟨changes.geometry.trans geometry, changes.interval.trans interval⟩
  case step =>
    change Stock.Step _ _ _ _ (Pool.view (pool, arena)) (Pool.view after)
    rw [view, ← geometry, ← interval]
    exact .release (sound.valid.holds_iff.mpr taken)
  case denied => exact nofun

theorem Sound.compact_works (sound : Sound locked pool arena) (fits : (berth (pool, arena)).Fits make)
    (granted : Prop) :
    compact.Ends (pool, arena) fun count after =>
      Berth.Works make granted .compact (.compacted count) (berth (pool, arena)) (berth after) := by
  obtain ⟨geometry, interval⟩ := fits pool rfl
  apply sound.compact_spec.imp
  rintro count after ⟨compacted, view, -⟩
  constructor
  case present => rfl
  case fits =>
    rintro _ ⟨⟩
    exact ⟨compacted.changes.geometry.trans geometry, compacted.changes.interval.trans interval⟩
  case step =>
    have left := compacted.sound.valid.length_shelves
    have old := sound.valid.length_shelves
    change (Pool.view after).shelves.length = _ at left
    change Stock.Step _ _ _ _ (Pool.view (pool, arena)) (Pool.view after)
    rw [view] at left ⊢
    exact .compact ((congrArg (· + count) left).trans (compacted.total.trans old.symm))
  case denied => exact nofun

end Pool

namespace Entries

variable {entries : Entries} {arena : Arena σ (Books ω)} {locked : List Extent} {memory : Memory}
  {index other : Nat}

def berth (entries : Entries) (memory : Memory) (index : Nat) : Berth :=
  ⟨entries[index]?.join, memory⟩

/-- A pool rests as long as its frames stay as they are. -/
theorem Sound.rests (sound : Sound locked entries arena)
    (kept : ∀ extent ∈ entries.extents arena.pageSize, memory.find? extent.1 =
      arena.machine.memory.find? extent.1) (index : Nat) :
    Berth.Rests (entries.berth arena.machine.memory index) (entries.berth memory index) := by
  unfold berth
  cases found : entries[index]?.join with
  | none => exact Berth.rests_none ..
  | some pool =>
    have here := Option.join_eq_some_iff.mp found
    apply (sound.valid index pool here).rests
    intro base owned
    exact kept _ (mem_extents here owned arena.pageSize)

/-- So does any pool but the one at work. -/
theorem Sound.others_rest (sound : Sound locked entries arena)
    (kept : ∀ extent ∈ (entries.without index).extents arena.pageSize, memory.find? extent.1 =
      arena.machine.memory.find? extent.1)
    (entry : Option Pool) (different : index ≠ other) :
    Berth.Rests (entries.berth arena.machine.memory other)
      (berth (entries.setIfInBounds index entry) memory other) := by
  unfold berth
  rw [Array.getElem?_setIfInBounds_ne different]
  cases found : entries[other]?.join with
  | none => exact Berth.rests_none ..
  | some pool =>
    have there := Option.join_eq_some_iff.mp found
    apply (sound.valid other pool there).rests
    intro base owned
    exact kept _ (mem_without different there owned arena.pageSize)

/-- An edit that no pool looks at. -/
theorem Sound.edit_rests (sound : Sound locked entries arena) {base low high : Nat}
    (edited : Memory.Edited [base] low high arena.machine.memory memory)
    (beyond : ∀ (index : Nat) pool, entries[index]? = some (some pool) → base ∈ pool.owners →
      40 + 8 * pool.geometry.bitmapWords ≤ low) (index : Nat) :
    Berth.Rests (entries.berth arena.machine.memory index) (entries.berth memory index) := by
  unfold berth
  cases found : entries[index]?.join with
  | none => exact Berth.rests_none ..
  | some pool =>
    have here := Option.join_eq_some_iff.mp found
    refine ⟨rfl, (sound.valid index pool here).stock_slots edited ?_⟩
    intro other single owned
    rw [List.mem_singleton.mp single] at owned
    exact beyond index pool here owned

end Entries

namespace Allocator

variable {allocator middle after : Allocator σ (Books ω)} {locked : List Extent} {make : Make} {kind : Option Nat}
  {size newSize addr index target : Nat}

def berth (allocator : Allocator σ ω) (index : Nat) : Berth :=
  Entries.berth allocator.pools allocator.arena.machine.memory index

/-- The make of the pool of a class, which need not be there yet. -/
def make? (allocator : Allocator σ ω) (index : Nat) : Option Make :=
  match allocator.pools[index]? with
  | some (some pool) => some (.of allocator.arena.pageSize pool.geometry pool.interval)
  | some none =>
    match Geometry.ofEntity (allocator.policy.entitySize index) allocator.arena.pageSize with
    | .ok (some geometry) => some (.of allocator.arena.pageSize geometry (max allocator.policy.compactInterval 1))
    | _ => none
  | none => none

omit [LawfulHost σ] [Host σ] in
theorem make?_fits (makes : allocator.make? index = some make) : (allocator.berth index).Fits make := by
  intro pool here
  rw [make?, Option.join_eq_some_iff.mp here] at makes
  cases makes
  exact ⟨rfl, rfl⟩

omit [LawfulHost σ] [Host σ] in
theorem make?_mappable (makes : allocator.make? index = some make) :
    make.mappable = decide (pageBytes allocator.arena.pageSize make.geometry.frameLen ≤ Size.longest) := by
  unfold make? at makes
  split at makes
  next => cases makes; rfl
  next =>
    split at makes
    next => cases makes; rfl
    next => cases makes
  next => cases makes

/-- A request to one pool leaves the others alone. -/
theorem Sound.onEntry_visits (sound : Sound locked allocator) {pool : Pool}
    (here : allocator.pools[target]? = some (some pool)) {granted : Prop} {action : Pool.Action σ (Books ω) α}
    {call : Stock.Call} {answer : α → Stock.Answer}
    (steady : action.Meets (pool, allocator.arena) (fun _ after => Arena.Steady
      ((Entries.without allocator.pools target).extents allocator.arena.pageSize ++ locked) allocator.arena
        after.2) fun _ _ => True)
    (works : target = index → action.Meets (pool, allocator.arena) (fun a after =>
      Berth.Works make granted call (answer a) (Pool.berth (pool, allocator.arena)) (Pool.berth after))
        fun _ _ => True) :
    (onEntry target pool action).Meets allocator (fun a after => Berth.Visited make granted
      (if target = index then some (call, answer a) else none) (allocator.berth index) (after.berth index))
        fun _ _ => True := by
  simp only [onEntry, Run.meets_focus]
  by_cases same : target = index
  · subst same
    refine (works rfl).imp fun a after worked => ?_
    have old : allocator.berth target = Pool.berth (pool, allocator.arena) := by
      rw [berth, Entries.berth, here]
      rfl
    have new : berth
        { allocator with arena := after.2, pools := allocator.pools.setIfInBounds target (some after.1) } target =
          Pool.berth after := by
      rw [berth, Entries.berth, Array.getElem?_setIfInBounds_self_of_lt (Entries.lt_size here)]
      rfl
    rw [if_pos rfl, old, new]
    exact worked
  · refine steady.imp fun a after kept => ?_
    rw [if_neg same]
    exact sound.entries.others_rest
      (fun extent member => kept.locked extent (List.mem_append_left _ member)) _ same

/-- The arena leaves all pools alone. -/
theorem Sound.onArena_rests (sound : Sound locked allocator) {action : Run (Arena σ (Books ω)) α}
    (steady : action.Meets allocator.arena (fun _ arena => Arena.Steady
      (Entries.extents allocator.arena.pageSize allocator.pools) allocator.arena arena) fun _ _ => True)
    (index : Nat) :
    (onArena action).Meets allocator (fun _ after => (allocator.berth index).Rests (after.berth index))
      fun _ _ => True := by
  simp only [onArena, Run.meets_focus]
  refine steady.imp fun a arena kept => ?_
  exact sound.entries.rests kept.locked index

theorem Sound.acquire_rests (sound : Sound locked allocator) (size index : Nat) :
    (onArena (Arena.acquire size)).Meets allocator
      (fun _ after => (allocator.berth index).Rests (after.berth index))
      fun _ _ => True := by
  apply sound.onArena_rests
  apply (Arena.acquires _ _ _ size sound.entries.accounts (Nat.le_refl _)).mono _ fun _ _ _ => trivial
  rintro outcome arena ⟨settled, -⟩
  exact settled.steady.mono fun _ => List.mem_append_left _

omit [LawfulHost σ] [Host σ] in
/-- A pool that is opened has no frames yet. -/
private theorem openPool_berths (inside : target < allocator.pools.size) (paged : 0 < allocator.arena.pageSize) :
    (openPool target (allocator.policy.entitySize target)).Ends allocator fun outcome after =>
      after.arena.machine.host = allocator.arena.machine.host ∧ after.arena.pageSize = allocator.arena.pageSize ∧
      (∀ other, target ≠ other → after.berth other = allocator.berth other) ∧
      ∀ make, allocator.make? target = some make →
        (∃ pool, outcome = .ok pool) ∧ (after.berth target).Fits make ∧
        (after.berth target).stock = (allocator.berth target).stock := by
  obtain ⟨entry, here⟩ : ∃ entry, allocator.pools[target]? = some entry := ⟨_, Array.getElem?_eq_getElem inside⟩
  have found : inRange allocator.pools[target]? = .ok entry := inRange_eq_ok.mpr here
  simp only [openPool, Run.meets_bind, Run.meets_get, Run.meets_lift found]
  cases entry with
  | some pool =>
    simp only [Run.meets_pure]
    exact ⟨trivial, trivial, fun _ _ => trivial, fun make makes => ⟨⟨pool, rfl⟩, make?_fits makes, trivial⟩⟩
  | none =>
    simp only [onArena, Pool.create, Run.meets_bind, Run.meets_focus]
    rcases Geometry.ofEntity_spec (allocator.policy.entitySize target)
      paged with refused | ⟨geometry, shaped, -, -⟩
    · simp only [Run.meets_lift refused, Run.meets_pure]
      refine ⟨trivial, trivial, fun _ _ => trivial, fun make makes => ?_⟩
      rw [make?, here] at makes
      simp only [refused] at makes
      cases makes
    · simp only [Run.meets_lift shaped, Arena.say, Arena.onMachine, Run.meets_bind, Run.meets_focus,
        Run.meets_modify, Run.meets_pure]
      refine ⟨trivial, trivial, fun other different => ?_, fun make makes => ⟨⟨_, rfl⟩, ?_, ?_⟩⟩
      · rw [berth, Entries.berth, Array.getElem?_setIfInBounds_ne different]
        rfl
      · rw [make?, here] at makes
        simp only [shaped] at makes
        cases makes
        rintro pool opened
        rw [berth, Entries.berth, Array.getElem?_setIfInBounds_self_of_lt inside] at opened
        cases opened
        exact ⟨rfl, rfl⟩
      · rw [berth, berth, Entries.berth, Entries.berth, Array.getElem?_setIfInBounds_self_of_lt inside, here]
        rfl

/-- What a request means to the pool of a class. -/
theorem Sound.alloc_visits (sound : Sound locked allocator) (size : Nat)
    (makes : allocator.make? index = some make) :
    (alloc size).Meets allocator (fun outcome after => Berth.Visited make (allocator.arena.Supplies make)
      (if allocator.class? size = some index then some (.acquire, .of outcome) else none)
      (allocator.berth index) (after.berth index)) fun _ _ => True := by
  have positive := Size.pos_of_isPowerOfTwo sound.entries.accounts.power
  cases kind : allocator.class? size with
  | none =>
    have routed := sizeClass_arena positive kind
    simp only [alloc, Run.meets_bind, Run.meets_get, Run.meets_lift routed]
    exact sound.acquire_rests size index
  | some target =>
    have inside : target < allocator.pools.size := by
      rw [sound.size]
      exact (sound.policy.class?_spec kind).2.1
    simp only [alloc, Run.meets_bind, Run.meets_get, Run.meets_lift (sizeClass_pool sound.policy kind),
      Run.meets_lift (classIndex_eq sound.policy target), Option.some.injEq]
    apply ((sound.openPool_spec inside).and (openPool_berths inside positive)).mono _ fun _ _ _ => trivial
    rintro outcome middle ⟨⟨sound', -, -, opened⟩, host, paged, others, own⟩
    have supplies : middle.arena.Supplies make ↔ allocator.arena.Supplies make := by
      rw [Arena.Supplies, Arena.Supplies, host, paged]
    cases outcome with
    | error error =>
      simp only [Run.meets_pure]
      have different : target ≠ index := by
        rintro rfl
        obtain ⟨⟨pool, impossible⟩, -⟩ := own make makes
        cases impossible
      rw [if_neg different, others index different]
      exact .refl _
    | ok pool =>
      have focused := sound'.entries.focus opened
      have works (same : target = index) : Pool.acquire.Meets (pool, middle.arena) (fun outcome after =>
          Berth.Works make (middle.arena.Supplies make) .acquire (.of outcome) (Pool.berth (pool, middle.arena))
            (Pool.berth after))
          fun _ _ => True := by
        rw [same] at opened own
        refine focused.acquire_works ?_ fun short => ?_
        · have fits := (own make makes).2.1
          rwa [berth, Entries.berth, opened] at fits
        · rw [make?_mappable makes, decide_eq_true_iff] at short
          rwa [paged]
      have visits := sound'.onEntry_visits opened
        (focused.acquire_spec.mono (fun _ _ served => served.2.1.steady) fun _ _ _ => trivial) works
      refine visits.imp fun outcome after visited => ?_
      by_cases same : target = index
      · subst same
        rw [if_pos rfl] at visited ⊢
        exact { visited with
          step := (own make makes).2.2 ▸ visited.step
          denied := fun refused granted => visited.denied refused (supplies.mpr granted) }
      · rw [if_neg same, others index same] at visited
        rw [if_neg same]
        exact visited

private theorem Sound.releaseFrom_visits (sound : Sound locked allocator) {pool : Pool}
    (here : allocator.pools[target]? = some (some pool)) (taken : addr ∈ pool.live allocator.arena.machine.memory)
    (fits : (allocator.berth index).Fits make) (granted : Prop) :
    (onEntry target pool (Pool.release addr)).Meets allocator (fun _ after => Berth.Visited make granted
      (if target = index then some (.release addr, .released) else none) (allocator.berth index)
      (after.berth index))
      fun _ _ => True := by
  have focused := sound.entries.focus here
  refine sound.onEntry_visits here ((focused.release_spec taken).imp fun _ _ freed => freed.2.1.steady)
    fun same => ?_
  subst same
  rw [berth, Entries.berth, here] at fits
  exact (focused.release_works fits taken granted).imp fun _ _ => id

theorem Sound.releaseSlot_visits (sound : Sound locked allocator) (taken : addr ∈ allocator.live target)
    (fits : (allocator.berth index).Fits make) (granted : Prop) :
    (releaseSlot addr).Meets allocator (fun _ after => Berth.Visited make granted
      (if target = index then some (.release addr, .released) else none) (allocator.berth index)
      (after.berth index))
      fun _ _ => True := by
  obtain ⟨pool, here, used⟩ := Entries.exists_of_mem_live taken
  rw [Run.meets_congr (sound.releaseSlot_eq here used)]
  exact sound.releaseFrom_visits here used fits granted

theorem Owns.release_rests (owns : Owns locked none size addr allocator) (index : Nat) :
    (onArena (Arena.release size addr)).Meets allocator
      (fun _ after => (allocator.berth index).Rests (after.berth index))
      fun _ _ => True := by
  have accounts := owns.sound.entries.accounts.perm List.perm_middle
  apply owns.sound.onArena_rests
  refine (Arena.Sound.release_spec accounts).imp fun _ arena returned => ?_
  exact returned.2.1.mono fun _ => List.mem_append_left _

theorem Owns.free_visits (owns : Owns locked kind size addr allocator) (routed : allocator.class? size = kind)
    (fits : (allocator.berth index).Fits make) (granted : Prop) :
    (free size addr).Meets allocator (fun _ after => Berth.Visited make granted
      (if kind = some index then some (.release addr, .released) else none) (allocator.berth index)
      (after.berth index))
      fun _ _ => True := by
  have policy := owns.sound.policy
  cases kind with
  | none =>
    have toArena := sizeClass_arena (Size.pos_of_isPowerOfTwo owns.sound.entries.accounts.power) routed
    simp only [free, Run.meets_bind, Run.meets_get, Run.meets_lift toArena]
    exact owns.release_rests index
  | some target =>
    obtain ⟨taken, -⟩ := owns.slot target rfl
    obtain ⟨pool, here, used⟩ := Entries.exists_of_mem_live taken
    have found : inRange allocator.pools[target]? = .ok (some pool) := inRange_eq_ok.mpr here
    simp only [free, Run.meets_bind, Run.meets_get, Run.meets_lift (sizeClass_pool policy routed),
      Run.meets_lift (classIndex_eq policy target), Run.meets_lift found, Option.some.injEq]
    exact Sound.releaseFrom_visits owns.sound here used fits granted

theorem Owns.resize_rests (owns : Owns locked none size addr allocator) (newSize index : Nat) :
    (onArena (Arena.resize size addr newSize)).Meets allocator
      (fun _ after => (allocator.berth index).Rests (after.berth index))
      fun _ _ => True := by
  have accounts := owns.sound.entries.accounts.perm List.perm_middle
  apply owns.sound.onArena_rests
  apply (Arena.resize_spec accounts newSize).mono _ fun _ _ _ => trivial
  rintro outcome arena ⟨settled, -⟩
  exact settled.steady.mono fun _ => List.mem_append_left _

theorem Owns.write_rests (owns : Owns locked kind size addr allocator) {bytes : List UInt8}
    (short : bytes.length ≤ size) (index : Nat) : (allocator.berth index).Rests
      (berth { allocator with arena := allocator.arena.written addr bytes } index) := by
  have entries := owns.sound.entries
  cases kind with
  | none =>
    have fits := le_pageBytes entries.accounts.power size
    have member : (addr, pageBytes allocator.arena.pageSize size) ∈
        ((addr, pageBytes allocator.arena.pageSize size) :: locked) ++
        allocator.arena.env.held.map (Holding.extent allocator.arena.pageSize) := by simp
    obtain ⟨content, found, len⟩ :=
      entries.accounts.find (by rw [List.append_assoc]; exact List.mem_append_right _ member)
    have edited := Memory.edited_write entries.accounts.machine.spread found (Nat.le_refl addr) (by omega) bytes
    exact entries.edit_rests edited (entries.foreign member _) index
  | some other =>
    obtain ⟨pool, here, taken, room⟩ := owns.pool
    have sized := (entries.valid other pool here).geometry.sized
    obtain ⟨base, -, -, edited, beyond, -⟩ := entries.slot_edited here taken 0 bytes sized (by omega)
    exact entries.edit_rests edited beyond index

/-- What a move means to the pool of a class: it serves the new slot, or it takes back the old one. -/
def moving? (kind target : Option Nat) (addr : Addr) (outcome : Outcome) (index : Nat) :
    Option (Stock.Call × Stock.Answer) :=
  if target = kind then none
  else if target = some index then some (.acquire, .of outcome)
  else if kind = some index ∧ outcome.isOk then some (.release addr, .released)
  else none

private theorem Owns.settle_visits (owns : Owns locked kind size addr allocator)
    (routed : allocator.class? size = kind) {goal : Option Nat}
    (granted : Served (lent allocator.arena.pageSize kind addr size ++ locked) goal newSize allocator
      (.ok fresh) middle)
    (fits : (middle.berth index).Fits make) (supplied : Prop) :
    (settle size addr newSize fresh).Meets middle (fun outcome after => outcome = .ok fresh ∧
      Berth.Visited make supplied
      (if kind = some index then some (.release addr, .released) else none) (middle.berth index)
      (after.berth index))
      fun _ _ => True := by
  obtain ⟨stays, leaves⟩ := owns.keeps granted
  obtain ⟨changes, gained, -⟩ := granted
  have length := stays.length_read (Nat.min_le_left size newSize)
  have rests : (middle.berth index).Rests ((middle.copied size addr newSize fresh).berth index) :=
    gained.write_rests (by rw [length]; exact Nat.min_le_right ..) index
  rw [Run.meets_congr (settle_eq ..)]
  simp only [Run.meets_bind, Run.meets_pure]
  refine (leaves.free_visits ((class?_congr changes.policy size).trans routed) (rests.fits fits) supplied).imp ?_
  intro _ after visited
  exact ⟨trivial, rests.visited visited⟩

private theorem Owns.move_visits (owns : Owns locked kind size addr allocator)
    (routed : allocator.class? size = kind) (makes : allocator.make? index = some make)
    (crossing : allocator.class? newSize ≠ kind) :
    (move size addr newSize).Meets allocator
      (fun outcome after => Berth.Visited make (allocator.arena.Supplies make)
      (moving? kind (allocator.class? newSize) addr outcome index) (allocator.berth index) (after.berth index))
        fun _ _ => True := by
  have allocs := (owns.sound.alloc_spec newSize).and (owns.sound.alloc_visits newSize makes)
  simp only [move, moving?, if_neg crossing, Run.meets_bind]
  refine allocs.mono ?_ fun _ _ _ => trivial
  rintro outcome middle ⟨served, visited⟩
  cases outcome with
  | error error =>
    have unmoved : ¬ (kind = some index ∧ Except.isOk (.error error : Outcome) = true) :=
      fun moved => by cases moved.2
    simp only [Run.meets_pure, if_neg unmoved]
    exact visited
  | ok fresh =>
    have settles :=
      owns.settle_visits routed served (visited.fits (make?_fits makes)) (allocator.arena.Supplies make)
    refine settles.imp ?_
    rintro _ after ⟨rfl, visited'⟩
    by_cases here : allocator.class? newSize = some index
    · have elsewhere : kind ≠ some index := fun same => crossing (here.trans same.symm)
      rw [if_pos here] at visited ⊢
      rw [if_neg elsewhere] at visited'
      exact visited.rests visited'
    · rw [if_neg here] at visited ⊢
      have moved : kind = some index ∧ Except.isOk (.ok fresh : Outcome) = true ↔ kind = some index :=
        and_iff_left rfl
      rw [if_congr moved rfl rfl]
      exact Berth.Rests.visited visited visited'

theorem Owns.realloc_visits (owns : Owns locked kind size addr allocator) (routed : allocator.class? size = kind)
    (makes : allocator.make? index = some make) (newSize : Nat) :
    (realloc size addr newSize).Meets allocator
      (fun outcome after => Berth.Visited make (allocator.arena.Supplies make)
      (moving? kind (allocator.class? newSize) addr outcome index) (allocator.berth index) (after.berth index))
        fun _ _ => True := by
  subst routed
  have policy := owns.sound.policy
  have positive := Size.pos_of_isPowerOfTwo owns.sound.entries.accounts.power
  cases rerouted policy positive size addr newSize with
  | stays same ran =>
    simp only [moving?, if_pos (class?_of_sizeClass policy positive same).1]
    exact .ended ran (.refl _)
  | resized source target different ran =>
    rw [Run.meets_congr ran]
    simp only [moving?, if_pos (target.trans source.symm)]
    rw [source] at owns
    exact owns.resize_rests newSize index
  | moved crossing ran =>
    rw [Run.meets_congr ran]
    exact owns.move_visits rfl makes crossing

def compactEntry (index : Nat) : Run (Allocator σ ω) Nat := do
  let _ ← compactFrom 0 index
  compactFrom index 1

private theorem Sound.compactEntry_counts (sound : Sound locked allocator) {pool : Pool}
    (here : allocator.pools[index]? = some (some pool)) :
    (compactEntry index).Ends allocator fun count _ =>
      (allocator.berth index).stock.compact.shelves.length + count =
        (allocator.berth index).stock.shelves.length := by
  simp only [compactEntry, Run.meets_bind]
  refine (sound.compactFrom_spec index 0).imp ?_
  rintro _ middle swept
  obtain ⟨there, stock⟩ : middle.pools[index]?.join = some pool ∧
      (middle.berth index).stock = (allocator.berth index).stock := by
    have thinned := swept.pools index
    unfold Thinned at thinned
    unfold berth Entries.berth
    rw [here] at thinned ⊢
    generalize middle.pools[index]?.join = entry at thinned ⊢
    cases thinned with
    | some untouched =>
      rw [if_neg (by omega)] at untouched
      obtain ⟨rfl, same⟩ := untouched
      exact ⟨rfl, (sound.entries.valid index _ here).stock_congr same⟩
  have present := Option.join_eq_some_iff.mp there
  have focused := swept.sound.entries.focus present
  have same : (middle.berth index).stock = Pool.view (pool, middle.arena) := by
    rw [berth, Entries.berth, there]
    rfl
  simp only [compactFrom, there, onEntry, Run.meets_bind, Run.meets_get, Run.meets_focus, Run.meets_pure]
  refine focused.compact_spec.imp ?_
  rintro count after ⟨compacted, view, -⟩
  have few := focused.length_owners_lt
  have total : after.1.owners.length + count = pool.owners.length := compacted.total
  have left := compacted.sound.valid.length_shelves
  have old := focused.valid.length_shelves
  simp only [Run.meets_lift (Size.add_ok (show count + 0 < Size.bound by omega))]
  change (Pool.view after).shelves.length = _ at left
  change (Pool.view (pool, middle.arena)).shelves.length = _ at old
  rw [← stock, same, ← view, left, old]
  exact total

theorem Sound.compactAll_visits (sound : Sound locked allocator) (fits : (allocator.berth index).Fits make)
    (granted : Prop) :
    compactAll.Ends allocator fun _ after => Berth.Visited make granted
      (if (allocator.berth index).pool.isSome then
        ((compactEntry index).value? allocator).map fun count => (.compact, .compacted count) else none)
      (allocator.berth index) (after.berth index) := by
  refine sound.compactAll_spec.imp fun _ after swept => ?_
  have thinned := swept.pools index
  unfold Thinned at thinned
  cases found : allocator.pools[index]?.join with
  | none =>
    rw [found] at thinned
    generalize there : after.pools[index]?.join = entry at thinned
    cases thinned
    unfold berth Entries.berth
    rw [found, there, Option.isSome_none, if_neg Bool.false_ne_true]
    exact Berth.rests_none ..
  | some pool =>
    have here := Option.join_eq_some_iff.mp found
    obtain ⟨count, _, ran, left⟩ := (sound.compactEntry_counts here).exists_ok
    have present : (allocator.berth index).pool.isSome := by rw [berth, Entries.berth, found]; rfl
    rw [if_pos present, Run.value?_of_ok ran]
    rw [found] at thinned
    generalize there : after.pools[index]?.join = entry at thinned
    cases thinned with
    | @some _ changed thinned =>
      rw [if_pos ⟨Nat.zero_le index, by rw [Nat.zero_add]; exact Entries.lt_size here⟩] at thinned
      obtain ⟨geometry, interval⟩ := fits pool found
      have new : after.berth index = ⟨some changed, after.arena.machine.memory⟩ := by
        rw [berth, Entries.berth, there]
      have stock : (after.berth index).stock = (allocator.berth index).stock.compact := by
        rw [new, berth, Entries.berth, found]
        exact thinned.stock
      refine ⟨by rw [new]; rfl, ?_, ?_, nofun⟩
      · rw [new]
        rintro _ ⟨⟩
        exact ⟨thinned.geometry.trans geometry, thinned.interval.trans interval⟩
      · rw [stock]
        exact .compact left

end Allocator
end SlabAllocator
