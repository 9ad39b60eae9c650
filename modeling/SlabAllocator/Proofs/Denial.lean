import SlabAllocator.Proofs.Attained
import SlabAllocator.Proofs.Resolution

/-! What a request that comes to nothing leaves behind. Until the hook starts and after it is done no block
changes and nothing is counted as mapped, and whatever the hook does, the frames of the pools stay as they are. -/

namespace SlabAllocator

namespace Arena

section Requests

variable {before middle after : Arena σ ω} {size : Nat} [Host σ]

/-- How an allocation comes to nothing: the host denies it, and there is no hook or the hook has no answer, or
else the hook is left without one, or its run cannot be counted. -/
inductive Failed (size : Nat) (before : Arena σ ω) : Option Fault → Arena σ ω → Prop
  | unaided {after : Arena σ ω} (bare : before.hook = none) (calm : Undisturbed before after) :
    Failed size before none after
  | unanswered {hook : Hook ω} {begun ended after : Arena σ ω} (installed : before.hook = some hook)
    (start : Undisturbed before begun)
    (ran : runProgram (acquireWithin (hook.depth - 1)) size hook.program begun = .ok none ended)
    (finish : Undisturbed ended after) : Failed size before none after
  | unwound {hook : Hook ω} {begun after : Arena σ ω} {fault : Fault} (installed : before.hook = some hook)
    (start : Undisturbed before begun)
    (ran : runProgram (acquireWithin (hook.depth - 1)) size hook.program begun = .error fault after) :
    Failed size before (some fault) after
  | uncounted {hook : Hook ω} {after : Arena σ ω} (installed : before.hook = some hook)
    (calm : Undisturbed before after)
    (full : Size.bound ≤ before.stats.hookInvocations + 1) : Failed size before (some .overflow) after

theorem Failed.prepend {fault : Option Fault} (first : Inquired before middle)
    (failed : Failed size middle fault after) : Failed size before fault after := by
  have calm' := first.undisturbed
  obtain ⟨host, journal, rfl⟩ := first
  cases failed with
  | unaided bare calm => exact .unaided bare (calm'.trans calm)
  | unanswered installed start ran finish => exact .unanswered installed (calm'.trans start) ran finish
  | unwound installed start ran => exact .unwound installed (calm'.trans start) ran
  | uncounted installed calm full => exact .uncounted installed (calm'.trans calm) full

end Requests

variable [Host σ] [LawfulHost σ] {arena : Arena σ (Books ω)} {locked : List Extent}

/-- A lawful host answers every request, so that all else is up to the hook. -/
theorem Sound.acquire_fails (sound : Sound locked arena) (size : Nat) :
    (Arena.acquire size).Meets arena
      (fun outcome after => ∀ error, outcome = .error error → error = .outOfMemory size ∧
        Failed size arena none after)
      fun fault after => Failed size arena (some fault) after := by
  refine (acquire_resolves size arena).mono (fun outcome after resolved error failed => ?_)
    fun fault after broken => ?_
  · cases resolved with
    | served granted => cases failed
    | unaided bare calm =>
      cases failed
      exact ⟨rfl, .unaided bare calm⟩
    | @answered hook answer begun ended _ installed start ran finish =>
      cases answer with
      | some block => cases failed
      | none =>
        cases failed
        exact ⟨rfl, .unanswered installed start ran finish⟩
  · cases broken with
    | asked failed => exact ((sound.request_spec size).of_error failed).elim
    | unwound installed start ran => exact .unwound installed start ran
    | uncounted installed calm full => exact .uncounted installed calm full

/-- A request that failed, beside which these blocks are as they were. -/
structure Atomic (locked : List Extent) (size : Nat) (before : Arena σ (Books ω)) (fault : Option Fault)
    (after : Arena σ (Books ω)) : Prop where
  failed : Failed size before fault after
  kept : ∀ extent ∈ locked, after.machine.memory.find? extent.1 = before.machine.memory.find? extent.1

theorem Sound.acquire_atomic (sound : Sound locked arena) (size : Nat) :
    (Arena.acquire size).Meets arena
      (fun outcome after => ∀ error, outcome = .error error → error = .outOfMemory size ∧
        Atomic locked size arena none after)
      fun fault after => Atomic locked size arena (some fault) after := by
  refine ((sound.acquire_fails size).and (acquires _ locked arena size sound (Nat.le_refl _))).mono ?_ ?_
  · rintro outcome after ⟨fails, settled, -⟩ error failed
    obtain ⟨cause, failed⟩ := fails error failed
    exact ⟨cause, failed, settled.steady.locked⟩
  · rintro fault after ⟨failed, stopped⟩
    exact ⟨failed, stopped.steady.locked⟩

omit [LawfulHost σ] in
theorem Atomic.prepend {middle after : Arena σ (Books ω)} {size : Nat} {fault : Option Fault}
    (first : Inquired arena middle) (atomic : Atomic locked size middle fault after) :
    Atomic locked size arena fault after := by
  refine ⟨atomic.failed.prepend first, fun extent member => ?_⟩
  rw [atomic.kept extent member, first.undisturbed.memory]

omit [LawfulHost σ] in
theorem Atomic.mono {after : Arena σ (Books ω)} {more : List Extent} {size : Nat} {fault : Option Fault}
    (atomic : Atomic more size arena fault after) (fewer : ∀ extent ∈ locked, extent ∈ more) :
    Atomic locked size arena fault after :=
  ⟨atomic.failed, fun extent member => atomic.kept extent (fewer extent member)⟩

/-- Of a resize only the request for a new block can fail. The block itself is then as it was. -/
theorem Sound.resize_atomic {addr oldSize : Nat}
    (sound : Sound ((addr, pageBytes arena.pageSize oldSize) :: locked) arena) (newSize : Nat) :
    (resize oldSize addr newSize).Meets arena
      (fun outcome after => ∀ error, outcome = .error error → error = .outOfMemory newSize ∧
        Atomic ((addr, pageBytes arena.pageSize oldSize) :: locked) newSize arena none after)
      fun fault after => Atomic ((addr, pageBytes arena.pageSize oldSize) :: locked) newSize arena
        (some fault) after := by
  by_cases same : pageBytes arena.pageSize newSize = pageBytes arena.pageSize oldSize
  · refine .ended (sound.resize_same same) ?_
    rintro error ⟨⟩
  rw [resize, resizeWith_eq, Run.meets_bind]
  refine Run.Ends.imp (sound.resizeInPlace_spec same) fun settled middle placed => ?_
  cases settled with
  | some outcome =>
    obtain ⟨moved, rfl, -⟩ := placed
    simp only [Run.meets_pure]
    rintro error ⟨⟩
  | none =>
    obtain ⟨sound', unmoved⟩ := placed
    have told := unmoved.inquired
    have paged := told.undisturbed.paged
    -- The old block stays locked while hooks may run, and once the new one is there nothing can stop the move.
    refine replaceWith_rule locked (((sound'.acquire_atomic newSize).and
      (acquires _ _ middle newSize sound' (Nat.le_refl _))).mono ?_ fun fault after stopped =>
        stopped.1.prepend told)
    rintro outcome after ⟨fails, settled, acquired⟩
    cases outcome with
    | error error =>
      rintro _ ⟨⟩
      obtain ⟨cause, atomic⟩ := fails error rfl
      exact ⟨cause, atomic.prepend told⟩
    | ok fresh =>
      rw [← paged, ← settled.steady.paged] at acquired
      refine ⟨acquired, fun _ _ _ => ?_⟩
      rintro error ⟨⟩

end Arena

variable [Host σ] [LawfulHost σ] {locked : List Extent}

theorem Pool.Sound.acquire_atomic {pool : Pool} {arena : Arena σ (Books ω)} (sound : Sound locked pool arena) :
    acquire.Meets (pool, arena)
      (fun outcome after => ∀ error, outcome = .error error → after.1 = pool ∧
        error = .outOfMemory pool.frameLen ∧
        Arena.Atomic (pool.extents arena.pageSize ++ locked) pool.frameLen arena none after.2)
      fun fault after => after.1 = pool ∧
        Arena.Atomic (pool.extents arena.pageSize ++ locked) pool.frameLen arena (some fault) after.2 := by
  have atomic := sound.accounts.acquire_atomic pool.frameLen
  refine sound.acquire_spec.mono ?_ ?_
  · rintro outcome after ⟨-, -, -, provides⟩ error rfl
    cases provides with
    | denied full asked same => exact ⟨same, atomic.of_ok asked error rfl⟩
  · rintro fault after ⟨halted, -, asked⟩
    exact ⟨halted.1, atomic.of_error asked⟩

def Pool.Bare (pool : Pool) : Prop :=
  pool.frames = .empty ∧ pool.owners = [] ∧ pool.releases = 0

namespace Allocator

variable {allocator : Allocator σ (Books ω)} {index size newSize addr : Nat} {kind : Option Nat}

inductive Opened (index entitySize : Nat) (before : Allocator σ (Books ω)) : Except AllocError Pool →
    Allocator σ (Books ω) → Prop
  | found {pool : Pool} (here : before.pools[index]? = some (some pool)) :
    Opened index entitySize before (.ok pool) before
  | created {pool : Pool} {arena : Arena σ (Books ω)} (vacant : before.pools[index]? = some none)
    (bare : pool.Bare) (sized : pool.entitySize = entitySize) (told : Arena.Inquired before.arena arena) :
    Opened index entitySize before (.ok pool)
      { before with arena, pools := before.pools.setIfInBounds index (some pool) }
  | rejected (vacant : before.pools[index]? = some none) :
    Opened index entitySize before (.error (.invalidEntitySize entitySize)) before

omit [LawfulHost σ] [Host σ] in
theorem openPool_opens (inside : index < allocator.pools.size) (paged : 0 < allocator.arena.pageSize)
    (entitySize : Nat) :
    (openPool index entitySize).Ends allocator (Opened index entitySize allocator) := by
  obtain ⟨entry, here⟩ : ∃ entry, allocator.pools[index]? = some entry := ⟨_, Array.getElem?_eq_getElem inside⟩
  have found : inRange allocator.pools[index]? = .ok entry := inRange_eq_ok.mpr here
  simp only [openPool, Run.meets_bind, Run.meets_get, Run.meets_lift found]
  cases entry with
  | some pool =>
    simp only [Run.meets_pure]
    exact .found here
  | none =>
    simp only [onArena, Pool.create, Run.meets_bind, Run.meets_focus]
    rcases Geometry.ofEntity_spec entitySize paged with refused | ⟨geometry, shaped, -, sized⟩
    · simp only [Run.meets_lift refused, Run.meets_pure]
      exact .rejected here
    · simp only [Run.meets_lift shaped, Arena.say, Arena.onMachine, Run.meets_bind, Run.meets_focus,
        Run.meets_modify, Run.meets_pure]
      exact .created here ⟨rfl, rfl, rfl⟩ sized ⟨_, _, rfl⟩

/-- The registry is as it was, but the class of the request may have come to a pool. -/
inductive Spared (kind : Option Nat) (before after : Allocator σ (Books ω)) : Prop
  | same (policy : after.policy = before.policy) (pools : after.pools = before.pools)
  | opened {index : Nat} {pool : Pool} (pooled : kind = some index) (vacant : before.pools[index]? = some none)
    (bare : pool.Bare) (sized : pool.entitySize = before.policy.entitySize index)
    (policy : after.policy = before.policy)
    (pools : after.pools = before.pools.setIfInBounds index (some pool))

structure Refused (locked : List Extent) (kind : Option Nat) (size : Nat) (before : Allocator σ (Books ω))
    (asked : Nat) (fault : Option Fault) (after : Allocator σ (Books ω)) : Prop where
  spared : Spared kind before after
  length : match kind with
    | none => asked = size
    | some index => ∃ pool, after.pools[index]? = some (some pool) ∧ asked = pool.frameLen
  atomic : Arena.Atomic (Entries.extents before.arena.pageSize before.pools ++ locked) asked before.arena
    fault after.arena

abbrev Fails (locked : List Extent) (kind : Option Nat) (size : Nat) (run : Run (Allocator σ (Books ω)) Outcome)
    (allocator : Allocator σ (Books ω)) : Prop :=
  run.Meets allocator
    (fun outcome after => ∀ error, outcome = .error error →
      (∃ index, kind = some index ∧ error = .invalidEntitySize (allocator.policy.entitySize index) ∧
        after = allocator) ∨
        ∃ asked, error = .outOfMemory asked ∧ Refused locked kind size allocator asked none after)
    fun fault after => ∃ asked, Refused locked kind size allocator asked (some fault) after

omit [LawfulHost σ] [Host σ] in
/-- A new pool has no frames to lose. -/
private theorem extents_opened {entries : Entries} {pool : Pool} (vacant : entries[index]? = some none)
    {extent : Extent} {pageSize : Nat} (member : extent ∈ Entries.extents pageSize entries) :
    extent ∈ Entries.extents pageSize (entries.setIfInBounds index (some pool)) := by
  obtain ⟨other, listed, frame⟩ := List.mem_flatMap.mp member
  obtain ⟨place, there⟩ := Entries.mem_pools.mp listed
  have different : index ≠ place := by
    rintro rfl
    rw [vacant] at there
    cases there
  refine List.mem_flatMap.mpr ⟨other, Entries.mem_pools.mpr ⟨place, ?_⟩, frame⟩
  rw [Array.getElem?_setIfInBounds_ne different]
  exact there

omit [LawfulHost σ] [Host σ] in
theorem Spared.work {before after : Allocator σ (Books ω)} (spared : Spared kind before after)
    (arena : Arena σ (Books ω)) : Spared kind before { after with arena } := by
  cases spared with
  | same policy pools => exact .same policy pools
  | opened pooled vacant bare sized policy pools => exact .opened pooled vacant bare sized policy pools

/-- The pool of a class asks the arena for a frame, and only that can fail. -/
theorem Sound.onEntry_fails {middle : Allocator σ (Books ω)} (sound : Sound locked middle) {pool : Pool}
    (here : middle.pools[index]? = some (some pool)) (spared : Spared (some index) allocator middle)
    (told : Arena.Inquired allocator.arena middle.arena)
    (frames : ∀ extent ∈ Entries.extents allocator.arena.pageSize allocator.pools,
      extent ∈ Entries.extents middle.arena.pageSize middle.pools) :
    (onEntry index pool Pool.acquire).Meets middle
      (fun outcome after => ∀ error, outcome = .error error →
        ∃ asked, error = .outOfMemory asked ∧ Refused locked (some index) size allocator asked none after)
      fun fault after => ∃ asked, Refused locked (some index) size allocator asked (some fault) after := by
  have split := Entries.extents_split here middle.arena.pageSize locked
  have fewer : ∀ extent ∈ Entries.extents allocator.arena.pageSize allocator.pools ++ locked,
      extent ∈ pool.extents middle.arena.pageSize ++
        ((Entries.without middle.pools index).extents middle.arena.pageSize ++ locked) := by
    intro extent member
    refine split.mem_iff.mp (List.mem_append.mpr ?_)
    exact (List.mem_append.mp member).imp_left (frames extent)
  have refused {fault : Option Fault} {arena : Arena σ (Books ω)}
      (atomic : Arena.Atomic (pool.extents middle.arena.pageSize ++
      ((Entries.without middle.pools index).extents middle.arena.pageSize ++ locked)) pool.frameLen
        middle.arena fault arena) :
      Refused locked (some index) size allocator pool.frameLen fault
        { middle with arena, pools := middle.pools.setIfInBounds index (some pool) } := by
    rw [Entries.set_self here]
    exact ⟨spared.work arena, ⟨pool, here, rfl⟩, (atomic.mono fewer).prepend told⟩
  simp only [onEntry, Run.meets_focus]
  refine (sound.entries.focus here).acquire_atomic.mono ?_ ?_
  · rintro outcome ⟨_, arena⟩ fails error failed
    obtain ⟨rfl, cause, atomic⟩ := fails error failed
    exact ⟨_, cause, refused atomic⟩
  · rintro fault ⟨_, arena⟩ ⟨rfl, atomic⟩
    exact ⟨_, refused atomic⟩

omit [LawfulHost σ] in
theorem Fails.refused {run : Run (Allocator σ (Books ω)) Outcome} {after : Allocator σ (Books ω)} {asked : Nat}
    (fails : Fails locked kind size run allocator)
    (ran : run allocator = .ok (.error (.outOfMemory asked)) after) :
    Refused locked kind size allocator asked none after := by
  rcases fails.of_ok ran _ rfl with ⟨index, -, impossible, -⟩ | ⟨_, ⟨⟩, refused⟩
  · cases impossible
  · exact refused

theorem Sound.alloc_fails (sound : Sound locked allocator) (size : Nat) :
    Fails locked (allocator.class? size) size (alloc size) allocator := by
  have positive := Size.pos_of_isPowerOfTwo sound.entries.accounts.power
  cases kind : allocator.class? size with
  | none =>
    simp only [Fails, alloc, onArena, Run.meets_bind, Run.meets_get,
      Run.meets_lift (sizeClass_arena positive kind), Run.meets_focus]
    refine (sound.entries.accounts.acquire_atomic size).mono (fun outcome arena fails error failed => ?_)
      fun fault arena stopped => ?_
    · obtain ⟨cause, atomic⟩ := fails error failed
      exact .inr ⟨size, cause, .same rfl rfl, rfl, atomic⟩
    · exact ⟨size, .same rfl rfl, rfl, stopped⟩
  | some index =>
    have inside : index < allocator.pools.size := by
      rw [sound.size]
      exact (sound.policy.class?_spec kind).2.1
    simp only [Fails, alloc, Run.meets_bind, Run.meets_get, Run.meets_lift (sizeClass_pool sound.policy kind),
      Run.meets_lift (classIndex_eq sound.policy index)]
    refine ((sound.openPool_spec inside).and (openPool_opens inside positive _)).mono ?_ fun _ _ impossible =>
      impossible.1.elim
    rintro opening middle ⟨⟨sound', -, -, -⟩, opened⟩
    cases opened with
    | rejected vacant =>
      simp only [Run.meets_pure]
      rintro error ⟨⟩
      exact .inl ⟨index, rfl, rfl, trivial⟩
    | found here =>
      exact (sound'.onEntry_fails here (.same rfl rfl) ⟨_, _, rfl⟩ fun _ => id).imp fun _ _ fails error failed =>
        .inr (fails error failed)
    | @created pool arena vacant bare sized told =>
      have here : (allocator.pools.setIfInBounds index (some pool))[index]? = some (some pool) :=
        Array.getElem?_setIfInBounds_self_of_lt inside
      have paged := told.undisturbed.paged
      refine (sound'.onEntry_fails here (.opened rfl vacant bare sized rfl rfl) told fun extent member => ?_).imp
        fun _ _ fails error failed => .inr (fails error failed)
      rw [paged]
      exact extents_opened vacant member

/-- Between classes only the new block can fail to come. -/
private theorem Owns.move_fails (owns : Owns locked kind size addr allocator)
    (routed : allocator.class? size = kind) (crossing : allocator.class? newSize ≠ kind) :
    Fails (lent allocator.arena.pageSize kind addr size ++ locked) (allocator.class? newSize) newSize
      (move size addr newSize) allocator := by
  have different : ∀ index, kind = some index → allocator.class? newSize ≠ some index :=
    fun index source same => crossing (same.trans source.symm)
  simp only [Fails, move, Run.meets_bind]
  refine ((owns.sound.alloc_spec newSize).and (owns.sound.alloc_fails newSize)).mono ?_
    fun _ _ stopped => stopped.2
  rintro outcome middle ⟨served, fails⟩
  cases outcome with
  | error error =>
    simp only [Run.meets_pure]
    exact fails
  | ok fresh =>
    refine (owns.settle_spec routed different served).imp ?_
    rintro _ after ⟨rfl, -⟩ _ ⟨⟩

private theorem Owns.resize_fails (owns : Owns locked none size addr allocator) (newSize : Nat) :
    Fails (lent allocator.arena.pageSize none addr size ++ locked) none newSize
      (onArena (Arena.resize size addr newSize))
      allocator := by
  have accounts : Arena.Sound ((addr, pageBytes allocator.arena.pageSize size) :: _) allocator.arena :=
    owns.sound.entries.accounts.perm List.perm_middle
  simp only [Fails, onArena, Run.meets_focus]
  refine (accounts.resize_atomic newSize).mono (fun outcome arena fails error failed => .inr ?_)
    fun fault arena atomic => ?_
  · obtain ⟨cause, atomic⟩ := fails error failed
    exact ⟨newSize, cause, .same rfl rfl, rfl, atomic.mono fun _ => List.perm_middle.mem_iff.mp⟩
  · exact ⟨newSize, .same rfl rfl, rfl, atomic.mono fun _ => List.perm_middle.mem_iff.mp⟩

theorem Owns.realloc_fails (owns : Owns locked kind size addr allocator) (routed : allocator.class? size = kind)
    (newSize : Nat) :
    Fails (lent allocator.arena.pageSize kind addr size ++ locked) (allocator.class? newSize) newSize
      (realloc size addr newSize) allocator := by
  subst routed
  have positive := Size.pos_of_isPowerOfTwo owns.sound.entries.accounts.power
  cases rerouted owns.sound.policy positive size addr newSize with
  | stays same ran =>
    refine .ended ran ?_
    rintro error ⟨⟩
  | resized source target different ran =>
    rw [Fails, Run.meets_congr ran, target]
    rw [source] at owns ⊢
    exact owns.resize_fails newSize
  | moved crossing ran =>
    rw [Fails, Run.meets_congr ran]
    exact owns.move_fails rfl crossing

end Allocator

namespace Session

variable {session : Session σ ω} {size newSize addr : Nat} {grant : Grant}

def Exhausted (session : Session σ ω) (pool : Pool) (fault : Option Fault)
    (after : Pool × Allocator σ (Books ω)) : Prop :=
  after = (pool, { session.allocator with arena := after.2.arena }) ∧
    Arena.Atomic session.frames pool.frameLen session.arena fault after.2.arena

theorem Sound.poolAcquire_fails (sound : Sound session) {number : Nat} {pool : Pool}
    (here : session.pool? (.dedicated number) = some pool) :
    Allocator.poolAcquire.Meets (pool, session.allocator)
      (fun outcome after =>
        ∀ error, outcome = .error error → error = .outOfMemory pool.frameLen ∧ Exhausted session pool none after)
      fun fault after => Exhausted session pool (some fault) after := by
  have found := Option.join_eq_some_iff.mp here
  have split := Entries.extents_split found session.arena.pageSize
    (Entries.extents session.arena.pageSize session.allocator.pools)
  have fewer : ∀ extent ∈ session.frames, extent ∈ _ := fun extent member =>
    split.mem_iff.mp (List.perm_append_comm.mem_iff.mp member)
  simp only [Allocator.poolAcquire, Allocator.onDedicated, Run.meets_focus]
  refine (sound.pools.focus found).acquire_atomic.mono ?_ ?_
  · rintro outcome ⟨_, arena⟩ fails error failed
    obtain ⟨rfl, cause, atomic⟩ := fails error failed
    exact ⟨cause, rfl, atomic.mono fewer⟩
  · rintro fault ⟨_, arena⟩ ⟨rfl, atomic⟩
    exact ⟨rfl, atomic.mono fewer⟩

/-- Of a request that fails nothing remains but a pool without frames, the state of the hook and what the hook did. -/
theorem Attained.fails_atomically (attained : Attained session) :
    (∀ size, Allocator.Fails session.extents (session.allocator.class? size) size
      (Allocator.alloc size) session.allocator) ∧
    (∀ number pool, session.pool? (.dedicated number) = some pool →
      Allocator.poolAcquire.Meets (pool, session.allocator)
        (fun outcome after => ∀ error, outcome = .error error →
          error = .outOfMemory pool.frameLen ∧ Exhausted session pool none after)
        fun fault after => Exhausted session pool (some fault) after) ∧
    ∀ size addr newSize grant, session.find? (session.allocator.class? size) size addr = some grant →
      Allocator.Fails (Allocator.lent session.arena.pageSize (session.allocator.class? size) addr
        size ++ session.extents)
        (session.allocator.class? newSize) newSize (Allocator.realloc size addr newSize)
          (session.drop grant).allocator := by
  have sound := attained.sound
  refine ⟨sound.registry.alloc_fails, fun number pool => sound.poolAcquire_fails,
    fun size addr newSize grant found => ?_⟩
  have pending := sound.drop found fun index kind => (sound.registry.policy.class?_spec kind).2.2.1
  have same (size : Nat) : (session.drop grant).allocator.class? size = session.allocator.class? size := by
    cases grant <;> rfl
  have paged : (session.drop grant).allocator.arena.pageSize = session.arena.pageSize := by
    cases grant <;> rfl
  have fails := pending.owns.realloc_fails (same size) newSize
  rwa [same, paged] at fails

end Session

/-- Operations that leave the client with a slot, a pool of its own and a hook that has no answer. -/
def helpless : List (Op (Option Addr)) :=
  [.alloc 24, .createPool 40, .acquire 12288, .setHook (some [.answer fun _ => none])]

namespace Session

def failure? (result : EStateM.Result Fault α Outcome) : Option AllocError :=
  match result with
  | .ok (.error error) _ => some error
  | _ => none

theorem failure?_spec {result : EStateM.Result Fault α Outcome} {error : AllocError}
    (failed : failure? result = some error) : ∃ after, result = .ok (.error error) after := by
  unfold failure? at failed
  split at failed
  next after =>
    cases failed
    exact ⟨after, rfl⟩
  next => cases failed

/-- Requests for a block, for a slot of the client's pool, for a move into a class that has no pool yet and
for a longer block in place of one of the arena. -/
theorem fails_atomically_of_helpless : ∃ session : Session (Quota Kernel) (Option Addr),
    replay fourPages .standard none helpless = some session ∧
      (∃ after, Allocator.alloc 8192 session.allocator = .ok (.error (.outOfMemory 8192)) after ∧
        Allocator.Refused session.extents (session.allocator.class? 8192) 8192 session.allocator
          8192 none after) ∧
      (∃ pool after, session.pool? (.dedicated 0) = some pool ∧
        Allocator.poolAcquire (pool, session.allocator) = .ok (.error (.outOfMemory 4096)) after ∧
        Exhausted session pool none after) ∧
      ∃ grant stayed kept, session.find? (session.allocator.class? 12288) 12288 0x20000000000 = some grant ∧
        (Allocator.realloc 12288 0x20000000000 64 (session.drop grant).allocator =
          .ok (.error (.outOfMemory 4096)) stayed ∧ Allocator.Refused
            (Allocator.lent session.arena.pageSize (session.allocator.class? 12288) 0x20000000000
              12288 ++ session.extents)
            (session.allocator.class? 64) 64 (session.drop grant).allocator 4096 none stayed) ∧
        Allocator.realloc 12288 0x20000000000 16384 (session.drop grant).allocator =
            .ok (.error (.outOfMemory 16384)) kept ∧
          Allocator.Refused
            (Allocator.lent session.arena.pageSize (session.allocator.class? 12288) 0x20000000000
              12288 ++ session.extents)
            (session.allocator.class? 16384) 16384 (session.drop grant).allocator 16384 none kept := by
  have ended : (replay fourPages .standard none helpless).map (fun session =>
      (failure? (Allocator.alloc 8192 session.allocator),
        (session.pool? (.dedicated 0)).map fun pool => failure? (Allocator.poolAcquire (pool, session.allocator)),
        (session.find? (session.allocator.class? 12288) 12288 0x20000000000).map fun grant =>
          (failure? (Allocator.realloc 12288 0x20000000000 64 (session.drop grant).allocator),
            failure? (Allocator.realloc 12288 0x20000000000 16384 (session.drop grant).allocator)))) =
      some (some (.outOfMemory 8192), some (some (.outOfMemory 4096)),
        some (some (.outOfMemory 4096), some (.outOfMemory 16384))) := by
    decide +kernel
  obtain ⟨session, replayed, failures⟩ := Option.map_eq_some_iff.mp ended
  simp only [Prod.mk.injEq] at failures
  obtain ⟨denied, exhausted, unmoved⟩ := failures
  obtain ⟨pool, here, exhausted⟩ := Option.map_eq_some_iff.mp exhausted
  obtain ⟨grant, found, unmoved⟩ := Option.map_eq_some_iff.mp unmoved
  obtain ⟨unmoved, unsized⟩ := Prod.mk.inj unmoved
  obtain ⟨after, denied⟩ := failure?_spec denied
  obtain ⟨drained, exhausted⟩ := failure?_spec exhausted
  obtain ⟨stayed, unmoved⟩ := failure?_spec unmoved
  obtain ⟨kept, unsized⟩ := failure?_spec unsized
  have attained : Attained session :=
    (Reachable.of_replay fourPages_fresh (by decide) (by decide) replayed).attained
  obtain ⟨allocated, acquired, moved⟩ := attained.fails_atomically
  exact ⟨session, replayed, ⟨after, denied, (allocated 8192).refused denied⟩,
    ⟨pool, drained, here, exhausted, ((acquired 0 pool here).of_ok exhausted _ rfl).2⟩,
    grant, stayed, kept, found, ⟨unmoved, (moved 12288 0x20000000000 64 grant found).refused unmoved⟩,
    unsized, (moved 12288 0x20000000000 16384 grant found).refused unsized⟩

end Session
end SlabAllocator
