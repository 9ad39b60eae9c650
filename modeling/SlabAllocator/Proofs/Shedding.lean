import SlabAllocator.Proofs.Layers
import SlabAllocator.Proofs.Teardown

/-! What a pool is like once it has been compacted. The frames with a slot in the hands of the client stay
as they are and where they are, or else the first one does, and the others have gone back to the host.
There is nothing left to do for another compaction. -/

namespace SlabAllocator

namespace Pool

def listed (pool : Pool) (memory : Memory) : List Addr :=
  (pool.frames.nodes memory).toOption.getD []

/-- The frames that compaction leaves: those in use or, if there are none, the first one. -/
def survivors (busy : Addr → Bool) (frames : List Addr) : List Addr :=
  if frames.any busy then frames.filter busy else frames.take 1

def discarded (busy : Addr → Bool) (frames : List Addr) : List Addr :=
  (frames.filter (· ∉ survivors busy frames)).reverse

/-- A pool has been compacted, given which of its frames are in use. -/
structure Shed (busy : Addr → Bool) (before after : Pool × Memory) : Prop where
  frames : before.1.frames.nodes before.2 = .ok (before.1.listed before.2)
  distinct : (before.1.listed before.2).Nodup
  left : after.1.frames.nodes after.2 = .ok (survivors busy (before.1.listed before.2))
  owners : after.1.owners.Perm (survivors busy (before.1.listed before.2))
  bitmap : ∀ base ∈ survivors busy (before.1.listed before.2),
    Frame.bitmap before.1.geometry (after.2.block base) = Frame.bitmap before.1.geometry (before.2.block base)
  occupied : ∀ base ∈ survivors busy (before.1.listed before.2),
    Frame.occupied (after.2.block base) = Frame.occupied (before.2.block base)
  live : ∀ addr, addr ∈ after.1.live after.2 ↔ addr ∈ before.1.live before.2
  owned : ∀ addr ∈ before.1.live before.2, ∃ base ∈ survivors busy (before.1.listed before.2),
    before.1.owner? addr = some base ∧ after.1.owner? addr = some base
  geometry : after.1.geometry = before.1.geometry
  interval : after.1.interval = before.1.interval
  releases : after.1.releases = before.1.releases
  count : after.1.frameCount + (discarded busy (before.1.listed before.2)).length = before.1.frameCount

variable {pool : Pool} {memory : Memory} {busy : Addr → Bool} {before after : Pool × Memory}

/-- What the bitmaps say is what the client has in its hands. -/
def Tells (busy : Addr → Bool) (pool : Pool) (memory : Memory) : Prop :=
  ∀ base ∈ pool.owners, busy base = true ↔ (shelf pool.geometry memory base).taken ≠ ∅

theorem Valid.listed_eq (valid : pool.Valid memory) :
    pool.listed memory = (pool.stock memory).shelves.map Shelf.base := by
  rw [listed, valid.nodes_eq]
  rfl

theorem Valid.nodup_listed (valid : pool.Valid memory) : (pool.listed memory).Nodup := by
  obtain ⟨nodes, lists, -⟩ := valid.lists
  rw [valid.listed_eq, bases_eq lists]
  exact lists.nodup

theorem Valid.survivors_eq (valid : pool.Valid memory) (tells : Tells busy pool memory) :
    survivors busy (pool.listed memory) = (Stock.compacted (pool.stock memory).shelves).map Shelf.base := by
  have known : ∀ shelf ∈ (pool.stock memory).shelves, busy shelf.base = decide (shelf.taken ≠ ∅) := by
    intro shelf member
    obtain ⟨owned, shape⟩ := valid.mem_shelves member
    rw [Bool.eq_iff_iff, tells _ owned, ← shape, decide_eq_true_iff]
  rw [valid.listed_eq]
  generalize (pool.stock memory).shelves = shelves at known
  have any : (shelves.map Shelf.base).any busy = true ↔ ¬ ∀ shelf ∈ shelves, shelf.taken = ∅ := by
    rw [List.any_map, List.any_eq_true]
    constructor
    · rintro ⟨shelf, member, used⟩ empty
      rw [Function.comp_apply, known shelf member] at used
      exact of_decide_eq_true used (empty shelf member)
    · intro some
      obtain ⟨shelf, member, used⟩ : ∃ shelf ∈ shelves, shelf.taken ≠ ∅ := by simpa using some
      refine ⟨shelf, member, ?_⟩
      rw [Function.comp_apply, known shelf member]
      exact decide_eq_true used
  unfold survivors Stock.compacted
  by_cases empty : ∀ shelf ∈ shelves, shelf.taken = ∅
  · rw [if_pos empty, if_neg (by rw [any]; exact not_not.mpr empty), List.map_take]
  · rw [if_neg empty, if_pos (any.mpr empty), List.filter_map]
    exact congrArg _ (List.filter_congr known)

theorem Valid.discarded_eq (valid : pool.Valid memory) (tells : Tells busy pool memory) :
    discarded busy (pool.listed memory) = Stock.shed (pool.stock memory).shelves := by
  have distinct := valid.nodup_listed
  rw [valid.listed_eq] at distinct
  rw [discarded, valid.survivors_eq tells, valid.listed_eq, Stock.shed_eq distinct]

theorem Thinned.shed (thinned : Thinned before after) (valid : before.1.Valid before.2)
    (valid' : after.1.Valid after.2) (spread : Spread before.2.live) (spread' : Spread after.2.live)
    (tells : Tells busy before.1 before.2) : Shed busy before after := by
  have survivors := valid.survivors_eq tells
  have shelves : (after.1.stock after.2).shelves = Stock.compacted (before.1.stock before.2).shelves :=
    congrArg Stock.shelves thinned.stock
  have left : after.1.listed after.2 = Pool.survivors busy (before.1.listed before.2) := by
    rw [valid'.listed_eq, shelves, survivors]
  have owned : ∀ base, base ∈ Pool.survivors busy (before.1.listed before.2) ↔ base ∈ after.1.owners := by
    intro base
    rw [← left, valid'.listed_eq, valid'.mem_bases]
  have live : ∀ addr, addr ∈ after.1.live after.2 ↔ addr ∈ before.1.live before.2 := by
    intro addr
    rw [← valid'.holds_iff, ← valid.holds_iff, thinned.stock, thinned.geometry, Stock.holds_compact]
  constructor
  case frames => rw [valid.listed_eq, valid.nodes_eq]
  case distinct => exact valid.nodup_listed
  case left => rw [← left, valid'.listed_eq, valid'.nodes_eq]
  case owners =>
    obtain ⟨nodes, lists, order⟩ := valid'.lists
    rw [← left, valid'.listed_eq, bases_eq lists]
    exact order.symm
  case bitmap => exact fun base survives => thinned.links.bitmap_eq ((owned base).mp survives) _
  case occupied => exact fun base survives => thinned.links.occupied_eq ((owned base).mp survives)
  case live => exact live
  case owned =>
    intro addr taken
    obtain ⟨base, member, index, used, rfl⟩ := mem_live.mp ((live addr).mpr taken)
    have inside := (Frame.mem_taken.mp used).1
    refine ⟨base, (owned base).mpr member, ?_, valid'.owner?_eq spread' member inside⟩
    rw [thinned.geometry] at inside ⊢
    exact valid.owner?_eq spread (thinned.owners base member) inside
  case geometry => exact thinned.geometry
  case interval => exact thinned.interval
  case releases => exact congrArg Stock.releases thinned.stock
  case count =>
    have fewer := Stock.length_compacted_le (before.1.stock before.2).shelves
    rw [valid.discarded_eq tells, Stock.length_shed, valid.frameCount_eq, valid'.frameCount_eq, shelves]
    omega

end Pool

/-- Blocks that have gone back are taken off the bytes that are mapped. -/
theorem Arena.Returned.mappedBytes {before after : Arena σ (Books ω)} {blocks : List Extent}
    (returned : Returned blocks before after) (conserved : after.footing = before.footing) :
    after.stats.mappedBytes + Extent.total blocks = before.stats.mappedBytes := by
  have bytes : after.machine.journal.bytes = before.machine.journal.bytes - Extent.total blocks := by
    rw [Journal.bytes, returned.events, List.foldl_append, ← Journal.bytes]
    generalize before.machine.journal.bytes = start
    clear returned
    induction blocks generalizing start with
    | nil => exact (Int.sub_zero start).symm
    | cons block rest ih =>
      rw [List.map_cons, List.foldl_cons, ih, Extent.total_cons]
      change start + -(block.2 : Int) - _ = _
      omega
  have kept : (after.stats.mappedBytes : Int) - after.machine.journal.bytes =
      before.stats.mappedBytes - before.machine.journal.bytes := congrArg (·.2.2) conserved
  omega

namespace Allocator

variable [Host σ] [LawfulHost σ] {allocator : Allocator σ (Books ω)} {locked : List Extent}

/-- No pool of the registry has a frame that compaction would take away. -/
def Settled (allocator : Allocator σ ω) : Prop :=
  ∀ (index : Nat) pool, allocator.pools[index]? = some (some pool) →
    Stock.compacted (pool.stock allocator.arena.machine.memory).shelves =
      (pool.stock allocator.arena.machine.memory).shelves

theorem Sound.compactFrom_settled (sound : Sound locked allocator) (settled : allocator.Settled)
    (index count : Nat) : compactFrom index count allocator = .ok 0 allocator := by
  change compactFrom index count allocator = (pure 0 : Run (Allocator σ (Books ω)) Nat) allocator
  induction count generalizing index with
  | zero => rfl
  | succ count ih =>
    apply Run.eq_of_meets
    intro post stop
    simp only [compactFrom, Run.meets_bind, Run.meets_get]
    cases found : allocator.pools[index]?.join with
    | none => exact Run.meets_congr (ih (index + 1))
    | some pool =>
      have here := Option.join_eq_some_iff.mp found
      have compacts : Pool.compact (pool, allocator.arena) =
          (pure 0 : Pool.Action σ (Books ω) Nat) (pool, allocator.arena) :=
        (sound.entries.focus here).compact_settled (settled index pool here)
      simp only [onEntry, Run.meets_bind, Run.meets_focus, Run.meets_congr compacts, Run.meets_pure,
        Entries.set_self here]
      rw [Run.meets_congr (ih (index + 1))]
      simp only [Run.meets_pure, Run.meets_lift (Size.add_ok (show 0 + 0 < Size.bound by decide))]

end Allocator

namespace Session

variable [Host σ] [LawfulHost σ] {session : Session σ ω} {pool : Pool} {source : Source}

def busy (session : Session σ ω) (source : Source) (pool : Pool) (base : Addr) : Bool :=
  session.slots.any fun slot => decide (slot.source = source) && pool.owner? slot.addr == some base

theorem Sound.tells (sound : Sound session) (here : session.pool? source = some pool) :
    Pool.Tells (session.busy source pool) pool session.memory := by
  have valid := sound.valid_of here
  have spread := sound.accounts.machine.spread
  intro base owned
  constructor
  · intro used
    obtain ⟨slot, member, mine⟩ := List.any_eq_true.mp used
    rw [Bool.and_eq_true, decide_eq_true_iff, beq_iff_eq] at mine
    have taken := (sound.handedOut_iff here).mp ⟨slot, member, mine.1, rfl⟩
    obtain ⟨other, claimed, index, marked, same⟩ := Pool.mem_live.mp taken
    have owner := mine.2
    rw [same, valid.owner?_eq spread claimed (Frame.mem_taken.mp marked).1] at owner
    obtain rfl := Option.some.inj owner
    exact Finset.ne_empty_of_mem (List.mem_toFinset.mpr marked)
  · intro used
    obtain ⟨index, marked⟩ := Finset.nonempty_iff_ne_empty.mpr used
    have marked := List.mem_toFinset.mp marked
    have taken := Pool.mem_live.mpr ⟨base, owned, index, marked, rfl⟩
    obtain ⟨slot, member, mine, there⟩ := (sound.handedOut_iff here).mpr taken
    refine List.any_eq_true.mpr ⟨slot, member, ?_⟩
    rw [Bool.and_eq_true, decide_eq_true_iff, beq_iff_eq, there]
    exact ⟨mine, valid.owner?_eq spread owned (Frame.mem_taken.mp marked).1⟩

def discarded (session : Session σ ω) (source : Source) : List Extent :=
  (session.pool? source).elim [] fun pool =>
    (Pool.discarded (session.busy source pool) (pool.listed session.memory)).map fun base =>
      (base, pageBytes session.arena.pageSize pool.frameLen)

structure Compacts (session : Session σ ω) (source : Source) (pool : Pool) (count : Nat)
    (after : Pool × Arena σ (Books ω)) : Prop where
  shed : Pool.Shed (session.busy source pool) (pool, session.memory) (after.1, after.2.machine.memory)
  fewer : after.1.frameCount + count = pool.frameCount
  returned : Arena.Returned (session.discarded source) session.arena after.2
  mapped : after.2.stats.mappedBytes + count * pageBytes session.arena.pageSize pool.frameLen =
    session.arena.stats.mappedBytes
  again : Pool.compact after = .ok 0 after

structure CompactsAll (session : Session σ ω) (total : Nat) (after : Allocator σ (Books ω)) : Prop where
  pools : ∀ index : Nat, Option.Rel (fun pool changed => Pool.Shed (session.busy (.registry index) pool)
    (pool, session.memory) (changed, after.arena.machine.memory)) session.allocator.pools[index]?.join
      after.pools[index]?.join
  total : (after.registered.map Pool.frameCount).sum + total =
    (session.allocator.registered.map Pool.frameCount).sum
  returned : Arena.Returned ((List.range session.allocator.pools.size).flatMap (session.discarded <| .registry ·))
    session.arena after.arena
  mapped : after.arena.stats.mappedBytes +
    Extent.total ((List.range session.allocator.pools.size).flatMap (session.discarded <| .registry ·)) =
      session.arena.stats.mappedBytes
  policy : after.policy = session.allocator.policy
  again : Allocator.compactAll after = .ok 0 after

private theorem total_discarded (bases : List Addr) (len : Nat) :
    Extent.total (bases.map fun base => (base, len)) = bases.length * len := by
  rw [Extent.total, List.map_map]
  change (bases.map fun _ => len).sum = _
  rw [List.map_const', List.sum_replicate, smul_eq_mul]

theorem Sound.surplus_eq (sound : Sound session) (here : session.pool? source = some pool) :
    pool.surplus session.arena.pageSize session.arena.machine.memory = session.discarded source := by
  rw [discarded, here, Option.elim_some, (sound.valid_of here).discarded_eq (sound.tells here)]
  rfl

theorem Sound.compacts (sound : Sound session) (here : session.pool? source = some pool) :
    ∃ count after, Pool.compact (pool, session.arena) = .ok count after ∧
      Compacts session source pool count after := by
  obtain ⟨locked, focused⟩ := sound.focus here
  have meets := focused.compact_spec.and (Pool.conserves_compact (pool, session.arena))
  obtain ⟨count, after, ran, ⟨compacted, shelved, returned⟩, conserved⟩ :=
    Run.Ends.exists_ok (meets.mono (fun _ _ => id) fun _ _ stopped => stopped.1)
  have shed :=
    (compacted.thinned shelved).shed focused.valid compacted.sound.valid focused.spread compacted.sound.spread
    (sound.tells here)
  have fewer : after.1.frameCount + count = pool.frameCount := by
    have total := compacted.total
    rw [← focused.valid.length_shelves, ← compacted.sound.valid.length_shelves, ← focused.valid.frameCount_eq,
      ← compacted.sound.valid.frameCount_eq] at total
    exact total
  have counted : (Pool.discarded (session.busy source pool) (pool.listed session.memory)).length = count :=
    Nat.add_left_cancel (shed.count.trans fewer.symm)
  rw [sound.surplus_eq here] at returned
  refine ⟨count, after, ran, shed, fewer, returned, ?_, compacted.sound.compact_settled ?_⟩
  · have bytes := returned.mappedBytes conserved
    rwa [discarded, here, Option.elim_some, total_discarded, counted] at bytes
  · change Stock.compacted (Pool.view after).shelves = (Pool.view after).shelves
    rw [shelved]
    exact Stock.compacted_compacted _

private theorem Sound.surplus_registry (sound : Sound session) :
    session.allocator.surplus = (session.discarded <| .registry ·) := by
  funext index
  cases found : session.pool? (.registry index) with
  | none =>
    have absent : session.allocator.pools[index]?.join = none := found
    rw [discarded, found, Allocator.surplus, absent, Option.elim_none, Option.elim_none]
  | some pool =>
    have here : session.allocator.pools[index]?.join = some pool := found
    rw [← sound.surplus_eq found, Allocator.surplus, here, Option.elim_some]
    rfl

omit [LawfulHost σ] [Host σ] in
/-- A sweep of the whole registry reaches every pool in it. -/
private theorem thinned_all {before after : Allocator σ (Books ω)}
    (pools : ∀ index, Allocator.Thinned 0 before.pools.size before after index) (index : Nat) :
    Option.Rel (fun pool changed => Pool.Thinned (pool, before.arena.machine.memory)
      (changed, after.arena.machine.memory))
      before.pools[index]?.join after.pools[index]?.join := by
  have step := pools index
  unfold Allocator.Thinned at step
  generalize here : before.pools[index]?.join = old at step ⊢
  generalize after.pools[index]?.join = new at step ⊢
  cases step with
  | none => exact .none
  | some step =>
    have inside := Entries.lt_size (Option.join_eq_some_iff.mp here)
    rw [if_pos (by omega)] at step
    exact .some step

theorem Sound.compactsAll (sound : Sound session) :
    ∃ total after, Allocator.compactAll session.allocator = .ok total after ∧
      CompactsAll session total after := by
  have meets := sound.registry.compactAll_spec.and (Allocator.conserves_compactAll session.allocator)
  obtain ⟨total, after, ran, swept, conserved⟩ :=
    Run.Ends.exists_ok (meets.mono (fun _ _ => id) fun _ _ stopped => stopped.1)
  have returned := swept.returned
  rw [sound.surplus_registry, ← List.range_eq_range'] at returned
  refine ⟨total, after, ran, ?_, ?_, returned, returned.mappedBytes conserved, swept.changes.policy, ?_⟩
  · intro index
    have step := thinned_all swept.pools index
    generalize here : session.allocator.pools[index]?.join = old at step ⊢
    generalize there : after.pools[index]?.join = new at step ⊢
    cases step with
    | none => exact .none
    | some step =>
      apply Option.Rel.some
      exact step.shed (sound.registry.entries.valid index _ (Option.join_eq_some_iff.mp here))
        (swept.sound.entries.valid index _ (Option.join_eq_some_iff.mp there)) sound.accounts.machine.spread
        swept.sound.entries.accounts.machine.spread (sound.tells here)
  · have before : (session.allocator.registered.map Pool.frameCount).sum = session.allocator.frames :=
      sound.registry.entries.frameCount_eq _
    have left : (after.registered.map Pool.frameCount).sum = after.frames := swept.sound.entries.frameCount_eq _
    rw [before, left]
    exact swept.total
  · rw [Allocator.compactAll, Run.get_bind]
    apply swept.sound.compactFrom_settled
    intro index changed there
    have step := thinned_all swept.pools index
    rw [there] at step
    generalize session.allocator.pools[index]?.join = old at step
    cases step with
    | some step =>
      rw [step.stock]
      exact Stock.compacted_compacted _

/-- Compaction leaves a pool of any session with the frames in use or, when there are none, with the first
one, and the host has the others back. The compaction of the registry does so with each of its pools. -/
theorem Attained.sheds (attained : Attained session) :
    (∀ source pool, session.pool? source = some pool →
      (∃ count after, Pool.compact (pool, session.arena) = .ok count after ∧
        Compacts session source pool count after) ∧
      Paged session source pool) ∧
    ∃ total after, Allocator.compactAll session.allocator = .ok total after ∧
      CompactsAll session total after := by
  have sound := attained.sound
  refine ⟨?_, sound.compactsAll⟩
  intro source pool here
  exact ⟨sound.compacts here, attained.paged here⟩

end Session

/-- A session with three frames of a pool, of which the middle one is in use, and an idle one of another. -/
def thinned : List (Op (Option Addr)) :=
  [.createPool 4000, .poolAcquire 0, .poolAcquire 0, .poolAcquire 0, .poolRelease 0 0x10000000030,
    .poolRelease 0 0x30000000030, .alloc 24, .free 24 0x40000000030]

namespace Session

theorem sheds_of_thinned : ∃ session : Session (Quota Kernel) (Option Addr),
    replay fourPages .standard none thinned = some session ∧ session.arena.stats.mappedBytes = 16384 ∧
      (∃ pool after, session.pool? (.dedicated 0) = some pool ∧ Pool.compact (pool, session.arena) = .ok 2 after ∧
        Compacts session (.dedicated 0) pool 2 after) ∧
      ∃ total after, Allocator.compactAll session.allocator = .ok total after ∧
        CompactsAll session total after := by
  have ended : ((replay fourPages .standard none thinned).bind fun session =>
      (session.pool? (.dedicated 0)).bind fun pool =>
        match Pool.compact (pool, session.arena) with
        | .ok count _ => some (session.arena.stats.mappedBytes, count)
        | .error .. => none) = some (16384, 2) := by
    decide +kernel
  obtain ⟨session, replayed, ended⟩ := Option.bind_eq_some_iff.mp ended
  obtain ⟨pool, here, ended⟩ := Option.bind_eq_some_iff.mp ended
  have attained : Attained session :=
    (Reachable.of_replay fourPages_fresh (by decide) (by decide) replayed).attained
  obtain ⟨single, all⟩ := attained.sheds
  obtain ⟨⟨count, after, ran, compacts⟩, -⟩ := single _ pool here
  rw [ran] at ended
  obtain ⟨mapped, rfl⟩ := Prod.mk.inj (Option.some.inj ended)
  exact ⟨session, replayed, mapped, ⟨pool, after, here, ran, compacts⟩, all⟩

/-- A pool made by hand for pages of 64 bytes counts its frames in them, and the host counts in its own. -/
theorem mappedBytes_of_small_pages : ∃ (session : Session (Quota Kernel) (Option Addr)) (pool : Pool)
    (after : Pool × Arena (Quota Kernel) (Books (Option Addr))), Attained session ∧
      session.pool? (.dedicated 0) = some pool ∧ Pool.compact (pool, session.arena) = .ok 1 after ∧
      after.2.stats.mappedBytes ≠ session.arena.stats.mappedBytes - 1 * pool.frameLen := by
  have ended : ((replay fourPages .standard none []).bind fun begun : Session (Quota Kernel) (Option Addr) =>
      (begun.adopt 16 64 300).bind fun adopted =>
        ((run [.poolAcquire 0, .poolAcquire 0, .poolRelease 0 0x10000000030, .poolRelease 0 0x20000000030]).ended?
          adopted).bind
          fun done => (done.2.pool? (.dedicated 0)).bind fun pool =>
            (Pool.compact.ended? (pool, done.2.arena)).map fun compacted =>
            (done.2.arena.stats.mappedBytes, pool.frameLen, compacted.1, compacted.2.2.stats.mappedBytes)) =
      some (8192, 64, 1, 4096) := by
    decide +kernel
  obtain ⟨begun, replayed, ended⟩ := Option.bind_eq_some_iff.mp ended
  obtain ⟨adopted, taken, ended⟩ := Option.bind_eq_some_iff.mp ended
  obtain ⟨⟨_, session⟩, ran, ended⟩ := Option.bind_eq_some_iff.mp ended
  obtain ⟨pool, here, ended⟩ := Option.bind_eq_some_iff.mp ended
  obtain ⟨⟨count, after⟩, compacted, ended⟩ := Option.map_eq_some_iff.mp ended
  simp only [Prod.mk.injEq] at ended
  obtain ⟨mapped, len, rfl, left⟩ := ended
  have start : Attained begun := (Reachable.of_replay fourPages_fresh (by decide) (by decide) replayed).attained
  have attained : Attained session := (Attained.adopt start (by decide) taken).run (Run.ended?_eq_some.mp ran)
  refine ⟨session, pool, after, attained, here, Run.ended?_eq_some.mp compacted, ?_⟩
  rw [mapped, len, left]
  decide

end Session
end SlabAllocator
