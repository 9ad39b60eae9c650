import SlabAllocator.Proofs.Draining
import SlabAllocator.Proofs.Rejection
import SlabAllocator.Proofs.Shedding
import SlabAllocator.Proofs.Visits

/-! When a pool compacts on its own. Its counter only ever moves with a release, and is reset once it gets to
the interval, so it tells how often the pool was released to since it was made, up to multiples of the interval.
By the time the frames are looked at, the slot that is released counts as free. -/

namespace SlabAllocator

namespace Stock

variable {geometry : Geometry} {interval count : Nat} {call : Call} {answer : Answer} {stock before after : Stock}
  {shelves : List Shelf} {shelf : Shelf}

def Call.releases : Call → Nat
  | .release _ => 1
  | _ => 0

/-- A counter that starts over at the interval gets there with every multiple of it. -/
theorem due_iff (positive : 0 < interval) : interval ≤ count % interval + 1 ↔ interval ∣ count + 1 := by
  have below := Nat.mod_lt count positive
  rw [Nat.dvd_iff_mod_eq_zero, ← Nat.mod_add_mod]
  rcases Nat.lt_or_eq_of_le (Nat.succ_le_of_lt below) with early | last
  · rw [Nat.mod_eq_of_lt early]
    omega
  · rw [Nat.succ_eq_add_one] at last
    simp [last]

theorem tally_eq (positive : 0 < interval) (counted : stock.releases = count % interval) :
    stock.tally interval =
      if interval ∣ count + 1 then ⟨compacted stock.shelves, 0⟩
        else { stock with releases := stock.releases + 1 } :=
  if_congr (by rw [counted, due_iff positive]) rfl rfl

theorem releases_tally (positive : 0 < interval) (counted : stock.releases = count % interval) :
    (stock.tally interval).releases = (count + 1) % interval := by
  rw [tally_eq positive counted]
  split
  next due => exact (Nat.mod_eq_zero_of_dvd due).symm
  next early =>
    have below : count % interval + 1 < interval := Nat.not_le.mp ((due_iff positive).not.mpr early)
    rw [← Nat.mod_add_mod, Nat.mod_eq_of_lt below, counted]

/-- No call but a release moves the counter. -/
theorem Step.releases (positive : 0 < interval) (step : Step geometry interval call answer before after)
    (counted : before.releases = count % interval) : after.releases = (count + call.releases) % interval := by
  cases step with
  | take place => exact counted
  | grow full fresh => exact counted
  | deny full => exact counted
  | release holds => exact releases_tally positive counted
  | compact left => exact counted

theorem bare_iff (geometry : Geometry) (stock : Stock) :
    (∀ shelf ∈ stock.shelves, shelf.taken = ∅) ↔ ∀ addr, ¬ stock.Holds geometry addr := by
  constructor
  · rintro empty addr ⟨shelf, member, index, used, -⟩
    rw [empty shelf member] at used
    exact Finset.notMem_empty index used
  · intro free shelf member
    apply Finset.eq_empty_of_forall_notMem
    intro index used
    exact free _ ⟨shelf, member, index, used, rfl⟩

/-- An empty frame stays behind only as the first of frames that are all empty. -/
theorem mem_shed_iff (distinct : (shelves.map Shelf.base).Nodup) (member : shelf ∈ shelves)
    (empty : shelf.taken = ∅) :
    shelf.base ∈ shed shelves ↔
      ¬ ((∀ other ∈ shelves, other.taken = ∅) ∧ (shelves.map Shelf.base).head? = some shelf.base) := by
  have listed : shelf.base ∈ shelves.map Shelf.base := List.mem_map_of_mem member
  rw [shed_eq distinct, List.mem_reverse, List.mem_filter, decide_eq_true_iff, and_iff_right listed, not_iff_not]
  by_cases bare : ∀ other ∈ shelves, other.taken = ∅
  · rw [compacted, if_pos bare, and_iff_right bare, List.map_take]
    cases shelves.map Shelf.base with
    | nil => simp
    | cons base rest => simp [eq_comm]
  -- Some other frame is in use, and then no empty one is left.
  · refine iff_of_false ?_ fun alone => bare alone.1
    rw [compacted, if_neg bare]
    intro kept
    obtain ⟨other, left, same⟩ := List.mem_map.mp kept
    obtain ⟨there, used⟩ := List.mem_filter.mp left
    rw [List.inj_on_of_nodup_map distinct there member same] at used
    exact of_decide_eq_true used empty

end Stock

/-- A pool that was just made has not been released to. -/
theorem Pool.create_begins (entitySize pageSize interval : Nat) (arena : Arena σ ω) :
    (create entitySize pageSize interval).Meets arena (fun outcome _ => ∀ pool, outcome = .ok pool →
      pool.releases = 0 ∧ pool.interval = max interval 1) fun _ _ => True := by
  simp only [create, Run.meets_bind]
  refine Run.meets_lift_any fun geometry? _ => ?_
  cases geometry? with
  | none =>
    simp only [Run.meets_pure]
    rintro _ ⟨⟩
  | some geometry =>
    simp only [Arena.say, Arena.onMachine, Run.meets_bind, Run.meets_focus, Run.meets_modify, Run.meets_pure]
    rintro _ ⟨⟩
    exact ⟨rfl, rfl⟩

namespace Pool

variable [Host σ] [LawfulHost σ] {pool : Pool} {arena : Arena σ (Books ω)} {locked : List Extent}

/-- The frames are looked at when a release is due, with the counter reset by then, and not before. -/
theorem Sound.countRelease_paced (sound : Sound locked pool arena) :
    countRelease.Ends (pool, arena) fun _ after =>
      (pool.interval ≤ pool.releases + 1 → ∃ released,
        compact ({ pool with releases := 0 }, arena) = .ok released after) ∧
      (¬ pool.interval ≤ pool.releases + 1 → after = ({ pool with releases := pool.releases + 1 }, arena)) := by
  obtain ⟨below, word⟩ := sound.valid.cadence
  have counted : Size.add pool.releases 1 = .ok (pool.releases + 1) := Size.add_ok (by omega)
  simp only [countRelease, put, Run.meets_bind, Run.meets_get, Run.meets_lift counted]
  split
  next due =>
    have reset : Sound locked { pool with releases := 0 } arena := sound.recount (by omega)
    simp only [Run.meets_bind, Run.meets_modify]
    obtain ⟨released, after, ran, -⟩ := reset.compact_spec.exists_ok
    refine Run.Meets.ended ran ?_
    simp only [Run.meets_pure]
    exact ⟨fun _ => ⟨released, ran⟩, fun early => absurd due early⟩
  next early =>
    simp only [Run.meets_modify]
    exact ⟨fun due => absurd due early, fun _ => trivial⟩

end Pool

namespace Session

section Counts

variable [Host σ]

def releases (session : Session σ ω) (source : Source) (op : Op ω) : Nat :=
  (session.visit? source op).elim 0 (·.1.releases)

/-- How many slots of a pool a run gives back, up to where it stops. -/
def allReleases (source : Source) : List (Op ω) → Session σ ω → Nat
  | [], _ => 0
  | op :: rest, session => session.releases source op +
    match step op session with
    | .ok _ after => allReleases source rest after
    | .error .. => 0

end Counts

variable [Host σ] [LawfulHost σ] {session before after : Session σ ω} {source : Source} {pool : Pool}
  {make : Make} {op : Op ω}
  {interval count : Nat} {addr : Addr}

/-- A pool that was made with an interval, and how often it was released to since then. -/
inductive Aged (source : Source) (interval : Nat) : Nat → Session σ ω → Prop
  | adopted {before after : Session σ ω} {entitySize pageSize : Nat} (attained : Attained before)
    (word : interval < Size.bound) (adopted : before.adopt entitySize pageSize interval = some after)
    (number : source = .dedicated before.dedicated.size) :
    Aged source interval 0 after
  | created {before after : Session σ ω} {entitySize : Nat} (attained : Attained before)
    (stepped : Session.step (.createPool entitySize) before = .ok () after)
    (policy : before.allocator.policy.compactInterval = interval)
    (number : source = .dedicated before.dedicated.size) (present : (after.pool? source).isSome) :
    Aged source interval 0 after
  /-- The pool is in the registry and is made once it is needed. -/
  | vacant {session : Session σ ω} (attained : Attained session) (registered : source.isRegistry)
    (absent : session.pool? source = none) (makes : (session.make? source).isSome)
    (policy : session.allocator.policy.compactInterval = interval) : Aged source interval 0 session
  | step {count : Nat} {before after : Session σ ω} {op : Op ω} (aged : Aged source interval count before)
    (spares : op.spares source = true) (stepped : Session.step op before = .ok () after) :
    Aged source interval (count + before.releases source op) after
  | beside {count : Nat} {before after : Session σ ω} {entitySize pageSize other : Nat}
    (aged : Aged source interval count before)
    (word : other < Size.bound) (adopted : before.adopt entitySize pageSize other = some after) :
    Aged source interval count after

theorem Aged.attained (aged : Aged source interval count session) : Attained session := by
  induction aged with
  | adopted attained word adopted => exact attained.adopt word adopted
  | created attained stepped => exact attained.step stepped
  | vacant attained => exact attained
  | step _ _ stepped attained => exact attained.step stepped
  | beside _ word adopted attained => exact attained.adopt word adopted

theorem Aged.run (aged : Aged source interval count session) {ops : List (Op ω)}
    (spares : ∀ op ∈ ops, op.spares source = true) (ran : Session.run ops session = .ok () after) :
    Aged source interval (count + allReleases source ops session) after := by
  induction ops generalizing session count with
  | nil =>
    cases ran
    exact aged
  | cons op rest ih =>
    obtain ⟨spared, others⟩ := List.forall_mem_cons.mp spares
    cases stepped : Session.step op session with
    | error fault stopped =>
      rw [Session.run, Run.bind_error stepped] at ran
      cases ran
    | ok _ middle =>
      rw [Session.run, Run.bind_ok stepped] at ran
      rw [allReleases, stepped, ← Nat.add_assoc]
      exact ih (aged.step spared stepped) others ran

omit [LawfulHost σ] [Host σ] in
private theorem berth_eq (here : session.pool? source = some pool) :
    (session.berth source).stock = pool.stock session.memory := by
  rw [Berth.stock, berth, here, Option.elim_some]

/-- What carries over from step to step: the counter of a pool, and what it is made like. -/
structure Counts (source : Source) (interval count : Nat) (session : Session σ ω) : Prop where
  makes : ∃ make, session.make? source = some make ∧ make.interval = max interval 1
  releases : (session.berth source).stock.releases = count % max interval 1

omit [LawfulHost σ] [Host σ] in
private theorem Counts.of_new (here : session.pool? source = some pool)
    (begins : pool.releases = 0 ∧ pool.interval = max interval 1) : Counts source interval 0 session := by
  refine ⟨⟨_, make?_of_pool pool here, begins.2⟩, ?_⟩
  rw [berth_eq here, Nat.zero_mod]
  exact begins.1

omit [LawfulHost σ] [Host σ] in
private theorem Counts.of_adopted {entitySize pageSize : Nat}
    (adopted : before.adopt entitySize pageSize interval = some after) :
    Counts (.dedicated before.dedicated.size) interval 0 after := by
  obtain ⟨fresh, arena, created, rfl⟩ := adopt_spec adopted
  have begins := (Pool.create_begins entitySize pageSize interval before.arena).of_ok created fresh rfl
  refine .of_new ?_ begins
  rw [pool?, Array.getElem?_push_size, Option.join_some]

omit [LawfulHost σ] [Host σ] in
private theorem Counts.of_vacant (registered : source.isRegistry) (absent : session.pool? source = none)
    (makes : (session.make? source).isSome) :
    Counts source session.allocator.policy.compactInterval 0 session := by
  obtain ⟨make, makes⟩ := Option.isSome_iff_exists.mp makes
  refine ⟨⟨make, makes, ?_⟩, ?_⟩
  · cases source with
    | dedicated number => cases registered
    | registry index =>
      have vacant : ∀ pool, session.allocator.pools[index]? ≠ some (some pool) := by
        intro pool here
        rw [pool?, here] at absent
        cases absent
      rw [make?, Allocator.make?] at makes
      split at makes
      next here => exact absurd here (vacant _)
      next =>
        split at makes
        next => cases makes; rfl
        next => cases makes
      next => cases makes
  · rw [Berth.stock, berth, absent, Nat.zero_mod]
    rfl

private theorem Counts.step (counts : Counts source interval count before) (sound : Sound before)
    (spares : op.spares source = true) (stepped : Session.step op before = .ok () after) :
    Counts source interval (count + before.releases source op) after := by
  obtain ⟨make, makes, spaced⟩ := counts.makes
  have visited := (sound.step_attends makes spares).of_ok stepped
  have positive : 0 < max interval 1 := by omega
  constructor
  case makes => exact ⟨make, sound.make?_step makes spares stepped, spaced⟩
  case releases =>
    rw [Session.releases]
    cases visit : before.visit? source op with
    | none =>
      rw [visit] at visited
      rw [Berth.Rests.stock visited]
      exact counts.releases
    | some visit' =>
      rw [visit] at visited
      have step := Berth.Works.step visited
      rw [spaced] at step
      exact step.releases positive counts.releases

section Beside

omit [LawfulHost σ] [Host σ]

variable {arena : Arena σ (Books ω)}

private theorem stock_aside (memory : arena.machine.memory = session.memory) (fresh : Pool)
    (makes : session.make? source = some make) :
    (berth ⟨{ session.allocator with arena }, session.dedicated.push (some fresh), session.slots⟩ source).stock =
      (session.berth source).stock := by
  rw [berth, pool?_push arena fresh makes, Session.memory, Session.arena, memory]
  rfl

end Beside

/-- A pool that is made beside others does not touch them. -/
private theorem Counts.beside (counts : Counts source interval count before) (sound : Sound before)
    {entitySize pageSize other : Nat} (word : other < Size.bound)
    (adopted : before.adopt entitySize pageSize other = some after) :
    Counts source interval count after := by
  obtain ⟨make, makes, spaced⟩ := counts.makes
  have kept := sound.make?_adopt word adopted makes
  obtain ⟨-, unwritten⟩ := sound.adopt_kept word adopted
  obtain ⟨fresh, arena, -, rfl⟩ := adopt_spec adopted
  have memory : arena.machine.memory = before.memory := unwritten
  refine ⟨⟨make, kept, spaced⟩, ?_⟩
  rw [stock_aside memory fresh makes]
  exact counts.releases

theorem Aged.counts (aged : Aged source interval count session) : Counts source interval count session := by
  induction aged with
  | adopted _ _ adopted number =>
    subst number
    exact .of_adopted adopted
  | created attained stepped policy number present =>
    obtain ⟨pool, here⟩ := Option.isSome_iff_exists.mp present
    refine .of_new here ?_
    subst number policy
    exact (createPool_new _ (Pool.create_begins ..)).of_ok stepped pool here
  | vacant _ registered absent makes policy =>
    subst policy
    exact .of_vacant registered absent makes
  | step aged spares stepped counts => exact counts.step aged.attained.sound spares stepped
  | beside aged word adopted counts => exact counts.beside aged.attained.sound word adopted

/-- A pool has been gone through after a slot of the client was released, which counts as free by then. -/
structure Trimmed (session : Session σ ω) (source : Source) (pool : Pool) (addr : Addr) (gone : List Addr)
    (after : Pool × Arena σ (Books ω)) : Prop where
  split : (pool.listed session.memory).Perm (gone ++ after.1.listed after.2.machine.memory)
  returned : Arena.Returned (gone.map fun base => (base, pageBytes session.arena.pageSize pool.frameLen))
    session.arena after.2
  /-- A frame that the release has emptied goes, unless no frame is in use and it is the first one. -/
  emptied : ∀ base, pool.owner? addr = some base →
    (∀ other, session.HandedOut source other → pool.owner? other = some base → other = addr) →
    (base ∈ gone ↔
      ¬ ((∀ other, session.HandedOut source other → other = addr) ∧
        (pool.listed session.memory).head? = some base))

/-- A frame has no slot in use any more once its last one is vacated. -/
private theorem Sound.emptied (sound : Sound session) (here : session.pool? source = some pool) {shelf : Shelf}
    (member : shelf ∈ (pool.stock session.memory).shelves)
    (last : ∀ other, session.HandedOut source other → pool.owner? other = some shelf.base → other = addr) :
    (shelf.vacate pool.geometry addr).taken = ∅ := by
  have valid := sound.valid_of here
  obtain ⟨owned, shape⟩ := valid.mem_shelves member
  refine Finset.filter_eq_empty_iff.mpr fun index used => ?_
  rw [not_not]
  have taken : shelf.base + pool.geometry.start index ∈ pool.live session.memory :=
    valid.holds_iff.mp ⟨shelf, member, index, used, rfl⟩
  rw [shape] at used
  have inside := (Frame.mem_taken.mp (List.mem_toFinset.mp used)).1
  exact last _ ((sound.handedOut_iff here).mpr taken) (valid.owner?_eq sound.accounts.machine.spread owned inside)

private theorem Sound.trimmed (sound : Sound session) (here : session.pool? source = some pool)
    {middle : Arena σ (Books ω)} {locked : List Extent} (focused : Pool.Sound locked pool middle)
    (freed : Freed session source pool addr middle) {released : Nat} {after : Pool × Arena σ (Books ω)}
    (ran : Pool.compact ({ pool with releases := 0 }, middle) = .ok released after) :
    ∃ gone, Trimmed session source pool addr gone after := by
  have valid := sound.valid_of here
  have reset : Pool.Sound locked { pool with releases := 0 } middle :=
    focused.recount (Nat.zero_lt_of_lt focused.valid.cadence.1)
  obtain ⟨compacted, shelved, returned⟩ := reset.compact_spec.of_ok ran
  have bases : (pool.stock middle.machine.memory).shelves.map Shelf.base = pool.listed session.memory := by
    rw [freed.stock, Stock.bases_vacate, valid.listed_eq]
  have distinct : ((pool.stock middle.machine.memory).shelves.map Shelf.base).Nodup := by
    rw [bases]
    exact valid.nodup_listed
  refine ⟨Stock.shed (pool.stock middle.machine.memory).shelves, ?_⟩
  constructor
  case split =>
    have left : after.1.listed after.2.machine.memory =
        (Stock.compacted (pool.stock middle.machine.memory).shelves).map Shelf.base := by
      rw [compacted.sound.valid.listed_eq]
      exact congrArg (fun stock => stock.shelves.map Shelf.base) shelved
    rw [left, ← bases]
    exact Stock.perm_shed distinct
  case returned =>
    have paged : middle.pageSize = session.arena.pageSize := by
      obtain ⟨_, _, same⟩ := freed.silent
      rw [same]
    rw [← paged]
    exact freed.silent.returned.trans returned
  case emptied =>
    intro base owner last
    obtain ⟨owned, -⟩ := Owners.find?_some owner
    obtain ⟨shelf, member, rfl⟩ := List.mem_map.mp (valid.mem_bases.mpr owned)
    have vacated : shelf.vacate pool.geometry addr ∈ (pool.stock middle.machine.memory).shelves := by
      rw [freed.stock]
      exact List.mem_map_of_mem member
    have bare : (∀ left ∈ (pool.stock middle.machine.memory).shelves, left.taken = ∅) ↔
        ∀ other, session.HandedOut source other → other = addr := by
      rw [Stock.bare_iff pool.geometry]
      refine forall_congr' fun other => ?_
      rw [freed.others, not_and', not_not]
    rw [← bare, ← bases]
    have parted := Stock.mem_shed_iff distinct vacated (sound.emptied here member last)
    exact parted

/-- A pool that `count` slots have been given back to, and what becomes of the next one. -/
structure Paced (interval count : Nat) (session : Session σ ω) (source : Source) (pool : Pool) : Prop where
  every : pool.interval = max interval 1
  releases : pool.releases = count % max interval 1
  counts : Size.add pool.releases 1 = .ok (pool.releases + 1)
  /-- The slot is free before the pool is compacted. When that is not due, no more than the counter changes. -/
  release : ∀ addr, session.HandedOut source addr → ∃ middle after, Freed session source pool addr middle ∧
    Pool.release addr (pool, session.arena) = .ok () after ∧
    (max interval 1 ∣ count + 1 → ∃ released gone,
      Pool.compact ({ pool with releases := 0 }, middle) = .ok released after ∧
      Trimmed session source pool addr gone after) ∧
    (¬ max interval 1 ∣ count + 1 → after = ({ pool with releases := pool.releases + 1 }, middle))

private theorem Counts.next (counts : Counts source interval count session) (sound : Sound session)
    (here : session.pool? source = some pool) : Paced interval count session source pool := by
  obtain ⟨make, makes, spaced⟩ := counts.makes
  have every : pool.interval = max interval 1 := (make?_fits makes pool here).2.trans spaced
  have count' : pool.releases = count % max interval 1 := by
    have counted := counts.releases
    rwa [berth_eq here] at counted
  have positive : 0 < max interval 1 := by omega
  obtain ⟨below, word⟩ := (sound.valid_of here).cadence
  refine ⟨every, count', Size.add_ok (by omega), fun addr taken => ?_⟩
  obtain ⟨locked, focused⟩ := sound.focus here
  obtain ⟨middle, same, focused', -, -, silent, vacated⟩ :=
    focused.release_eq ((sound.handedOut_iff here).mp taken)
  obtain ⟨_, after, ran, due, early⟩ := focused'.countRelease_paced.exists_ok
  have freed := sound.freed here silent vacated
  have falls : pool.interval ≤ pool.releases + 1 ↔ max interval 1 ∣ count + 1 := by
    rw [every, count', Stock.due_iff positive]
  refine ⟨middle, after, freed, same.trans ran, fun divides => ?_, fun remains => early (falls.not.mpr remains)⟩
  obtain ⟨released, compacted⟩ := due (falls.mpr divides)
  obtain ⟨gone, trimmed⟩ := sound.trimmed here focused' freed compacted
  exact ⟨released, gone, compacted, trimmed⟩

/-- The same, whichever operation it is that gives the slot back. -/
private theorem Counts.released (counts : Counts source interval count before) (sound : Sound before)
    (here : before.pool? source = some pool) (spares : op.spares source = true)
    (stepped : Session.step op before = .ok () after) {answer : Stock.Answer}
    (visit : before.visit? source op = some (.release addr, answer)) :
    ∃ later, after.pool? source = some later ∧
      later.stock after.memory = ((pool.stock before.memory).vacate pool.geometry addr).tally
        (max interval 1) := by
  obtain ⟨make, makes, spaced⟩ := counts.makes
  have visited := (sound.step_attends makes spares).of_ok stepped
  rw [visit] at visited
  obtain ⟨later, there⟩ := Option.isSome_iff_exists.mp (Berth.Works.present visited)
  refine ⟨later, there, ?_⟩
  have step := Berth.Works.step visited
  rw [spaced, ← (make?_fits makes pool here).1, berth_eq here, berth_eq there] at step
  generalize later.stock after.memory = left at step ⊢
  cases step
  rfl

/-- Every release frees its slot before anything else, and only then, each time the count of releases gets to
a multiple of the interval, the pool is compacted. -/
theorem Aged.paced (aged : Aged source interval count session) (here : session.pool? source = some pool) :
    Paced interval count session source pool ∧
    ∀ op addr answer after, op.spares source = true → Session.step op session = .ok () after →
      session.visit? source op = some (.release addr, answer) →
      ∃ later, after.pool? source = some later ∧ later.stock after.memory =
        if max interval 1 ∣ count + 1 then
          ⟨Stock.compacted ((pool.stock session.memory).vacate pool.geometry addr).shelves, 0⟩
        else { (pool.stock session.memory).vacate pool.geometry addr with releases := pool.releases + 1 } := by
  have sound := aged.attained.sound
  have counts := aged.counts
  have paced := counts.next sound here
  have positive : 0 < max interval 1 := by omega
  refine ⟨paced, fun op addr answer after spares stepped visit => ?_⟩
  obtain ⟨later, there, tallied⟩ := counts.released sound here spares stepped visit
  exact ⟨later, there, tallied.trans (Stock.tally_eq positive paced.releases)⟩

/-- Two releases, with a compaction in between that has nothing to do, before a third that empties the second frame. -/
def spaced : List (Op (Option Addr)) :=
  [.poolAcquire 0, .poolAcquire 0, .poolAcquire 0, .poolRelease 0 0x10000000030, .compactPool 0, .poolAcquire 0,
    .poolRelease 0 0x10000000030]

theorem paced_of_spaced : ∃ (session after : Session (Quota Kernel) (Option Addr)) (pool : Pool),
    Aged (.dedicated 0) 3 2 session ∧ session.pool? (.dedicated 0) = some pool ∧
    Paced 3 2 session (.dedicated 0) pool ∧
      (∃ gone later, Pool.release 0x20000000030 (pool, session.arena) = .ok () later ∧
        Trimmed session (.dedicated 0) pool 0x20000000030 gone later ∧ 0x20000000000 ∈ gone) ∧
      Session.step (.poolRelease 0 0x20000000030) session = .ok () after ∧
      ∃ later, after.pool? (.dedicated 0) = some later ∧ later.releases = 0 := by
  have ended : ((replay fourPages .standard none []).bind fun begun : Session (Quota Kernel) (Option Addr) =>
      (begun.adopt 40 100 3).bind fun adopted => ((run spaced).ended? adopted).bind fun done =>
        (done.2.pool? (.dedicated 0)).bind fun pool =>
          ((Session.step (.poolRelease 0 0x20000000030)).ended? done.2).map fun _ =>
            (begun.dedicated.size, allReleases (.dedicated 0) spaced adopted,
              decide (done.2.visit? (.dedicated 0) (.poolRelease 0 0x20000000030) =
                some (.release 0x20000000030, .released) ∧
                done.2.HandedOut (.dedicated 0) 0x20000000030 ∧ pool.owner? 0x20000000030 = some 0x20000000000 ∧
                (∀ slot ∈ done.2.slots, pool.owner? slot.addr = some 0x20000000000 → slot.addr = 0x20000000030) ∧
                (pool.listed done.2.memory).head? = some 0x10000000000))) = some (0, 2, true) := by
    decide +kernel
  obtain ⟨begun, replayed, ended⟩ := Option.bind_eq_some_iff.mp ended
  obtain ⟨adopted, taken, ended⟩ := Option.bind_eq_some_iff.mp ended
  obtain ⟨⟨_, session⟩, ran, ended⟩ := Option.bind_eq_some_iff.mp ended
  obtain ⟨pool, here, ended⟩ := Option.bind_eq_some_iff.mp ended
  obtain ⟨⟨_, after⟩, stepped, ended⟩ := Option.map_eq_some_iff.mp ended
  simp only [Prod.mk.injEq, decide_eq_true_eq] at ended
  obtain ⟨number, count, visit, handed, owner, last, head⟩ := ended
  have start : Attained begun := (Reachable.of_replay fourPages_fresh (by decide) (by decide) replayed).attained
  have fresh : Aged (.dedicated 0) 3 0 adopted := .adopted start (by decide) taken (by rw [number])
  have stepped := Run.ended?_eq_some.mp stepped
  have aged : Aged (.dedicated 0) 3 2 session := by
    have later := fresh.run (by decide) (Run.ended?_eq_some.mp ran)
    rwa [count] at later
  obtain ⟨paced, steps⟩ := aged.paced here
  refine ⟨session, after, pool, aged, here, paced, ?_, stepped, ?_⟩
  · obtain ⟨middle, later, -, released, due, -⟩ := paced.release _ handed
    obtain ⟨_, gone, -, trimmed⟩ := due (by decide)
    refine ⟨gone, later, released, trimmed, (trimmed.emptied _ owner ?_).mpr ?_⟩
    · rintro other ⟨slot, member, -, rfl⟩ same
      exact last slot member same
    · rintro ⟨-, first⟩
      rw [head] at first
      cases first
  · obtain ⟨later, there, stock⟩ := steps _ _ _ _ rfl stepped visit
    exact ⟨later, there, (congrArg Stock.releases stock).trans (congrArg Stock.releases (if_pos (by decide)))⟩

end Session
end SlabAllocator
