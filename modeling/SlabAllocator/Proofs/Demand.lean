import Mathlib.Algebra.Order.Floor.Div
import SlabAllocator.Proofs.Holdings
import SlabAllocator.Proofs.Origins
import SlabAllocator.Proofs.Teardown
import SlabAllocator.Proofs.Unfailing
import SlabAllocator.Proofs.Visits

/-! How many frames a pool keeps. It adds one only when every slot of every frame is handed out, so it
never has more of them than the slots that were handed out at its busiest time take up. -/

namespace SlabAllocator

namespace Stock

variable {geometry : Geometry} {interval : Nat} {call : Call} {answer : Answer} {before after stock : Stock}

def load (stock : Stock) : Nat :=
  (stock.shelves.map (·.taken.card)).sum

theorem load_append (shelves : List Shelf) (shelf : Shelf) (releases : Nat) :
    load ⟨shelves ++ [shelf], releases⟩ = load ⟨shelves, releases⟩ + shelf.taken.card := by
  rw [load, List.map_append, List.sum_append]
  exact congrArg (load ⟨shelves, releases⟩ + ·) (List.sum_singleton)

theorem load_le (room : ∀ shelf ∈ stock.shelves, shelf.taken.card ≤ geometry.slots) :
    stock.load ≤ stock.shelves.length * geometry.slots := by
  have bound := List.sum_le_card_nsmul (stock.shelves.map (·.taken.card)) geometry.slots (by simpa using room)
  rwa [List.length_map, smul_eq_mul] at bound

/-- Frames without a free slot are in full use. -/
theorem le_load_of_full (full : place? geometry stock.shelves = none) :
    stock.shelves.length * geometry.slots ≤ stock.load := by
  have used : ∀ shelf ∈ stock.shelves, geometry.slots ≤ shelf.taken.card := by
    intro shelf member
    have covered : Finset.range geometry.slots ⊆ shelf.taken := by
      intro index inside
      exact place?_eq_none.mp full shelf member index (Finset.mem_range.mp inside)
    simpa using Finset.card_le_card covered
  have bound := List.card_nsmul_le_sum (stock.shelves.map (·.taken.card)) geometry.slots (by simpa using used)
  rwa [List.length_map, smul_eq_mul] at bound

/-- A call adds a frame only where the slots that are handed out then would not fit without it. -/
theorem Step.length_le (inhabited : 0 < geometry.slots) (step : Step geometry interval call answer before after) :
    after.shelves.length ≤ max before.shelves.length (after.load ⌈/⌉ geometry.slots) := by
  cases step with
  | take place =>
    have kept := congrArg List.length (bases_place? place)
    rw [List.length_map, List.length_map] at kept
    exact le_max_of_le_left kept.le
  | grow full fresh =>
    apply le_max_of_le_right
    have loaded := le_load_of_full full
    rw [List.length_append, List.length_singleton, Nat.succ_le_iff, ← not_le, ceilDiv_le_iff_le_mul inhabited,
      not_le, load_append, Finset.card_singleton, Nat.mul_comm]
    exact Nat.lt_succ_of_le loaded
  | deny full => exact le_max_left ..
  | release holds =>
    apply le_max_of_le_left
    rw [tally]
    split
    · exact (length_compacted_le _).trans (List.length_map _).le
    · exact (List.length_map _).le
  | compact left => exact le_max_of_le_left (length_compacted_le _)

end Stock

namespace Pool

variable {pool : Pool} {memory : Memory}

private theorem card_taken (geometry : Geometry) (memory : Memory) (base : Addr) :
    (shelf geometry memory base).taken.card = (Frame.taken geometry (memory.block base)).length :=
  List.toFinset_card_of_nodup (List.nodup_range.filter _)

theorem Valid.load_eq (valid : pool.Valid memory) : (pool.stock memory).load = (pool.live memory).length := by
  obtain ⟨nodes, lists, order⟩ := valid.lists
  rw [Stock.load, shelves_eq lists, List.map_map, live, List.length_flatMap, (order.map _).sum_nat.symm]
  refine congrArg List.sum (List.map_congr_left fun base _ => ?_)
  rw [Function.comp_apply, card_taken, slotsAt, List.length_map]

/-- A frame has no more slots than there is room for. -/
theorem Valid.length_live_le_slots (valid : pool.Valid memory) :
    (pool.live memory).length ≤ pool.frameCount * pool.geometry.slots := by
  obtain ⟨nodes, lists, -⟩ := valid.lists
  have room : ∀ shelf ∈ (pool.stock memory).shelves, shelf.taken.card ≤ pool.geometry.slots := by
    rw [shelves_eq lists]
    intro shelf member
    obtain ⟨base, -, rfl⟩ := List.mem_map.mp member
    rw [card_taken]
    exact Frame.length_taken_le ..
  have bound := Stock.load_le room
  rwa [valid.load_eq, ← valid.frameCount_eq] at bound

end Pool

namespace Session

variable {session before after : Session σ ω} {past sessions : List (Session σ ω)} {source : Source} {pool : Pool}

def demand (source : Source) (session : Session σ ω) : Nat :=
  (session.pool? source).elim 0 fun pool => (pool.liveSlots session.memory).toOption.getD 0

/-- The latest sessions, back to the one in which a pool was created. -/
def life (source : Source) (sessions : List (Session σ ω)) : List (Session σ ω) :=
  sessions.takeWhile fun session => (session.pool? source).isSome

def peak? (source : Source) (sessions : List (Session σ ω)) : Option Nat :=
  ((life source sessions).map (demand source)).max?

theorem life_cons (here : session.pool? source = some pool) (past : List (Session σ ω)) :
    life source (session :: past) = session :: life source past :=
  List.takeWhile_cons_of_pos (by rw [here]; rfl)

theorem peak?_cons (here : session.pool? source = some pool) (past : List (Session σ ω)) :
    peak? source (session :: past) =
      some ((peak? source past).elim (session.demand source) (max (session.demand source))) := by
  rw [peak?, life_cons here, List.map_cons, List.max?_cons]
  rfl

section Dedicated

variable {number : Nat}

def Bare (number : Nat) (session : Session σ ω) : Prop :=
  ∀ pool, session.dedicated[number]?.join = some pool → pool.frameCount = 0

private theorem bare_of_none (vacant : session.dedicated[number]?.join = none) : session.Bare number := by
  intro pool here
  rw [vacant] at here
  cases here

private theorem Bare.gain (bare : session.Bare number) (entry : Option Nat) (size addr : Nat) :
    (session.gain entry size addr).Bare number := by
  cases entry <;> exact bare

private theorem Bare.drop (bare : session.Bare number) (grant : Grant) : (session.drop grant).Bare number := by
  cases grant <;> exact bare

private theorem Bare.restore (bare : session.Bare number) (grant : Grant) :
    (session.restore grant).Bare number := by
  cases grant <;> exact bare

/-- A pool that comes into the hands of the client has no frames yet. -/
theorem step_bares [Host σ] (vacant : session.dedicated[number]?.join = none) (op : Op ω) :
    Retains (Bare number) (step op) session := by
  refine step_rule (fun before after edit bare => ?_) (bare_of_none vacant)
  cases edit with
  | work | take | close => exact bare
  | drop => exact bare.drop _
  | restore => exact bare.restore _
  | gain | enter => exact bare.gain _ _ _
  | aside allocator after here =>
    intro pool there
    rw [Array.getElem?_setIfInBounds_ne] at there
    · exact bare pool there
    · rintro rfl
      rw [vacant] at here
      cases here
  | push empty =>
    intro pool here
    rw [Array.getElem?_push] at here
    split at here
    · cases here
      rw [Pool.frameCount, empty]
      rfl
    · exact bare pool here
  | retire =>
    intro pool here
    rw [Array.getElem?_setIfInBounds] at here
    split at here
    · split at here <;> cases here
    · exact bare pool here

end Dedicated

section Frames

variable [Host σ] [LawfulHost σ] {op : Op ω}

/-- A session and those that led to it, the latest first. -/
inductive Story : Session σ ω → List (Session σ ω) → Prop
  | start {host : σ} {policy : Policy} {env : ω} {session : Session σ ω}
    (starts : Starts host policy env session) :
    Story session []
  | step {before after : Session σ ω} {past : List (Session σ ω)} {op : Op ω} (story : Story before past)
    (stepped : Session.step op before = .ok () after) : Story after (before :: past)
  | adopt {before after : Session σ ω} {past : List (Session σ ω)} {entitySize pageSize interval : Nat}
    (story : Story before past) (word : interval < Size.bound)
    (adopted : before.adopt entitySize pageSize interval = some after) : Story after (before :: past)

theorem Story.attained (story : Story session past) : Attained session := by
  induction story with
  | start starts => exact .start starts
  | step _ stepped attained => exact attained.step stepped
  | adopt _ word adopted attained => exact attained.adopt word adopted

theorem Attained.story (attained : Attained session) : ∃ past, Story session past := by
  induction attained with
  | start starts => exact ⟨[], .start starts⟩
  | step _ stepped told =>
    obtain ⟨past, story⟩ := told
    exact ⟨_, story.step stepped⟩
  | adopt _ word adopted told =>
    obtain ⟨past, story⟩ := told
    exact ⟨_, story.adopt word adopted⟩

theorem Sound.demand_eq (sound : Sound session) (here : session.pool? source = some pool) :
    pool.liveSlots session.memory = .ok (session.demand source) ∧
    session.demand source = (pool.stock session.memory).load := by
  obtain ⟨locked, focused⟩ := sound.focus here
  have counted := focused.liveSlots_eq
  have counts : session.demand source = (pool.live session.memory).length := by
    rw [demand, here, Option.elim_some]
    exact congrArg (·.toOption.getD 0) counted
  rw [counts]
  exact ⟨counted, focused.valid.load_eq.symm⟩

private theorem Sound.destroyPool_vacates (sound : Sound session) (number : Nat) :
    (destroyPool number).Meets session (fun _ after => after.pool? (.dedicated number) = none)
      fun _ _ => True := by
  cases here : session.pool? (.dedicated number) with
  | some pool =>
    refine Run.Ends.imp (sound.destroyPool_returned here) ?_
    rintro _ after ⟨-, dedicated, -⟩
    rw [pool?, dedicated, Array.getElem?_setIfInBounds_self_of_lt
      (Entries.lt_size (Option.join_eq_some_iff.mp here)), Option.join_some]
  | none =>
    have vacant : session.dedicated[number]?.join = none := here
    simp only [destroyPool, Run.meets_bind, Run.meets_get, vacant, Run.meets_pure]
    exact here

/-- The pool that an operation does not spare is gone. -/
private theorem Sound.gone (sound : Sound before) (lost : op.spares source = false)
    (stepped : step op before = .ok () after) : after.pool? source = none := by
  cases op with
  | teardown =>
    cases source with
    | registry index => exact (sound.teardown_returned.of_ok stepped).1 index
    | dedicated number => cases lost
  | destroyPool number =>
    obtain rfl : source = .dedicated number := by simpa [Op.spares] using lost
    exact (sound.destroyPool_vacates number).of_ok stepped
  | _ => cases lost

/-- A registered pool was to be made like this all along. -/
private theorem Sound.make?_of_registered (sound : Sound before) (sound' : Sound after)
    (paged : after.arena.pageSize = before.arena.pageSize)
    (policy : after.allocator.policy = before.allocator.policy)
    (made : after.Fits (Geometry.Made after.arena.pageSize) fun _ => True) {index : Nat}
    (here : after.pool? (.registry index) = some pool) : before.make? (.registry index) ≠ none := by
  have listed := Option.join_eq_some_iff.mp here
  have entity := sound'.registry.entitySize index pool listed
  obtain ⟨entitySize, shaped⟩ := made.registry index pool listed
  have positive := Size.pos_of_isPowerOfTwo sound'.accounts.power
  rcases Geometry.ofEntity_spec entitySize positive with refused | ⟨geometry, found, -, same⟩
  · rw [refused] at shaped
    cases shaped
  rw [shaped] at found
  cases found
  have size : entitySize = before.allocator.policy.entitySize index := by
    rw [← same, ← policy]
    exact entity
  rw [size, paged] at shaped
  change Geometry.ofEntity _ before.allocator.arena.pageSize = _ at shaped
  have inside : index < before.allocator.pools.size := by
    rw [sound.registry.size, ← policy, ← sound'.registry.size]
    exact Entries.lt_size listed
  rw [make?, Allocator.make?, Array.getElem?_eq_getElem inside]
  cases before.allocator.pools[index] with
  | some old => simp only [ne_eq, reduceCtorEq, not_false_eq_true]
  | none => simp only [shaped, ne_eq, reduceCtorEq, not_false_eq_true]

/-- A pool has no more frames than its slots in use need, or else it had as many before. -/
def Frugal (source : Source) (pool : Pool) (before after : Session σ ω) : Prop :=
  pool.frameCount ≤ after.demand source ⌈/⌉ pool.geometry.slots ∨
    ∃ old, before.pool? source = some old ∧ old.geometry = pool.geometry ∧ pool.frameCount ≤ old.frameCount

theorem Sound.visited_frugal (sound : Sound before) (sound' : Sound after) {make : Make} {granted : Prop}
    {visit : Option (Stock.Call × Stock.Answer)} (makes : before.make? source = some make)
    (visited : Berth.Visited make granted visit (before.berth source) (after.berth source))
    (here : after.pool? source = some pool) : Frugal source pool before after := by
  have shaped := (visited.fits (make?_fits makes) pool here).1
  have valid := sound'.valid_of here
  have stocked : (after.berth source).stock = pool.stock after.memory := by
    rw [Berth.stock, berth, here]
    rfl
  have bound : pool.frameCount ≤
      max (before.berth source).stock.shelves.length (after.demand source ⌈/⌉ pool.geometry.slots) := by
    rw [valid.frameCount_eq, (sound'.demand_eq here).2, ← stocked]
    cases visit with
    | none => exact le_max_of_le_left (congrArg (·.shelves.length) (Berth.Rests.stock visited)).le
    | some visit =>
      rw [shaped]
      exact (Berth.Works.step visited).length_le (shaped ▸ valid.geometry.inhabited)
  rcases le_max_iff.mp bound with kept | needed
  · cases there : before.pool? source with
    | some old =>
      refine .inr ⟨old, there, (make?_fits makes old there).1.trans shaped.symm, ?_⟩
      rw [(sound.valid_of there).frameCount_eq]
      refine kept.trans (le_of_eq ?_)
      rw [Berth.stock, berth, there]
      rfl
    | none =>
      left
      refine kept.trans (le_of_eq_of_le ?_ (Nat.zero_le _))
      rw [Berth.stock, berth, there]
      rfl
  · exact .inl needed

theorem Attained.step_frugal (attained : Attained before) (stepped : Session.step op before = .ok () after)
    (here : after.pool? source = some pool) : Frugal source pool before after := by
  have sound := attained.sound
  obtain ⟨sound', kept, policy⟩ := (sound.step_spec op).of_ok stepped
  cases spares : op.spares source with
  | false =>
    rw [sound.gone spares stepped] at here
    cases here
  | true =>
    cases makes : before.make? source with
    | some make => exact sound.visited_frugal sound' makes ((sound.step_attends makes spares).of_ok stepped) here
    | none =>
      cases source with
      | registry index =>
        exact absurd makes (sound.make?_of_registered sound' kept.paged policy (attained.step stepped).made here)
      | dedicated number =>
        left
        have vacant : before.dedicated[number]?.join = none := Option.map_eq_none_iff.mp makes
        rw [(step_bares vacant op).of_ok stepped pool here]
        exact Nat.zero_le _

theorem Sound.adopt_frugal (sound : Sound before) {entitySize pageSize interval : Nat}
    (word : interval < Size.bound) (adopted : before.adopt entitySize pageSize interval = some after)
    (here : after.pool? source = some pool) : Frugal source pool before after := by
  have stays (there : before.pool? source = some pool) : Frugal source pool before after :=
    .inr ⟨pool, there, rfl, Nat.le_refl _⟩
  obtain ⟨fresh, arena, created, rfl⟩ := adopt_spec adopted
  cases source with
  | registry index => exact stays here
  | dedicated number =>
    rw [pool?, Array.getElem?_push] at here
    split at here
    · cases here
      left
      obtain ⟨-, -, -, -, valid, empty, -⟩ :=
        (Pool.create_spec sound.accounts (Pool.pos_of_create created) word entitySize).of_ok created
      rw [(valid before.memory).frameCount_eq, (valid before.memory).length_shelves, empty]
      exact Nat.zero_le _
    · exact stays here

/-- The frames of a pool hold no more than what was handed out of it at its busiest time. -/
def Needed (source : Source) (pool : Pool) (sessions : List (Session σ ω)) : Prop :=
  ∃ highest, peak? source sessions = some highest ∧ pool.frameCount ≤ highest ⌈/⌉ pool.geometry.slots

omit [Host σ] [LawfulHost σ] in
private theorem Frugal.needed (frugal : Frugal source pool before after) (here : after.pool? source = some pool)
    (inhabited : 0 < pool.geometry.slots)
    (earlier : ∀ old, before.pool? source = some old → Needed source old (before :: past)) :
    Needed source pool (after :: before :: past) := by
  have monotone : Monotone (· ⌈/⌉ pool.geometry.slots) := (gc_mul_ceilDiv inhabited).monotone_l
  refine ⟨_, peak?_cons here _, ?_⟩
  rcases frugal with enough | ⟨old, there, shape, fewer⟩
  · refine enough.trans (monotone ?_)
    cases peak? source (before :: past) with
    | none => exact Nat.le_refl _
    | some highest => exact le_max_left ..
  · obtain ⟨highest, peak, bound⟩ := earlier old there
    rw [peak, Option.elim_some]
    rw [shape] at bound
    exact fewer.trans (bound.trans (monotone (le_max_right ..)))

theorem Story.needed (story : Story session past) (here : session.pool? source = some pool) :
    Needed source pool (session :: past) := by
  induction story generalizing pool with
  | start starts =>
    rw [starts.vacant] at here
    cases here
  | step story stepped earlier =>
    have attained := story.attained
    have inhabited := ((attained.step stepped).sound.valid_of here).geometry.inhabited
    exact (attained.step_frugal stepped here).needed here inhabited fun _ => earlier
  | adopt story word adopted earlier =>
    have attained := story.attained
    have inhabited := ((attained.adopt word adopted).sound.valid_of here).geometry.inhabited
    exact (attained.sound.adopt_frugal word adopted here).needed here inhabited fun _ => earlier

/-- A pool always has room for what is handed out of it, and never more frames than it needed for the slots
that were handed out at its busiest time, whatever was released and taken again since then. -/
theorem Story.bounded (story : Story session past) (here : session.pool? source = some pool) :
    ∃ live highest, pool.liveSlots session.memory = .ok live ∧ live ≤ pool.frameCount * pool.geometry.slots ∧
      peak? source (session :: past) = some highest ∧ pool.frameCount ≤ highest ⌈/⌉ pool.geometry.slots := by
  have sound := story.attained.sound
  obtain ⟨counted, loaded⟩ := sound.demand_eq here
  obtain ⟨highest, peak, bound⟩ := story.needed here
  refine ⟨_, highest, counted, ?_, peak, bound⟩
  rw [loaded, (sound.valid_of here).load_eq]
  exact (sound.valid_of here).length_live_le_slots

/-- Five slots were taken in frames of two, and one of them was given back. -/
theorem bounded_of_handmade : ∃ (session : Session (Quota Kernel) (Option Addr))
    (past : List (Session (Quota Kernel) (Option Addr))) (pool : Pool), Story session past ∧
    session.pool? (.dedicated 0) = some pool ∧
      (pool.frameCount, pool.geometry.slots, (pool.liveSlots session.memory).toOption) = (3, 2, some 4) ∧
      ∃ live highest, pool.liveSlots session.memory = .ok live ∧ live ≤ pool.frameCount * pool.geometry.slots ∧
        peak? (.dedicated 0) (session :: past) = some highest ∧
        pool.frameCount ≤ highest ⌈/⌉ pool.geometry.slots := by
  have ended : (handmade.bind fun session => (session.pool? (.dedicated 0)).map fun pool =>
      (pool.frameCount, pool.geometry.slots, (pool.liveSlots session.memory).toOption)) =
        some (3, 2, some 4) := by
    decide +kernel
  obtain ⟨session, made, ended⟩ := Option.bind_eq_some_iff.mp ended
  obtain ⟨pool, here, counts⟩ := Option.map_eq_some_iff.mp ended
  obtain ⟨past, story⟩ := (attained_of_handmade made).story
  exact ⟨session, past, pool, story, here, counts, story.bounded here⟩

end Frames

end Session
end SlabAllocator
