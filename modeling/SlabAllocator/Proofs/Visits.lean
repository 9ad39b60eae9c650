import SlabAllocator.Proofs.Berth

/-! What an operation of a client means to one of the pools of a session. It asks the pool for one thing
at most, and what it does to other pools or in the arena goes unnoticed. -/

namespace SlabAllocator

def Source.index? : Source → Option Nat
  | registry index => some index
  | dedicated _ => none

/-- Only the destruction of a pool takes it away. -/
def Op.spares (source : Source) : Op ω → Bool
  | .teardown => !source.isRegistry
  | .destroyPool number => source != .dedicated number
  | _ => true

namespace Session

def berth (session : Session σ ω) (source : Source) : Berth :=
  ⟨session.pool? source, session.memory⟩

/-- The make of a pool. A registered one need not be there yet. -/
def make? (session : Session σ ω) : Source → Option Make
  | .registry index => session.allocator.make? index
  | .dedicated number =>
    (session.pool? (.dedicated number)).map fun pool => .of session.arena.pageSize pool.geometry pool.interval

section Visits

variable [Host σ]

def visit? (session : Session σ ω) (source : Source) : Op ω → Option (Stock.Call × Stock.Answer)
  | .alloc size => source.index?.bind fun index =>
    if session.allocator.class? size = some index then
      ((alloc size).value? session).map fun outcome => (.acquire, .of outcome)
    else none
  | .free size addr => source.index?.bind fun index =>
    if session.allocator.class? size = some index ∧ (session.find? (some index) size addr).isSome then
      some (.release addr, .released)
    else none
  | .realloc size addr newSize => source.index?.bind fun index =>
    ((realloc size addr newSize).value? session).join.bind fun outcome =>
      Allocator.moving? (session.allocator.class? size) (session.allocator.class? newSize) addr outcome index
  | .releaseSlot addr => source.index?.bind fun index =>
    (session.slots.find? fun slot => slot.source.isRegistry && slot.addr == addr).bind fun slot =>
      if slot.source = .registry index then some (.release addr, .released) else none
  | .compactAll => source.index?.bind fun index =>
    if (session.allocator.berth index).pool.isSome then
      ((Allocator.compactEntry index).value? session.allocator).map fun count => (.compact, .compacted count)
    else none
  | .poolAcquire number => session.dedicated[number]?.join.bind fun pool =>
    if source = .dedicated number then
      (Allocator.poolAcquire.value? (pool, session.allocator)).map fun outcome => (.acquire, .of outcome)
    else none
  | .poolRelease number addr => session.dedicated[number]?.join.bind fun pool =>
    if source = .dedicated number ∧ ⟨.dedicated number, addr, pool.entitySize⟩ ∈ session.slots then
      some (.release addr, .released)
    else none
  | .compactPool number => session.dedicated[number]?.join.bind fun pool =>
    if source = .dedicated number then
      (Allocator.compactPool.value? (pool, session.allocator)).map fun count => (.compact, .compacted count)
    else none
  | _ => none

end Visits

variable [Host σ] [LawfulHost σ] {session middle : Session σ ω} {source : Source} {make : Make} {number : Nat}

omit [LawfulHost σ] [Host σ] in
theorem make?_fits (makes : session.make? source = some make) : (session.berth source).Fits make := by
  cases source with
  | registry index => exact Allocator.make?_fits makes
  | dedicated number =>
    intro pool here
    obtain ⟨other, there, rfl⟩ := Option.map_eq_some_iff.mp makes
    obtain rfl := Option.some.inj (here.symm.trans there)
    exact ⟨rfl, rfl⟩

omit [LawfulHost σ] [Host σ] in
theorem make?_mappable (makes : session.make? source = some make) :
    make.mappable = decide (pageBytes session.arena.pageSize make.geometry.frameLen ≤ Size.longest) := by
  cases source with
  | registry index => exact Allocator.make?_mappable makes
  | dedicated number =>
    obtain ⟨pool, -, rfl⟩ := Option.map_eq_some_iff.mp makes
    rfl

section Books

omit [LawfulHost σ] [Host σ]

theorem berth_gain (session : Session σ ω) (entry : Option Nat) (size addr : Nat) (source : Source) :
    (session.gain entry size addr).berth source = session.berth source := by
  cases entry <;> cases source <;> rfl

theorem berth_drop (session : Session σ ω) (grant : Grant) (source : Source) :
    (session.drop grant).berth source = session.berth source := by
  cases grant <;> cases source <;> rfl

theorem berth_restore (session : Session σ ω) (grant : Grant) (source : Source) :
    (session.restore grant).berth source = session.berth source := by
  cases grant <;> cases source <;> rfl

theorem berth_slots (session : Session σ ω) (slots : List Slot) (source : Source) :
    ({ session with slots } : Session σ ω).berth source = session.berth source := by
  cases source <;> rfl

end Books

/-- The pools that the client created rest while the allocator is at work on the registered ones. -/
private theorem Sound.onAllocator_meets (sound : Sound session) (dedicated : middle.dedicated = session.dedicated)
    (same : ∀ source, middle.berth source = session.berth source) {action : Run (Allocator σ (Books ω)) α}
    {post : α → Berth → Berth → Prop}
    (steady : action.Meets middle.allocator (fun _ after =>
      ∀ extent ∈ session.extents, after.arena.machine.memory.find? extent.1 = session.memory.find? extent.1)
        fun _ _ => True)
    (registry : ∀ index, source = .registry index → action.Meets middle.allocator
      (fun a after => post a (middle.allocator.berth index) (after.berth index)) fun _ _ => True)
    (aside : source.index? = none → ∀ a before after, Berth.Rests before after → post a before after) :
    (onAllocator action).Meets middle (fun a after => post a (session.berth source) (after.berth source))
      fun _ _ => True := by
  simp only [onAllocator, Run.meets_focus]
  cases source with
  | registry index =>
    refine (registry index rfl).imp fun a after holds => ?_
    rw [← same]
    exact holds
  | dedicated number =>
    refine steady.imp fun a after kept => ?_
    apply aside rfl
    change Berth.Rests _ ⟨middle.dedicated[number]?.join, _⟩
    rw [dedicated]
    exact sound.pools.rests kept number

/-- What the allocator asks is asked of registered pools. -/
theorem Sound.onAllocator_visits (sound : Sound session) (dedicated : middle.dedicated = session.dedicated)
    (same : ∀ source, middle.berth source = session.berth source) {granted : Prop}
    {action : Run (Allocator σ (Books ω)) α} {visit : Nat → α → Option (Stock.Call × Stock.Answer)}
    (steady : action.Meets middle.allocator (fun _ after =>
      ∀ extent ∈ session.extents, after.arena.machine.memory.find? extent.1 = session.memory.find? extent.1)
        fun _ _ => True)
    (visits : ∀ index, source = .registry index → action.Meets middle.allocator (fun a after =>
      Berth.Visited make granted (visit index a) (middle.allocator.berth index) (after.berth index))
        fun _ _ => True) :
    (onAllocator action).Meets middle (fun a after => Berth.Visited make granted (source.index?.bind (visit · a))
      (session.berth source) (after.berth source)) fun _ _ => True := by
  apply sound.onAllocator_meets dedicated same steady
  · rintro index rfl
    exact visits index rfl
  · intro unlisted a before after rests
    rw [unlisted]
    exact rests

abbrev Rested (session : Session σ ω) (source : Source) (run : Run (Session σ ω) α) : Prop :=
  run.Meets session (fun _ after => (session.berth source).Rests (after.berth source)) fun _ _ => True

abbrev Attends (make : Make) (session : Session σ ω) (source : Source) (run : Run (Session σ ω) α)
    (visit : α → Option (Stock.Call × Stock.Answer)) : Prop :=
  run.Meets session (fun a after => Berth.Visited make (session.arena.Supplies make) (visit a)
    (session.berth source) (after.berth source)) fun _ _ => True

theorem Sound.alloc_attends (sound : Sound session) (makes : session.make? source = some make) (size : Nat) :
    Attends make session source (alloc size) fun outcome => source.index?.bind fun index =>
      if session.allocator.class? size = some index then some (.acquire, .of outcome) else none := by
  have visits : Attends make session source (onAllocator (Allocator.alloc size)) fun outcome =>
      source.index?.bind fun index =>
      if session.allocator.class? size = some index then some (.acquire, .of outcome) else none := by
    apply sound.onAllocator_visits rfl fun _ => rfl
    · exact (sound.registry.alloc_spec size).mono (fun _ _ served => served.1.entries.steady.locked)
        fun _ _ _ => trivial
    · rintro index rfl
      exact sound.registry.alloc_visits size makes
  simp only [Attends, alloc, Run.meets_bind]
  refine visits.imp fun outcome middle visited => ?_
  cases outcome with
  | error error =>
    simp only [Run.meets_pure]
    exact visited
  | ok addr =>
    simp only [Run.meets_bind, Run.meets_get]
    apply Run.meets_lift_any
    intro entry _
    simp only [Run.meets_modify, Run.meets_pure, berth_gain]
    exact visited

theorem Sound.free_attends (sound : Sound session) (makes : session.make? source = some make) (size addr : Nat) :
    Attends make session source (free size addr) fun _ => session.visit? source (.free size addr) := by
  simp only [Attends, free, Run.meets_bind, Run.meets_get, Run.meets_lift (route_eq sound.registry size)]
  cases found : session.find? (session.allocator.class? size) size addr with
  | none =>
    have unasked : session.visit? source (.free size addr) = none := by
      simp only [visit?, Option.bind_eq_none_iff]
      rintro index -
      rw [if_neg]
      rintro ⟨kind, held⟩
      rw [kind] at found
      rw [found] at held
      cases held
    simp only [Run.meets_pure, unasked]
    exact .refl _
  | some grant =>
    have pending := sound.drop found fun index kind => (sound.registry.policy.class?_spec kind).2.2.1
    have visit : session.visit? source (.free size addr) = source.index?.bind fun index =>
        if session.allocator.class? size = some index then some (.release addr, .released) else none := by
      simp only [visit?]
      congr 1
      funext index
      by_cases kind : session.allocator.class? size = some index
      · rw [kind] at found
        rw [if_pos kind, if_pos ⟨kind, by rw [found]; rfl⟩]
      · rw [if_neg kind, if_neg fun both => kind both.1]
    simp only [Run.meets_bind, Run.meets_modify, visit]
    apply sound.onAllocator_visits pending.dedicated (berth_drop session grant)
    · refine (pending.owns.free_spec (class?_drop session grant size)).imp fun _ after freed => ?_
      rw [← memory_drop session grant]
      exact freed.2.1.entries.steady.locked
    · rintro index rfl
      have fits : ((session.drop grant).berth (.registry index)).Fits make := by
        rw [berth_drop]
        exact make?_fits makes
      exact pending.owns.free_visits (class?_drop session grant size) fits _

theorem Sound.realloc_attends (sound : Sound session) (makes : session.make? source = some make)
    (size addr newSize : Nat) :
    Attends make session source (realloc size addr newSize) fun outcome => source.index?.bind fun index =>
      outcome.bind fun outcome =>
        Allocator.moving? (session.allocator.class? size) (session.allocator.class? newSize) addr
          outcome index := by
  simp only [Attends, realloc, Run.meets_bind, Run.meets_get, Run.meets_lift (route_eq sound.registry size),
    Run.meets_lift (route_eq sound.registry newSize)]
  cases found : session.find? (session.allocator.class? size) size addr with
  | none =>
    have unasked : (source.index?.bind fun _ => (none : Option (Stock.Call × Stock.Answer))) = none := by
      cases source.index? <;> rfl
    simp only [Run.meets_pure, Option.bind_none, unasked]
    exact .refl _
  | some grant =>
    have pending := sound.drop found fun index kind => (sound.registry.policy.class?_spec kind).2.2.1
    have routed := class?_drop session grant size
    have visits : (onAllocator (Allocator.realloc size addr newSize)).Meets (session.drop grant)
        (fun outcome after => Berth.Visited make (session.arena.Supplies make) (source.index?.bind fun index =>
          Allocator.moving? (session.allocator.class? size) (session.allocator.class? newSize) addr outcome index)
          (session.berth source) (after.berth source)) fun _ _ => True := by
      apply sound.onAllocator_visits pending.dedicated (berth_drop session grant)
      · refine (pending.owns.realloc_spec routed newSize).mono (fun outcome after moved => ?_)
          fun _ _ _ => trivial
        rw [← memory_drop session grant]
        cases outcome with
        | ok fresh => exact moved.2.1.entries.steady.locked
        | error error => exact (moved.2.1.mono fun _ => List.mem_append_right _).entries.steady.locked
      · rintro index rfl
        have made : (session.drop grant).allocator.make? index = some make := by
          rw [← makes]
          cases grant <;> rfl
        have supplies : (session.drop grant).allocator.arena.Supplies make = session.arena.Supplies make := by
          cases grant <;> rfl
        rw [← supplies, ← class?_drop session grant newSize]
        exact pending.owns.realloc_visits routed made newSize
    simp only [Run.meets_bind, Run.meets_modify]
    refine visits.imp fun outcome middle visited => ?_
    cases outcome with
    | ok moved =>
      simp only [Run.meets_bind, Run.meets_modify, Run.meets_pure, berth_gain]
      exact visited
    | error error =>
      simp only [Run.meets_bind, Run.meets_modify, Run.meets_pure, berth_restore]
      exact visited

theorem Sound.releaseSlot_attends (sound : Sound session)
    (makes : session.make? source = some make) (addr : Nat) :
    Attends make session source (releaseSlot addr) fun _ => session.visit? source (.releaseSlot addr) := by
  simp only [Attends, releaseSlot, Run.meets_bind, Run.meets_get]
  cases found : session.slots.find? fun slot => slot.source.isRegistry && slot.addr == addr with
  | none =>
    have unasked : session.visit? source (.releaseSlot addr) = none := by
      simp only [visit?, found, Option.bind_none, Option.bind_eq_none_iff, implies_true]
    simp only [Run.meets_pure, unasked]
    exact .refl _
  | some slot =>
    have member := List.mem_of_find?_eq_some found
    have matched := List.find?_some found
    simp only [Bool.and_eq_true, beq_iff_eq] at matched
    obtain ⟨registered, rfl⟩ := matched
    obtain ⟨target, placed⟩ : ∃ target, slot.source = .registry target := by
      cases kept : slot.source with
      | registry target => exact ⟨target, rfl⟩
      | dedicated number => rw [kept] at registered; cases registered
    have pending := sound.dropSlot member placed (Nat.zero_le _)
    have taken := (pending.owns.slot target rfl).1
    have visit : session.visit? source (.releaseSlot slot.addr) = source.index?.bind fun index =>
        if target = index then some (.release slot.addr, .released) else none := by
      simp only [visit?, found, Option.bind_some, placed, Source.registry.injEq]
    simp only [Run.meets_bind, Run.meets_modify, visit]
    apply sound.onAllocator_visits pending.dedicated (berth_drop session (.slot slot))
    · exact (pending.owns.sound.releaseSlot_spec taken).imp fun _ after freed => freed.2.1.entries.steady.locked
    · rintro index rfl
      exact pending.owns.sound.releaseSlot_visits taken (make?_fits makes) _

theorem Sound.compactAll_attends (sound : Sound session) (makes : session.make? source = some make) :
    Attends make session source (onAllocator Allocator.compactAll)
      fun _ => session.visit? source .compactAll := by
  simp only [visit?]
  apply sound.onAllocator_visits rfl fun _ => rfl
  · exact (sound.registry.compactAll_spec).imp fun _ after swept => swept.changes.entries.steady.locked
  · rintro index rfl
    exact (sound.registry.compactAll_visits (make?_fits makes) _).imp fun _ _ => id

/-- What the arena does for the client does not show in any pool. -/
private theorem Sound.onAllocator_rests (sound : Sound session) (dedicated : middle.dedicated = session.dedicated)
    (same : ∀ source, middle.berth source = session.berth source) {action : Run (Allocator σ (Books ω)) α}
    (steady : action.Meets middle.allocator (fun _ after =>
      ∀ extent ∈ session.extents, after.arena.machine.memory.find? extent.1 = session.memory.find? extent.1)
        fun _ _ => True)
    (rests : ∀ index, action.Meets middle.allocator
      (fun _ after => (middle.allocator.berth index).Rests (after.berth index)) fun _ _ => True)
    (source : Source) :
    (onAllocator action).Meets middle (fun _ after => (session.berth source).Rests (after.berth source))
      fun _ _ => True :=
  sound.onAllocator_meets dedicated same steady (fun index _ => rests index) fun _ _ _ _ => id

theorem Sound.acquire_rests (sound : Sound session) (source : Source) (size : Nat) :
    Rested session source (acquire size) := by
  have rests : Rested session source (onArena (Arena.acquire size)) := by
    apply sound.onAllocator_rests rfl fun _ => rfl
    · exact (sound.registry.acquire_spec size).mono (fun _ _ served => served.1.entries.steady.locked)
        fun _ _ _ => trivial
    · exact sound.registry.acquire_rests size
  simp only [Rested, acquire, Run.meets_bind]
  refine rests.imp fun outcome middle kept => ?_
  cases outcome with
  | error error =>
    simp only [Run.meets_pure]
    exact kept
  | ok addr =>
    simp only [Run.meets_bind, Run.meets_modify, Run.meets_pure, berth_gain]
    exact kept

theorem Sound.resize_rests (sound : Sound session) (source : Source) (size addr newSize : Nat) :
    Rested session source (resize size addr newSize) := by
  simp only [Rested, resize, Run.meets_bind, Run.meets_get]
  cases found : session.find? none size addr with
  | none =>
    simp only [Run.meets_pure]
    exact .refl _
  | some grant =>
    have pending := sound.drop found (by rintro _ ⟨⟩)
    have rests : (onArena (Arena.resize size addr newSize)).Meets (session.drop grant)
        (fun _ after => (session.berth source).Rests (after.berth source)) fun _ _ => True := by
      apply sound.onAllocator_rests pending.dedicated (berth_drop session grant)
      · refine (pending.owns.resize_spec newSize).mono (fun outcome after moved => ?_) fun _ _ _ => trivial
        rw [← memory_drop session grant]
        cases outcome with
        | ok fresh => exact moved.2.1.entries.steady.locked
        | error error => exact (moved.2.1.mono fun _ => List.mem_append_right _).entries.steady.locked
      · exact pending.owns.resize_rests newSize
    simp only [Run.meets_bind, Run.meets_modify]
    refine rests.imp fun outcome middle kept => ?_
    cases outcome with
    | ok moved =>
      simp only [Run.meets_bind, Run.meets_modify, Run.meets_pure, berth_gain]
      exact kept
    | error error =>
      simp only [Run.meets_bind, Run.meets_modify, Run.meets_pure, berth_restore]
      exact kept

theorem Sound.release_rests (sound : Sound session) (source : Source) (size addr : Nat) :
    Rested session source (release size addr) := by
  simp only [Rested, release, Run.meets_bind, Run.meets_get]
  cases found : session.find? none size addr with
  | none =>
    simp only [Run.meets_pure]
    exact .refl _
  | some grant =>
    have pending := sound.drop found (by rintro _ ⟨⟩)
    simp only [Run.meets_bind, Run.meets_modify]
    apply sound.onAllocator_rests pending.dedicated (berth_drop session grant)
    · refine pending.owns.release_spec.imp fun _ after freed => ?_
      rw [← memory_drop session grant]
      exact freed.2.1.entries.steady.locked
    · exact pending.owns.release_rests

theorem Sound.teardown_rests (sound : Sound session) (number : Nat) :
    Rested session (.dedicated number) teardown := by
  simp only [Rested, teardown, onAllocator, Run.meets_bind, Run.meets_focus, Run.meets_modify]
  refine Run.Ends.imp sound.registry.teardown_spec ?_
  rintro _ allocator ⟨-, changes, -⟩
  exact sound.pools.rests changes.entries.steady.locked number

private theorem Sound.edit_rests (sound : Sound session) {arena : Arena σ (Books ω)} {base low high : Nat}
    (edited : Memory.Edited [base] low high session.memory arena.machine.memory)
    (beyond : ∀ source pool, session.pool? source = some pool → base ∈ pool.owners →
      40 + 8 * pool.geometry.bitmapWords ≤ low)
    (source : Source) :
    (session.berth source).Rests
      (berth { session with allocator := { session.allocator with arena } } source) := by
  cases source with
  | registry index =>
    exact sound.registry.entries.edit_rests edited (fun index pool here =>
      beyond (.registry index) pool (Option.join_eq_some_iff.mpr here)) index
  | dedicated number =>
    exact sound.pools.edit_rests edited (fun number pool here =>
      beyond (.dedicated number) pool (Option.join_eq_some_iff.mpr here)) number

theorem Sound.protectBlock_rests (sound : Sound session) (source : Source) (size addr : Nat) (mode : Protection) :
    Rested session source (protectBlock size addr mode) := by
  simp only [Rested, protectBlock, Run.meets_bind, Run.meets_get]
  cases found : session.arena.env.find? size addr with
  | none =>
    simp only [Option.isSome_none, Bool.false_eq_true, if_false, Run.meets_pure]
    exact .refl _
  | some block =>
    simp only [Option.isSome_some, if_true, onArena, onAllocator, Allocator.onArena, Run.meets_focus]
    refine Run.Ends.imp (sound.guard_edits found mode) ?_
    rintro _ arena ⟨-, -, edited, beyond⟩
    exact sound.edit_rests edited beyond source

theorem Sound.protect_rests (sound : Sound session) (source : Source) (size addr : Nat) (mode : Protection) :
    Rested session source (protect size addr mode) := by
  simp only [Rested, protect, Run.meets_bind, Run.meets_get, Run.meets_lift (route_eq sound.registry size)]
  split
  next permitted =>
    simp only [Bool.and_eq_true, Option.isNone_iff_eq_none, Option.isSome_iff_exists] at permitted
    obtain ⟨kind, block, found⟩ := permitted
    have routed := Allocator.sizeClass_arena (Size.pos_of_isPowerOfTwo sound.accounts.power) kind
    simp only [onAllocator, Allocator.protect, Allocator.onArena, Run.meets_focus, Run.meets_bind, Run.meets_get,
      Run.meets_lift routed]
    refine Run.Ends.imp (sound.guard_edits found mode) ?_
    rintro _ arena ⟨-, -, edited, beyond⟩
    exact sound.edit_rests edited beyond source
  next =>
    simp only [Run.meets_pure]
    exact .refl _

theorem Sound.write_rests (sound : Sound session) (source : Source) (addr offset : Nat) (bytes : List UInt8) :
    Rested session source (write addr offset bytes) := by
  simp only [Rested, write, Run.meets_bind, Run.meets_get]
  split
  next permitted =>
    simp only [onArena, onAllocator, Allocator.onArena, Arena.setMemory, Arena.onMachine, Machine.setMemory,
      Run.meets_focus, Run.meets_modify]
    obtain ⟨extent, member, inside⟩ := List.any_eq_true.mp permitted
    simp only [Bool.and_eq_true, beq_iff_eq, decide_eq_true_eq] at inside
    obtain ⟨⟨rfl, room⟩, short⟩ := inside
    obtain ⟨base, low, -, edited, beyond⟩ := sound.write_edits member room short
    exact sound.edit_rests edited beyond source
  next =>
    simp only [Run.meets_pure]
    exact .refl _

theorem Sound.createPool_rests (sound : Sound session) (makes : session.make? source = some make)
    (entitySize : Nat) : Rested session source (createPool entitySize) := by
  simp only [Rested, createPool, onAllocator, Allocator.createPool, Allocator.onArena, Run.meets_bind,
    Run.meets_focus, Run.meets_get]
  refine (Pool.create_spec sound.pools.accounts (Size.pos_of_isPowerOfTwo sound.pools.accounts.power)
    sound.registry.word entitySize).imp ?_
  rintro outcome arena ⟨-, -, -, memory, -⟩
  have idle : (session.berth source).Rests
      (berth { session with allocator := { session.allocator with arena } } source) := by
    have same : ∀ place : Option Pool, Berth.Rests ⟨place, session.memory⟩ ⟨place, arena.machine.memory⟩ := by
      rw [memory]
      exact fun _ => .refl _
    cases source <;> exact same _
  cases outcome with
  | error error =>
    simp only [Run.meets_pure]
    exact idle
  | ok pool =>
    simp only [Run.meets_modify]
    refine idle.trans ?_
    cases source with
    | registry index => exact .refl _
    | dedicated number =>
      obtain ⟨old, here, -⟩ := Option.map_eq_some_iff.mp makes
      have below := Entries.lt_size (Option.join_eq_some_iff.mp here)
      have same : (session.dedicated.push (some pool))[number]? = session.dedicated[number]? := by
        rw [Array.getElem?_push, if_neg (Nat.ne_of_lt below)]
      simp only [berth, pool?, same]
      exact .refl _

section Aside

variable {pool : Pool}

/-- All other pools rest while one that the client created is at work. -/
private theorem Sound.beside_rests (sound : Sound session) {allocator : Allocator σ (Books ω)}
    (pools : allocator.pools = session.allocator.pools) (entry : Option Pool) (slots : List Slot)
    (kept : ∀ extent ∈ session.beside number, allocator.arena.machine.memory.find? extent.1 =
      session.memory.find? extent.1)
    (other : source ≠ .dedicated number) :
    (session.berth source).Rests
      (berth ⟨allocator, session.dedicated.setIfInBounds number entry, slots⟩ source) := by
  cases source with
  | registry index =>
    change Berth.Rests _ (Entries.berth allocator.pools allocator.arena.machine.memory index)
    rw [pools]
    exact sound.registry.entries.rests (fun extent member => kept extent (List.mem_append_right _ member)) index
  | dedicated another =>
    refine sound.pools.others_rest (fun extent member => kept extent (List.mem_append_left _ member))
      entry fun same => ?_
    exact other (congrArg _ same.symm)

/-- A request to one pool that the client created leaves all others alone. -/
private theorem Sound.onDedicated_visits (sound : Sound session)
    (here : session.dedicated[number]?.join = some pool) (slots : List Slot) {granted : Prop}
    {action : Pool.Action σ (Books ω) α} {call : Stock.Call} {answer : α → Stock.Answer}
    (steady : action.Meets (pool, session.arena)
      (fun _ after => Arena.Steady (session.beside number) session.arena after.2) fun _ _ => True)
    (works : source = .dedicated number → action.Meets (pool, session.arena) (fun a after =>
      Berth.Works make granted call (answer a) (Pool.berth (pool, session.arena)) (Pool.berth after))
        fun _ _ => True) :
    (onDedicated number pool (Allocator.onDedicated action)).Meets { session with slots } (fun a after =>
      (Allocator.onDedicated action).value? (pool, session.allocator) = some a ∧
        Berth.Visited make granted (if source = .dedicated number then some (call, answer a) else none)
          (session.berth source)
          (after.berth source)) fun _ _ => True := by
  have runs : (Allocator.onDedicated action).Meets (pool, session.allocator) (fun a after =>
      Arena.Steady (session.beside number) session.arena after.2.arena ∧
        (source = .dedicated number → Berth.Works make granted call (answer a) (Pool.berth (pool, session.arena))
          (Pool.berth (after.1, after.2.arena))) ∧ after.2.pools = session.allocator.pools) fun _ _ => True := by
    simp only [Allocator.onDedicated, Run.meets_focus]
    by_cases own : source = .dedicated number
    · refine (steady.and (works own)).mono ?_ fun _ _ _ => trivial
      rintro a after ⟨kept, worked⟩
      exact ⟨kept, fun _ => worked, trivial⟩
    · exact steady.imp fun a after kept => ⟨kept, fun same => absurd same own, trivial⟩
  simp only [onDedicated, Run.meets_focus]
  refine runs.traced.mono ?_ fun _ _ _ => trivial
  rintro a ⟨later, allocator⟩ ⟨ran, kept, worked, pools⟩
  refine ⟨Run.value?_of_ok ran, ?_⟩
  by_cases own : source = .dedicated number
  · subst own
    have inside := Entries.lt_size (Option.join_eq_some_iff.mp here)
    have old : session.berth (.dedicated number) = Pool.berth (pool, session.arena) := by
      rw [berth, pool?, here]; rfl
    have new : (session.dedicated.setIfInBounds number (some later))[number]?.join = some later := by
      rw [Array.getElem?_setIfInBounds_self_of_lt inside, Option.join_some]
    rw [if_pos rfl, old]
    have worked := worked rfl
    simp only [berth, pool?, new]
    exact worked
  · rw [if_neg own]
    exact sound.beside_rests pools (some later) slots kept.locked own

omit [LawfulHost σ] [Host σ] in
private theorem fits_aside (makes : session.make? source = some make)
    (here : session.dedicated[number]?.join = some pool) (own : source = .dedicated number) :
    (Pool.berth (pool, session.arena)).Fits make := by
  subst own
  have fits := make?_fits makes
  rwa [berth, pool?, here] at fits

theorem Sound.poolAcquire_attends (sound : Sound session)
    (makes : session.make? source = some make) (number : Nat) :
    Attends make session source (poolAcquire number) fun _ => session.visit? source (.poolAcquire number) := by
  simp only [Attends, visit?, poolAcquire, Run.meets_bind, Run.meets_get]
  cases here : session.dedicated[number]?.join with
  | none =>
    simp only [Run.meets_pure, Option.bind_none]
    exact .refl _
  | some pool =>
    have focused := sound.focusAside here
    have visits := sound.onDedicated_visits here session.slots
      (focused.acquire_spec.mono (fun _ _ served => served.2.1.steady) fun _ _ _ => trivial) fun own =>
      focused.acquire_works (fits_aside makes here own) fun short => by
        rwa [make?_mappable makes, decide_eq_true_iff] at short
    simp only [Option.bind_some, Run.meets_bind]
    refine visits.imp ?_
    rintro outcome after ⟨ran, visited⟩
    rw [Allocator.poolAcquire, ran, Option.map_some]
    cases outcome with
    | error error =>
      simp only [Run.meets_pure]
      exact visited
    | ok addr =>
      simp only [Run.meets_modify, berth_slots]
      exact visited

theorem Sound.poolRelease_attends (sound : Sound session) (makes : session.make? source = some make)
    (number addr : Nat) :
    Attends make session source (poolRelease number addr) fun _ => session.visit? source
      (.poolRelease number addr) := by
  simp only [Attends, visit?, poolRelease, Run.meets_bind, Run.meets_get]
  cases here : session.dedicated[number]?.join with
  | none =>
    simp only [Run.meets_pure, Option.bind_none]
    exact .refl _
  | some pool =>
    have focused := sound.focusAside here
    simp only [Option.bind_some, Run.meets_bind, Run.meets_get]
    split
    next member =>
      have taken := sound.taken member
      rw [live, Entries.live_eq (Option.join_eq_some_iff.mp here)] at taken
      have visits :=
        sound.onDedicated_visits here (session.slots.erase ⟨.dedicated number, addr, pool.entitySize⟩)
        ((focused.release_spec taken).imp fun _ _ freed => freed.2.1.steady) fun own =>
        (focused.release_works (fits_aside makes here own) taken (session.arena.Supplies make)).imp fun _ _ => id
      simp only [Run.meets_bind, Run.meets_modify, and_iff_left member]
      exact visits.imp fun _ after visited => visited.2
    next free =>
      simp only [Run.meets_pure, free, and_false, if_false]
      exact .refl _

theorem Sound.compactPool_attends (sound : Sound session)
    (makes : session.make? source = some make) (number : Nat) :
    Attends make session source (compactPool number) fun _ => session.visit? source (.compactPool number) := by
  simp only [Attends, visit?, compactPool, Run.meets_bind, Run.meets_get]
  cases here : session.dedicated[number]?.join with
  | none =>
    simp only [Run.meets_pure, Option.bind_none]
    exact .refl _
  | some pool =>
    have focused := sound.focusAside here
    have visits := sound.onDedicated_visits here session.slots
      (focused.compact_spec.imp fun _ _ compacted => compacted.1.changes.steady) fun own =>
      (focused.compact_works (fits_aside makes here own) (session.arena.Supplies make)).imp fun _ _ => id
    simp only [Option.bind_some, Run.meets_bind, Run.meets_pure]
    refine visits.imp ?_
    rintro count after ⟨ran, visited⟩
    rw [Allocator.compactPool, ran, Option.map_some]
    exact visited

theorem Sound.destroyPool_rests (sound : Sound session) (other : source ≠ .dedicated number) :
    Rested session source (destroyPool number) := by
  simp only [Rested, destroyPool, Run.meets_bind, Run.meets_get]
  cases here : session.dedicated[number]?.join with
  | none =>
    simp only [Run.meets_pure]
    exact .refl _
  | some pool =>
    simp only [onDedicated, Allocator.destroyPool, Allocator.onDedicated, Run.meets_bind, Run.meets_focus,
      Run.meets_modify, Array.setIfInBounds_setIfInBounds]
    refine (sound.focusAside here).destroy_spec.imp ?_
    rintro _ later ⟨-, steady, -⟩
    have pools : Allocator.pools { session.allocator with arena := later.2 } = session.allocator.pools := rfl
    exact sound.beside_rests pools none _ steady.locked other

end Aside

/-- Each operation asks a pool for what it visits it for, and all others leave it at rest. -/
theorem Sound.step_attends (sound : Sound session) (makes : session.make? source = some make) {op : Op ω}
    (spares : op.spares source = true) :
    Attends make session source (step op) fun _ => session.visit? source op := by
  cases op with
  | alloc size =>
    simp only [Attends, step, Run.meets_bind, Run.meets_pure]
    refine (sound.alloc_attends makes size).traced.mono ?_ fun _ _ _ => trivial
    rintro outcome after ⟨ran, visited⟩
    simp only [visit?, Run.value?_of_ok ran, Option.map_some]
    exact visited
  | free size addr => exact sound.free_attends makes size addr
  | realloc size addr newSize =>
    simp only [Attends, step, Run.meets_bind, Run.meets_pure]
    refine (sound.realloc_attends makes size addr newSize).traced.mono ?_ fun _ _ _ => trivial
    rintro outcome after ⟨ran, visited⟩
    simp only [visit?, Run.value?_of_ok ran, Option.join_some]
    exact visited
  | releaseSlot addr => exact sound.releaseSlot_attends makes addr
  | protect size addr mode => exact sound.protect_rests source size addr mode
  | compactAll =>
    simp only [Attends, step, Run.meets_bind, Run.meets_pure]
    exact sound.compactAll_attends makes
  | createPool entitySize => exact sound.createPool_rests makes entitySize
  | poolAcquire number => exact sound.poolAcquire_attends makes number
  | poolRelease number addr => exact sound.poolRelease_attends makes number addr
  | compactPool number => exact sound.compactPool_attends makes number
  | destroyPool number => exact sound.destroyPool_rests (bne_iff_ne.mp spares)
  | acquire size =>
    simp only [Attends, step, Run.meets_bind, Run.meets_pure]
    exact sound.acquire_rests source size
  | resize size addr newSize =>
    simp only [Attends, step, Run.meets_bind, Run.meets_pure]
    exact sound.resize_rests source size addr newSize
  | release size addr => exact sound.release_rests source size addr
  | protectBlock size addr mode => exact sound.protectBlock_rests source size addr mode
  | setHook programs =>
    simp only [Attends, step, setHook, onArena, onAllocator, Allocator.onArena, Arena.setHook, Run.meets_bind,
      Run.meets_get, Run.meets_focus, Run.meets_modify]
    cases source <;> exact .refl _
  | write addr offset bytes => exact sound.write_rests source addr offset bytes
  | change f =>
    simp only [Attends, step, Run.meets_modify]
    cases source <;> exact .refl _
  | teardown =>
    cases source with
    | registry index => cases spares
    | dedicated number => exact sound.teardown_rests number

omit [LawfulHost σ] [Host σ] in
theorem make?_of_pool (pool : Pool) (here : session.pool? source = some pool) :
    session.make? source = some (.of session.arena.pageSize pool.geometry pool.interval) := by
  cases source with
  | registry index =>
    rw [make?, Allocator.make?, Option.join_eq_some_iff.mp here]
    rfl
  | dedicated number => rw [make?, here, Option.map_some]

/-- What a pool is made like does not change, nor what it will be made like once it is needed. -/
theorem Sound.make?_step (sound : Sound session) {after : Session σ ω} {op : Op ω}
    (makes : session.make? source = some make) (spares : op.spares source = true)
    (stepped : step op session = .ok () after) : after.make? source = some make := by
  have visited := (sound.step_attends makes spares).of_ok stepped
  obtain ⟨sound', kept, policy⟩ := (sound.step_spec op).of_ok stepped
  have paged : after.arena.pageSize = session.arena.pageSize := kept.paged
  cases here : after.pool? source with
  | some pool =>
    obtain ⟨geometry, interval⟩ := visited.fits (make?_fits makes) pool here
    rw [make?_of_pool pool here, paged, geometry, interval, Make.of, ← make?_mappable makes]
  | none =>
    have before : session.pool? source = none := by
      rw [← here]
      exact (visited.absent here).symm
    cases source with
    | registry index =>
      have vacant : session.allocator.pools[index]? = some none := by
        cases found : session.allocator.pools[index]? with
        | none =>
          rw [make?, Allocator.make?, found] at makes
          cases makes
        | some entry =>
          rw [pool?, found] at before
          exact congrArg some before
      have still : after.allocator.pools[index]? = some none := by
        cases found : after.allocator.pools[index]? with
        | none =>
          obtain ⟨inside, -⟩ := Array.getElem?_eq_some_iff.mp vacant
          have outside := Array.getElem?_eq_none_iff.mp found
          rw [sound'.registry.size, policy, ← sound.registry.size] at outside
          exact absurd inside (Nat.not_lt.mpr outside)
        | some entry =>
          rw [pool?, found] at here
          exact congrArg some here
      rw [make?, Allocator.make?, vacant] at makes
      rw [make?, Allocator.make?, still, policy, show after.allocator.arena.pageSize =
        session.allocator.arena.pageSize from paged]
      exact makes
    | dedicated number =>
      rw [make?, before] at makes
      cases makes

omit [LawfulHost σ] [Host σ] in
/-- A pool that comes behind the others does not move them. -/
theorem pool?_push (arena : Arena σ (Books ω)) (fresh : Pool) (makes : session.make? source = some make) :
    pool? ⟨{ session.allocator with arena }, session.dedicated.push (some fresh), session.slots⟩ source =
      session.pool? source := by
  cases source with
  | registry index => rfl
  | dedicated number =>
    obtain ⟨pool, here, -⟩ := Option.map_eq_some_iff.mp makes
    have below := Entries.lt_size (Option.join_eq_some_iff.mp here)
    change (session.dedicated.push (some fresh))[number]?.join = _
    rw [Array.getElem?_push, if_neg (Nat.ne_of_lt below)]
    rfl

theorem Sound.make?_adopt (sound : Sound session) {after : Session σ ω} {entitySize pageSize interval : Nat}
    (word : interval < Size.bound) (adopted : session.adopt entitySize pageSize interval = some after)
    (makes : session.make? source = some make) : after.make? source = some make := by
  obtain ⟨kept, -⟩ := sound.adopt_kept word adopted
  obtain ⟨fresh, arena, -, rfl⟩ := adopt_spec adopted
  have paged : arena.pageSize = session.allocator.arena.pageSize := kept
  cases source with
  | registry index =>
    rw [make?, Allocator.make?] at makes ⊢
    rw [← makes]
    simp only [paged]
  | dedicated number =>
    have still := pool?_push arena fresh makes
    rw [make?] at makes ⊢
    rw [still, ← makes, Session.arena, paged]
    rfl

end Session
end SlabAllocator
