import SlabAllocator.Proofs.Ledger
import SlabAllocator.Proofs.Sweeps

/-! What the operations of a client leave behind. Each of them settles the books again, and
stops only while hooks run. -/

namespace SlabAllocator.Session

variable [Host σ] [LawfulHost σ]
variable {session middle after : Session σ ω} {kind : Option Nat} {grant : Grant} {size newSize addr : Nat}

abbrev Settles (run : Run (Session σ ω) α) (session : Session σ ω) : Prop :=
  run.Meets session (fun _ after => Sound after ∧ Changes session after) (Halted session)

theorem Sound.idle (sound : Sound session) : Sound session ∧ Changes session session :=
  sound.work rfl sound.registry (.refl sound.registry)
    (fun index => sound.ledger (.registry index)) fun _ => .refl _

/-- A request that is granted is entered in the books. -/
private theorem Sound.granted (sound : Sound session) {allocator : Allocator σ (Books ω)}
    (served : Allocator.Served session.extents kind size session.allocator (.ok addr) allocator) :
    Sound (gain { session with allocator } kind size addr) ∧
    Changes session (gain { session with allocator } kind size addr) := by
  obtain ⟨changes, owns, live⟩ := served
  have pending : Pending kind size addr session { session with allocator } :=
    ⟨rfl, owns, changes, fun index => (live index).trans ((sound.ledger (.registry index)).append_left _),
      fun _ => .refl _⟩
  exact pending.gain sound

private theorem Sound.denied (sound : Sound session) {allocator : Allocator σ (Books ω)} {error : AllocError}
    (served : Allocator.Served session.extents kind size session.allocator (.error error) allocator) :
    Sound { session with allocator } ∧ Changes session { session with allocator } := by
  obtain ⟨changes, sound', live⟩ := served
  exact sound.work rfl sound' changes (fun index => (live index).trans (sound.ledger (.registry index)))
    fun _ => .refl _

theorem Sound.alloc_spec (sound : Sound session) (size : Nat) : Settles (alloc size) session := by
  simp only [Settles, alloc, onAllocator, Run.meets_bind, Run.meets_focus]
  refine (sound.registry.alloc_spec size).mono (fun outcome allocator served => ?_)
    fun fault allocator stopped => stopped.bare
  cases outcome with
  | error error =>
    simp only [Run.meets_pure]
    exact sound.denied served
  | ok addr =>
    have same : allocator.class? size = session.allocator.class? size :=
      Allocator.class?_congr served.1.policy size
    have routed : route { session with allocator } size = .ok (session.allocator.class? size) := by
      rw [route_eq served.2.1.sound size, same]
    simp only [Run.meets_bind, Run.meets_get, Run.meets_lift routed, Run.meets_modify, Run.meets_pure]
    exact sound.granted served

theorem Sound.acquire_spec (sound : Sound session) (size : Nat) : Settles (acquire size) session := by
  simp only [Settles, acquire, onArena, onAllocator, Run.meets_bind, Run.meets_focus]
  refine (sound.registry.acquire_spec size).mono (fun outcome allocator served => ?_)
    fun fault allocator stopped => stopped.bare
  cases outcome with
  | error error =>
    simp only [Run.meets_pure]
    exact sound.denied served
  | ok addr =>
    simp only [Run.meets_bind, Run.meets_modify, Run.meets_pure]
    exact sound.granted served

private theorem Pending.freed (pending : Pending kind size addr session middle) (sound : Sound session)
    {allocator : Allocator σ (Books ω)}
    (freed : Allocator.Freed session.extents kind addr middle.allocator allocator)
    (old : ∀ index, middle.allocator.live index = session.allocator.live index) :
    Sound { middle with allocator } ∧ Changes session { middle with allocator } := by
  obtain ⟨sound', changes, lost⟩ := freed
  refine sound.work pending.dedicated sound' (pending.changes.trans changes fun index target before _ => ?_)
    (fun index => ?_)
    pending.aside
  · rw [old]
    exact before
  · exact (List.perm_append_left_iff _).mp ((lost index).symm.trans (pending.registry index))

omit [LawfulHost σ] [Host σ] in
private theorem live_drop (session : Session σ ω) (grant : Grant) (index : Nat) :
    (session.drop grant).allocator.live index = session.allocator.live index := by
  cases grant <;> rfl

omit [LawfulHost σ] [Host σ] in
theorem class?_drop (session : Session σ ω) (grant : Grant) (size : Nat) :
    (session.drop grant).allocator.class? size = session.allocator.class? size := by
  cases grant <;> rfl

private theorem Sound.room (sound : Sound session) (size index : Nat)
    (kind : session.allocator.class? size = some index) :
    size ≤ session.allocator.policy.entitySize index :=
  (sound.registry.policy.class?_spec kind).2.2.1

theorem Sound.free_spec (sound : Sound session) (size addr : Nat) : Settles (free size addr) session := by
  simp only [Settles, free, Run.meets_bind, Run.meets_get, Run.meets_lift (route_eq sound.registry size)]
  cases found : session.find? (session.allocator.class? size) size addr with
  | none =>
    simp only [Run.meets_pure]
    exact sound.idle
  | some grant =>
    have pending := sound.drop found (sound.room size)
    simp only [onAllocator, Run.meets_bind, Run.meets_modify, Run.meets_focus]
    exact (pending.owns.free_spec (class?_drop session grant size)).imp fun _ allocator freed =>
      pending.freed sound freed (live_drop session grant)

theorem Sound.release_spec (sound : Sound session) (size addr : Nat) : Settles (release size addr) session := by
  simp only [Settles, release, Run.meets_bind, Run.meets_get]
  cases found : session.find? none size addr with
  | none =>
    simp only [Run.meets_pure]
    exact sound.idle
  | some grant =>
    have pending := sound.drop found nofun
    simp only [onArena, onAllocator, Run.meets_bind, Run.meets_modify, Run.meets_focus]
    exact pending.owns.release_spec.imp fun _ allocator freed => pending.freed sound freed
      (live_drop session grant)

theorem Sound.releaseSlot_spec (sound : Sound session) (addr : Nat) : Settles (releaseSlot addr) session := by
  simp only [Settles, releaseSlot, Run.meets_bind, Run.meets_get]
  cases found : session.slots.find? fun slot => slot.source.isRegistry && slot.addr == addr with
  | none =>
    simp only [Run.meets_pure]
    exact sound.idle
  | some slot =>
    have member := List.mem_of_find?_eq_some found
    have matched := List.find?_some found
    simp only [Bool.and_eq_true, beq_iff_eq] at matched
    obtain ⟨registered, rfl⟩ := matched
    obtain ⟨index, source⟩ : ∃ index, slot.source = .registry index := by
      cases kept : slot.source with
      | registry index => exact ⟨index, rfl⟩
      | dedicated number => rw [kept] at registered; cases registered
    have pending := sound.dropSlot member source (Nat.zero_le _)
    simp only [onAllocator, Run.meets_bind, Run.meets_modify, Run.meets_focus]
    exact (pending.owns.sound.releaseSlot_spec (pending.owns.slot index rfl).1).imp fun _ allocator freed =>
      pending.freed sound freed (live_drop session _)

/-- What the client has after a move: the block at its new size with the common bytes, or else the block as it was. -/
def Moved (kind target : Option Nat) (size addr newSize : Nat) (before : Session σ ω) (outcome : Option Outcome)
    (after : Session σ ω) : Prop :=
  match outcome with
  | none => after = before ∧ before.find? kind size addr = none
  | some (.ok moved) => (after.find? target newSize moved).isSome ∧
      (after.memory.read moved (min size newSize)).length = min size newSize ∧
      after.memory.read moved (min size newSize) = before.memory.read addr (min size newSize)
  | some (.error _) => ∃ grant, before.find? kind size addr = some grant ∧ after.find? kind size addr = some grant

omit [LawfulHost σ] [Host σ] in
theorem find?_gain (session : Session σ ω) (kind : Option Nat) (size addr : Nat) :
    ((session.gain kind size addr).find? kind size addr).isSome = true := by
  cases kind with
  | some index => simp [gain, find?]
  | none => simp [gain, find?, setBooks, arena, Books.gain, Books.find?]

omit [LawfulHost σ] [Host σ] in
private theorem find?_restore (found : session.find? kind size addr = some grant) (middle : Session σ ω) :
    (middle.restore grant).find? kind size addr = some grant := by
  rcases find?_spec found with ⟨index, rfl, rfl, -⟩ | ⟨block, rfl, rfl, -, rfl, rfl⟩
  · simp [restore, find?]
  · simp [restore, find?, setBooks, arena, Books.restore, Books.find?]

omit [LawfulHost σ] [Host σ] in
theorem memory_drop (session : Session σ ω) (grant : Grant) : (session.drop grant).memory = session.memory := by
  cases grant <;> rfl

omit [LawfulHost σ] [Host σ] in
private theorem memory_gain (session : Session σ ω) (kind : Option Nat) (size addr : Nat) :
    (session.gain kind size addr).memory = session.memory := by
  cases kind <;> rfl

omit [LawfulHost σ] [Host σ] in
private theorem pageSize_drop (session : Session σ ω) (grant : Grant) :
    (session.drop grant).allocator.arena.pageSize = session.arena.pageSize := by
  cases grant <;> rfl

private theorem Pending.halted {fault : Fault} {allocator : Allocator σ (Books ω)}
    (pending : Pending kind size addr session middle)
    (halted : Allocator.Halted session.extents middle.allocator fault allocator) :
    Halted session fault { middle with allocator } :=
  Arena.Stopped.prepend (pending.changes.entries.steady.mono fun _ => nofun) halted.bare

private theorem Sound.moved (sound : Sound session) {target : Option Nat} {fresh : Nat}
    {allocator : Allocator σ (Books ω)} (pending : Pending kind size addr session (session.drop grant))
    (moved : Allocator.Moved session.extents kind target size addr newSize (session.drop grant).allocator
      (.ok fresh) allocator) :
    let after := gain { session.drop grant with allocator } target newSize fresh
    (Sound after ∧ Changes session after) ∧
    Moved kind target size addr newSize session (some (.ok fresh)) after := by
  obtain ⟨owns, changes, slots, read⟩ := moved
  have pending' : Pending target newSize fresh session { session.drop grant with allocator } := by
    refine ⟨pending.dedicated, owns, pending.changes.trans changes fun index slot before _ => ?_,
      fun index => ?_, pending.aside⟩
    · rw [live_drop]
      exact before
    · have split := (slots index).trans ((pending.registry index).append_left _)
      rw [← List.append_assoc] at split
      refine (List.perm_append_left_iff _).mp (split.trans ?_)
      rw [← List.append_assoc]
      exact List.perm_append_comm.append_right _
  refine ⟨pending'.gain sound, find?_gain .., ?_⟩
  rw [memory_gain, ← memory_drop session grant]
  exact ⟨owns.length_read (Nat.min_le_right ..), read⟩

private theorem Sound.stayed (sound : Sound session) {target : Option Nat} {error : AllocError}
    {allocator : Allocator σ (Books ω)} (found : session.find? kind size addr = some grant)
    (pending : Pending kind size addr session (session.drop grant))
    (moved : Allocator.Moved session.extents kind target size addr newSize (session.drop grant).allocator
      (.error error) allocator) :
    let after := restore { session.drop grant with allocator } grant
    (Sound after ∧ Changes session after) ∧
    Moved kind target size addr newSize session (some (.error error)) after := by
  obtain ⟨owns, changes, live⟩ := moved
  have pending' : Pending kind size addr session { session.drop grant with allocator } := by
    refine ⟨pending.dedicated, owns, pending.changes.trans (changes.mono fun _ => List.mem_append_right _)
      fun index slot before _ => ?_, fun index => (live index).trans (pending.registry index), pending.aside⟩
    rw [live_drop]
    exact before
  have steady := changes.entries.steady
  rw [pageSize_drop] at steady
  exact ⟨pending'.restore sound found steady, grant, found, find?_restore found _⟩

theorem Sound.realloc_spec (sound : Sound session) (size addr newSize : Nat) :
    (realloc size addr newSize).Meets session (fun outcome after => (Sound after ∧ Changes session after) ∧
      Moved (session.allocator.class? size) (session.allocator.class? newSize) size addr newSize
        session outcome after)
      (Halted session) := by
  simp only [realloc, Run.meets_bind, Run.meets_get, Run.meets_lift (route_eq sound.registry size),
    Run.meets_lift (route_eq sound.registry newSize)]
  cases found : session.find? (session.allocator.class? size) size addr with
  | none =>
    simp only [Run.meets_pure]
    exact ⟨sound.idle, rfl, found⟩
  | some grant =>
    have pending := sound.drop found (sound.room size)
    simp only [onAllocator, Run.meets_bind, Run.meets_modify, Run.meets_focus]
    have called := pending.owns.realloc_spec (class?_drop session grant size) newSize
    rw [class?_drop] at called
    refine called.mono (fun outcome allocator moved => ?_) fun fault allocator stopped => ?_
    · cases outcome with
      | ok fresh =>
        simp only [Run.meets_bind, Run.meets_modify, Run.meets_pure]
        exact sound.moved pending moved
      | error error =>
        simp only [Run.meets_bind, Run.meets_modify, Run.meets_pure]
        exact sound.stayed found pending moved
    · exact pending.halted stopped

theorem Sound.resize_spec (sound : Sound session) (size addr newSize : Nat) :
    (resize size addr newSize).Meets session (fun outcome after => (Sound after ∧ Changes session after) ∧
      Moved none none size addr newSize session outcome after) (Halted session) := by
  simp only [resize, Run.meets_bind, Run.meets_get]
  cases found : session.find? none size addr with
  | none =>
    simp only [Run.meets_pure]
    exact ⟨sound.idle, rfl, found⟩
  | some grant =>
    have pending := sound.drop found nofun
    simp only [onArena, onAllocator, Run.meets_bind, Run.meets_modify, Run.meets_focus]
    refine (pending.owns.resize_spec newSize).mono (fun outcome allocator moved => ?_)
      fun fault allocator stopped =>
      pending.halted stopped
    cases outcome with
    | ok fresh =>
      simp only [Run.meets_bind, Run.meets_modify, Run.meets_pure]
      exact sound.moved pending moved
    | error error =>
      simp only [Run.meets_bind, Run.meets_modify, Run.meets_pure]
      exact sound.stayed found pending moved

theorem Sound.compactAll_spec (sound : Sound session) : Settles (onAllocator Allocator.compactAll) session := by
  simp only [Settles, onAllocator, Run.meets_focus]
  refine Run.Ends.imp sound.registry.compactAll_spec fun count allocator swept => ?_
  exact sound.work rfl swept.sound swept.changes
    (fun index => (swept.live index).symm.trans (sound.ledger (.registry index))) fun _ => .refl _

private theorem slotsOf_kept {slots : List Slot} {keep : Slot → Bool} {source : Source}
    (kept : ∀ slot, slot.source = source → keep slot = true) :
    slotsOf (slots.filter keep) source = slotsOf slots source := by
  rw [slotsOf, slotsOf, List.filter_filter]
  refine congrArg _ (List.filter_congr fun slot _ => ?_)
  by_cases same : slot.source = source <;> simp [same, kept]

private theorem slotsOf_gone {slots : List Slot} {keep : Slot → Bool} {source : Source}
    (gone : ∀ slot, slot.source = source → keep slot = false) : slotsOf (slots.filter keep) source = [] := by
  rw [slotsOf, List.filter_filter, List.map_eq_nil_iff, List.filter_eq_nil_iff]
  intro slot _
  by_cases same : slot.source = source <;> simp [same, gone]

theorem Sound.teardown_spec (sound : Sound session) : Settles teardown session := by
  simp only [Settles, teardown, onAllocator, Run.meets_bind, Run.meets_focus, Run.meets_modify]
  refine Run.Ends.imp sound.registry.teardown_spec ?_
  rintro _ allocator ⟨sound', changes, empty, -⟩
  refine sound.work rfl sound' changes (fun index => ?_) fun number => ?_
  · rw [empty, slotsOf_gone fun slot same => by rw [same]; rfl]
  · rw [slotsOf_kept fun slot same => by rw [same]; rfl]

/-- A new pool has no frames, so it leaves the others alone. -/
theorem Sound.push (sound : Sound session) {arena : Arena σ (Books ω)} {pool : Pool}
    (accounts : Arena.Sound (Entries.extents session.arena.pageSize session.dedicated ++
      Entries.extents session.arena.pageSize session.allocator.pools) arena)
    (quiet : Arena.Quiet session.arena arena) (paged : arena.pageSize = session.arena.pageSize)
    (memory : arena.machine.memory = session.arena.machine.memory) (valid : pool.Valid arena.machine.memory)
    (empty : pool.owners = []) :
    let after := ⟨{ session.allocator with arena }, session.dedicated.push (some pool), session.slots⟩
    Sound after ∧ Changes session after := by
  have errands : arena.env.errands = session.arena.env.errands := congrArg Books.errands quiet.env
  obtain ⟨sound', changes, live⟩ :=
    sound.pools.push accounts (.of_memory paged quiet.env memory) errands valid empty
  exact sound.workAside rfl sound' changes (fun _ => .refl _) fun number =>
    (List.Perm.of_eq (live number)).trans (sound.ledger (.dedicated number))

theorem Sound.createPool_spec (sound : Sound session) (entitySize : Nat) :
    Settles (createPool entitySize) session := by
  simp only [Settles, createPool, onAllocator, Allocator.createPool, Allocator.onArena, Run.meets_bind,
    Run.meets_focus, Run.meets_get]
  refine (Pool.create_spec sound.pools.accounts (Size.pos_of_isPowerOfTwo sound.pools.accounts.power)
    sound.registry.word entitySize).imp ?_
  rintro outcome arena ⟨accounts, quiet, paged, memory, created⟩
  cases outcome with
  | error error =>
    simp only [Run.meets_pure]
    obtain ⟨sound', changes, live⟩ := sound.pools.still accounts (.of_memory paged quiet.env memory)
      (congrArg Books.errands quiet.env)
    exact sound.workAside rfl sound' changes (fun _ => .refl _) fun number =>
      (List.Perm.of_eq (live number)).trans (sound.ledger (.dedicated number))
  | ok pool =>
    obtain ⟨valid, empty, -⟩ := created
    simp only [Run.meets_modify]
    exact sound.push accounts quiet paged memory (valid _) empty

section Aside

variable {pool : Pool} {number : Nat} {later : Pool × Arena σ (Books ω)} {slots : List Slot}

def beside (session : Session σ ω) (number : Nat) : List Extent :=
  (Entries.without session.dedicated number).extents session.arena.pageSize ++
    Entries.extents session.arena.pageSize session.allocator.pools

theorem Sound.focusAside (sound : Sound session) (here : session.dedicated[number]?.join = some pool) :
    Pool.Sound (session.beside number) pool session.arena :=
  sound.pools.focus (Option.join_eq_some_iff.mp here)

private theorem Sound.actAside (sound : Sound session) (here : session.dedicated[number]?.join = some pool)
    (sound' : Pool.Sound (session.beside number) later.1 later.2)
    (changes : Pool.Changes (session.beside number) (pool, session.arena) later)
    (registry : ∀ index, (slotsOf session.slots (.registry index)).Perm (slotsOf slots (.registry index)))
    (own : (later.1.live later.2.machine.memory).Perm (slotsOf slots (.dedicated number)))
    (others : ∀ other, number ≠ other →
      (slotsOf session.slots (.dedicated other)).Perm (slotsOf slots (.dedicated other))) :
    let after :=
      ⟨{ session.allocator with arena := later.2 }, session.dedicated.setIfInBounds number (some later.1), slots⟩
    Sound after ∧ Changes session after := by
  have inside := Option.join_eq_some_iff.mp here
  obtain ⟨entries, changed, live⟩ := sound.pools.act inside sound' changes
  refine sound.workAside rfl entries changed registry fun other => ?_
  by_cases same : number = other
  · subst same
    exact (List.Perm.of_eq (Entries.live_set_self (Entries.lt_size inside) _ _)).trans own
  · exact (List.Perm.of_eq (live other same)).trans ((sound.ledger (.dedicated other)).trans (others other same))

private theorem Sound.ownSlots (sound : Sound session) (here : session.dedicated[number]?.join = some pool) :
    (pool.live session.memory).Perm (slotsOf session.slots (.dedicated number)) :=
  (List.Perm.of_eq (Entries.live_eq (Option.join_eq_some_iff.mp here) _).symm).trans
    (sound.ledger (.dedicated number))

private theorem haltedAside {fault : Fault}
    (halted : Pool.Halted (session.beside number) (pool, session.arena) fault later) :
    Arena.Stopped [] session.arena fault later.2 :=
  halted.2.bare

theorem Sound.poolAcquire_spec (sound : Sound session) (number : Nat) : Settles (poolAcquire number) session := by
  simp only [Settles, poolAcquire, Run.meets_bind, Run.meets_get]
  cases here : session.dedicated[number]?.join with
  | none =>
    simp only [Run.meets_pure]
    exact sound.idle
  | some pool =>
    simp only [onDedicated, Allocator.poolAcquire, Allocator.onDedicated, Run.meets_bind, Run.meets_focus]
    refine (sound.focusAside here).acquire_spec.mono ?_
      fun fault later halted => haltedAside halted.1
    rintro outcome later ⟨sound', changes, result, -⟩
    cases outcome with
    | error error =>
      simp only [Run.meets_pure]
      exact sound.actAside here sound' changes (fun _ => .refl _) (result.2.2.trans (sound.ownSlots here))
        fun _ _ => .refl _
    | ok addr =>
      simp only [Run.meets_modify]
      refine sound.actAside here sound' changes (fun index => ?_) ?_ fun other different => ?_
      · rw [slotsOf_cons, if_neg nofun]
        exact .refl _
      · rw [slotsOf_cons, if_pos rfl]
        exact result.trans ((sound.ownSlots here).cons addr)
      · rw [slotsOf_cons, if_neg fun same => different (Source.dedicated.inj same)]
        exact .refl _

theorem Sound.poolRelease_spec (sound : Sound session) (number addr : Nat) :
    Settles (poolRelease number addr) session := by
  simp only [Settles, poolRelease, Run.meets_bind, Run.meets_get]
  cases here : session.dedicated[number]?.join with
  | none =>
    simp only [Run.meets_pure]
    exact sound.idle
  | some pool =>
    simp only [Run.meets_bind, Run.meets_get]
    split
    next member =>
      have split := slotsOf_perm (List.perm_cons_erase member)
      have taken := sound.taken member
      have own := sound.ownSlots here
      rw [live, Entries.live_eq (Option.join_eq_some_iff.mp here)] at taken
      simp only [Session.drop, onDedicated, Allocator.poolRelease, Allocator.onDedicated, Run.meets_bind,
        Run.meets_modify, Run.meets_focus]
      refine ((sound.focusAside here).release_spec taken).imp ?_
      rintro _ later ⟨sound', changes, lost, -⟩
      refine sound.actAside here sound' changes (fun index => ?_) ?_ fun other different => ?_
      · refine (split _).trans (.of_eq ?_)
        simp only [slotsOf_cons, reduceCtorEq, if_false, List.nil_append]
      · have kept := lost.symm.trans (own.trans (split _))
        rw [slotsOf_cons, if_pos rfl] at kept
        exact kept.cons_inv
      · refine (split _).trans (.of_eq ?_)
        rw [slotsOf_cons, if_neg fun same => different (Source.dedicated.inj same), List.nil_append]
    next =>
      simp only [Run.meets_pure]
      exact sound.idle

theorem Sound.compactPool_spec (sound : Sound session) (number : Nat) : Settles (compactPool number) session := by
  simp only [Settles, compactPool, Run.meets_bind, Run.meets_get]
  cases here : session.dedicated[number]?.join with
  | none =>
    simp only [Run.meets_pure]
    exact sound.idle
  | some pool =>
    simp only [onDedicated, Allocator.compactPool, Allocator.onDedicated, Run.meets_bind, Run.meets_focus]
    refine (sound.focusAside here).compact_spec.imp fun count later result => ?_
    have compacted := result.1
    simp only [Run.meets_pure]
    exact sound.actAside here compacted.sound compacted.changes (fun _ => .refl _)
      (compacted.slots.symm.trans (sound.ownSlots here)) fun _ _ => .refl _

theorem Sound.destroyPool_spec (sound : Sound session) (number : Nat) : Settles (destroyPool number) session := by
  simp only [Settles, destroyPool, Run.meets_bind, Run.meets_get]
  cases here : session.dedicated[number]?.join with
  | none =>
    simp only [Run.meets_pure]
    exact sound.idle
  | some pool =>
    simp only [onDedicated, Allocator.destroyPool, Allocator.onDedicated, Run.meets_bind, Run.meets_focus,
      Run.meets_modify, Array.setIfInBounds_setIfInBounds]
    refine (sound.focusAside here).destroy_spec.imp ?_
    rintro _ later ⟨accounts, steady, returned⟩
    obtain ⟨entries, changes, live⟩ := sound.pools.leave (Option.join_eq_some_iff.mp here) accounts steady
      (congrArg Books.errands returned.quiet.env)
    refine sound.workAside rfl entries changes (fun index => ?_) fun other => ?_
    · rw [slotsOf_kept fun slot same => by rw [same]; rfl]
    · refine (List.Perm.of_eq (live other)).trans ?_
      split
      next same =>
        subst same
        rw [slotsOf_gone fun slot same => by rw [same]; simp]
      next different =>
        rw [slotsOf_kept fun slot same => by rw [same]; simpa using fun equal => different equal.symm]
        exact sound.ledger (.dedicated other)

end Aside

/-- The hook and what the client shares with it may be changed at any time. -/
private theorem Sound.setArena (sound : Sound session) {arena : Arena σ (Books ω)}
    (accounts : Arena.Sound (Entries.extents session.arena.pageSize session.allocator.pools ++
      session.extents) arena)
    (paged : arena.pageSize = session.arena.pageSize) (memory : arena.machine.memory = session.memory)
    (held : arena.env.held = session.held) (tickets : arena.env.tickets = session.arena.env.tickets)
    (errands : arena.env.errands = session.arena.env.errands) :
    let after := { session with allocator := { session.allocator with arena } }
    Sound after ∧ Changes session after := by
  have steady : Arena.Steady (Entries.extents session.arena.pageSize session.allocator.pools ++ session.extents)
      session.arena arena :=
    ⟨paged, fun extent _ => by rw [memory]; rfl,
      fun block member _ => ⟨by rwa [held] at member, by rw [memory]; rfl⟩, Nat.le_of_eq tickets.symm⟩
  obtain ⟨sound', changes, live⟩ := sound.registry.still accounts steady errands
  exact sound.work rfl sound' changes
    (fun index => (List.Perm.of_eq (live index)).trans (sound.ledger (.registry index)))
    fun _ => .refl _

theorem Sound.setHook_spec (sound : Sound session) (programs : Option (List (Program ω))) :
    Settles (setHook programs) session := by
  simp only [Settles, setHook, onArena, onAllocator, Allocator.onArena, Arena.setHook, Run.meets_bind,
    Run.meets_get, Run.meets_focus, Run.meets_modify]
  refine sound.setArena (sound.registry.entries.accounts.hook _ fun installed same => ?_) rfl rfl rfl rfl rfl
  obtain ⟨scripts, -, rfl⟩ := Option.map_eq_some_iff.mp same
  exact ⟨scripts, rfl⟩

theorem Sound.change_spec (sound : Sound session) (f : ω → ω) :
    Settles (modify fun session => session.setBooks (session.arena.env.change f)) session := by
  simp only [Settles, Run.meets_modify]
  exact sound.setArena (sound.registry.entries.accounts.books (.refl _) sound.registry.entries.accounts.issued)
    rfl rfl rfl rfl rfl

end SlabAllocator.Session
