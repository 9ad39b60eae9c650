import SlabAllocator.Client.Session
import SlabAllocator.Proofs.Moves

/-! The slots in the hands of a client are those that the pools have handed out, and the blocks
are those in the books. The registry and the pools that the client created share one arena, and
for each of them the frames of the other are locked. -/

namespace SlabAllocator

variable [Host σ] [LawfulHost σ]

theorem Arena.Stopped.bare {before after : Arena σ (Books ω)} {locked : List Extent} {fault : Fault}
    (stopped : Arena.Stopped locked before fault after) : Arena.Stopped [] before fault after :=
  Arena.Stopped.unlock locked (by rw [List.append_nil]; exact stopped)

namespace Allocator

variable {allocator : Allocator σ (Books ω)} {locked : List Extent} {size addr : Nat}

theorem Sound.gain (sound : Sound ((addr, pageBytes allocator.arena.pageSize size) :: locked) allocator) :
    Sound locked { allocator with arena := { allocator.arena with env := allocator.arena.env.gain size addr } } ∧
      Changes locked allocator
        { allocator with arena := { allocator.arena with env := allocator.arena.env.gain size addr } } := by
  have accounts := (sound.entries.accounts.perm List.perm_middle).gain allocator.arena.env.errands
  have steady :=
    (Arena.Steady.refl (Entries.extents allocator.arena.pageSize allocator.pools ++ locked) allocator.arena).gain
    size addr allocator.arena.env.errands
  obtain ⟨sound', changes, -⟩ := sound.still accounts steady rfl
  exact ⟨sound', changes⟩

theorem Sound.drop (sound : Sound locked allocator) {block : Holding}
    (member : block ∈ allocator.arena.env.held) :
    Sound (block.extent allocator.arena.pageSize :: locked)
        { allocator with arena := { allocator.arena with env := allocator.arena.env.drop block } } ∧
      Changes locked allocator
        { allocator with arena := { allocator.arena with env := allocator.arena.env.drop block } } := by
  have accounts := (sound.entries.accounts.drop member).perm List.perm_middle.symm
  have steady : Arena.Steady (Entries.extents allocator.arena.pageSize allocator.pools ++ locked) allocator.arena
      { allocator.arena with env := allocator.arena.env.drop block } :=
    .fewer _ rfl fun other => List.mem_of_mem_erase
  obtain ⟨sound', changes, -⟩ := sound.still accounts steady rfl
  exact ⟨sound', changes⟩

end Allocator

namespace Session

variable {session before middle after : Session σ ω} {locked : List Extent} {size addr : Nat}

def live (session : Session σ ω) : Source → List Nat
  | .registry index => session.allocator.live index
  | .dedicated number => Entries.live session.dedicated session.memory number

def slotsOf (slots : List Slot) (source : Source) : List Nat :=
  (slots.filter (·.source = source)).map Slot.addr

def extents (session : Session σ ω) : List Extent :=
  Entries.extents session.arena.pageSize session.dedicated

structure Sound (session : Session σ ω) : Prop where
  registry : Allocator.Sound session.extents session.allocator
  valid : ∀ (number : Nat) pool, session.dedicated[number]? = some (some pool) → pool.Valid session.memory
  ledger : ∀ source, (session.live source).Perm (slotsOf session.slots source)

/-- What every operation leaves alone: the slots and the blocks that stay in use. -/
structure Changes (before after : Session σ ω) : Prop where
  policy : after.allocator.policy = before.allocator.policy
  steady : Arena.Steady [] before.arena after.arena
  slots : ∀ source old new addr, before.pool? source = some old → after.pool? source = some new →
    addr ∈ before.live source → addr ∈ after.live source → new.entitySize = old.entitySize ∧
      ∀ count, count ≤ old.entitySize → after.memory.read addr count = before.memory.read addr count

/-- An operation stops only while hooks run. -/
def Halted (before : Session σ ω) (fault : Fault) (after : Session σ ω) : Prop :=
  Arena.Stopped [] before.arena fault after.arena

theorem Sound.taken (sound : Sound session) {slot : Slot} (member : slot ∈ session.slots) :
    slot.addr ∈ session.live slot.source := by
  refine (sound.ledger slot.source).mem_iff.mpr (List.mem_map_of_mem (List.mem_filter.mpr ⟨member, ?_⟩))
  exact decide_eq_true rfl

/-- The pools that the client created, seen from their side. -/
theorem Sound.pools (sound : Sound session) :
    Entries.Sound (Entries.extents session.arena.pageSize session.allocator.pools)
      session.dedicated session.arena :=
  ⟨sound.registry.entries.accounts.perm List.perm_append_comm, sound.valid⟩

omit [LawfulHost σ] [Host σ] in
private theorem slots_kept {entries entries' : Entries} {arena arena' : Arena σ (Books ω)}
    {index : Nat} {old new : Pool} (changes : Entries.Changes locked (entries, arena) (entries', arena'))
    (here : entries[index]?.join = some old) (here' : entries'[index]?.join = some new)
    (taken : addr ∈ Entries.live entries arena.machine.memory index)
    (taken' : addr ∈ Entries.live entries' arena'.machine.memory index) : new.entitySize = old.entitySize ∧
      ∀ count, count ≤ old.entitySize →
        arena'.machine.memory.read addr count = arena.machine.memory.read addr count := by
  have there := Option.join_eq_some_iff.mp here
  have there' := Option.join_eq_some_iff.mp here'
  rw [Entries.live_eq there] at taken
  rw [Entries.live_eq there'] at taken'
  exact changes.slots index old new addr there there' taken taken'

theorem Sound.work (sound : Sound session) (same : after.dedicated = session.dedicated)
    (sound' : Allocator.Sound session.extents after.allocator)
    (changes : Allocator.Changes session.extents session.allocator after.allocator)
    (registry : ∀ index, (after.allocator.live index).Perm (slotsOf after.slots (.registry index)))
    (aside : ∀ number, (slotsOf session.slots (.dedicated number)).Perm
      (slotsOf after.slots (.dedicated number))) :
    Sound after ∧ Changes session after := by
  obtain ⟨allocator, dedicated, slots⟩ := after
  subst same
  have accounts : Arena.Sound (session.extents ++ Entries.extents allocator.arena.pageSize allocator.pools)
      allocator.arena :=
    sound'.entries.accounts.perm List.perm_append_comm
  have steady : Arena.Steady (session.extents ++ []) session.arena allocator.arena := by
    rw [List.append_nil]
    exact changes.entries.steady
  obtain ⟨entries, changed, live⟩ := sound.pools.still accounts steady changes.entries.errands
  refine ⟨⟨?_, entries.valid, fun source => ?_⟩,
    ⟨changes.policy, changed.steady, fun source old new addr here here' taken taken' => ?_⟩⟩
  · change Allocator.Sound (Entries.extents allocator.arena.pageSize session.dedicated) allocator
    rw [changes.paged]
    exact sound'
  · cases source with
    | registry index => exact registry index
    | dedicated number =>
      change (Entries.live session.dedicated allocator.arena.machine.memory number).Perm _
      rw [live]
      exact (sound.ledger (.dedicated number)).trans (aside number)
  · cases source with
    | registry index => exact slots_kept changes.entries here here' taken taken'
    | dedicated number => exact slots_kept changed here here' taken taken'

/-- The pools that the client created have been at work. -/
theorem Sound.workAside (sound : Sound session)
    (same : after.allocator = { session.allocator with arena := after.arena })
    (sound' : Entries.Sound (Entries.extents session.arena.pageSize session.allocator.pools)
      after.dedicated after.arena)
    (changes : Entries.Changes (Entries.extents session.arena.pageSize session.allocator.pools)
      (session.dedicated, session.arena) (after.dedicated, after.arena))
    (registry : ∀ index, (slotsOf session.slots (.registry index)).Perm (slotsOf after.slots (.registry index)))
    (aside : ∀ number, (Entries.live after.dedicated after.memory number).Perm
      (slotsOf after.slots (.dedicated number))) :
    Sound after ∧ Changes session after := by
  obtain ⟨allocator, dedicated, slots⟩ := after
  change Entries.Sound _ _ allocator.arena at sound'
  change Entries.Changes _ _ (_, allocator.arena) at changes
  change allocator = { session.allocator with arena := allocator.arena } at same
  generalize allocator.arena = arena at *
  subst same
  have accounts : Arena.Sound (Entries.extents session.arena.pageSize session.allocator.pools ++
      Entries.extents arena.pageSize dedicated) arena := sound'.accounts.perm List.perm_append_comm
  have steady : Arena.Steady (Entries.extents session.arena.pageSize session.allocator.pools ++ [])
      session.arena arena := by
    rw [List.append_nil]
    exact changes.steady
  obtain ⟨registry', changed, live⟩ := sound.registry.still accounts steady changes.errands
  refine ⟨⟨registry', sound'.valid, fun source => ?_⟩,
    ⟨changed.policy, changed.entries.steady, fun source old new addr here here' taken taken' => ?_⟩⟩
  · cases source with
    | registry index =>
      exact (List.Perm.of_eq (live index)).trans ((sound.ledger (.registry index)).trans (registry index))
    | dedicated number => exact aside number
  · cases source with
    | registry index => exact slots_kept changed.entries here here' taken taken'
    | dedicated number => exact slots_kept changes here here' taken taken'

theorem route_eq (sound : Allocator.Sound locked session.allocator) (size : Nat) :
    session.route size = .ok (session.allocator.class? size) := by
  cases kind : session.allocator.class? size with
  | none =>
    rw [route, Allocator.sizeClass_arena (Size.pos_of_isPowerOfTwo sound.entries.accounts.power) kind]
    rfl
  | some index =>
    rw [route, Allocator.sizeClass_pool sound.policy kind, checked_bind]
    simp only [Allocator.classIndex_eq sound.policy index, checked_bind, checked_pure]

theorem slotsOf_perm {slots others : List Slot} (same : slots.Perm others) (source : Source) :
    (slotsOf slots source).Perm (slotsOf others source) :=
  (same.filter _).map _

theorem slotsOf_cons (slot : Slot) (slots : List Slot) (source : Source) :
    slotsOf (slot :: slots) source = (if slot.source = source then [slot.addr] else []) ++
      slotsOf slots source := by
  by_cases same : slot.source = source <;> simp [slotsOf, same]

/-- A block of this size has left the books, or is not entered yet. -/
structure Pending (kind : Option Nat) (size addr : Nat) (before after : Session σ ω) : Prop where
  dedicated : after.dedicated = before.dedicated
  owns : Allocator.Owns before.extents kind size addr after.allocator
  changes : Allocator.Changes before.extents before.allocator after.allocator
  registry : ∀ index, (after.allocator.live index).Perm
    (Allocator.pooled kind addr index ++ slotsOf after.slots (.registry index))
  aside : ∀ number, (slotsOf before.slots (.dedicated number)).Perm (slotsOf after.slots (.dedicated number))

theorem Pending.gain {kind : Option Nat} (pending : Pending kind size addr session middle)
    (sound : Sound session) :
    Sound (middle.gain kind size addr) ∧ Changes session (middle.gain kind size addr) := by
  cases kind with
  | some index =>
    refine sound.work pending.dedicated pending.owns.sound pending.changes (fun other => ?_) fun number => ?_
    · refine (pending.registry other).trans (.of_eq ?_)
      simp only [Session.gain, slotsOf_cons, Allocator.pooled, Option.some.injEq, Source.registry.injEq]
    · refine (pending.aside number).trans (.of_eq ?_)
      simp only [Session.gain, slotsOf_cons, reduceCtorEq, if_false, List.nil_append]
  | none =>
    obtain ⟨sound', gained⟩ := pending.owns.sound.gain
    exact sound.work pending.dedicated sound'
      (pending.changes.trans gained fun _ _ _ last => last) pending.registry
      pending.aside

omit [LawfulHost σ] [Host σ] in
theorem find?_spec {kind : Option Nat} {grant : Grant} (found : session.find? kind size addr = some grant) :
    (∃ index, kind = some index ∧ grant = .slot ⟨.registry index, addr, size⟩ ∧
      ⟨.registry index, addr, size⟩ ∈ session.slots) ∨
      ∃ block, kind = none ∧ grant = .block block ∧ block ∈ session.held ∧ block.size = size ∧
        block.addr = addr := by
  cases kind with
  | some index =>
    obtain ⟨slot, inside, rfl⟩ := Option.map_eq_some_iff.mp found
    have matched := List.find?_some inside
    simp only [beq_iff_eq] at matched
    subst matched
    exact .inl ⟨index, rfl, rfl, List.mem_of_find?_eq_some inside⟩
  | none =>
    obtain ⟨block, inside, rfl⟩ := Option.map_eq_some_iff.mp found
    have matched := List.find?_some inside
    simp only [Bool.and_eq_true, beq_iff_eq] at matched
    exact .inr ⟨block, rfl, rfl, List.mem_of_find?_eq_some inside, matched⟩

omit [LawfulHost σ] [Host σ] in
private theorem slotsOf_erase {slot : Slot} (member : slot ∈ session.slots) (source : Source) :
    (slotsOf session.slots source).Perm
      ((if slot.source = source then [slot.addr] else []) ++ slotsOf (session.slots.erase slot) source) := by
  rw [← slotsOf_cons]
  exact slotsOf_perm (List.perm_cons_erase member) source

theorem Sound.dropSlot (sound : Sound session) {slot : Slot} (member : slot ∈ session.slots) {index : Nat}
    (registered : slot.source = .registry index) (room : size ≤ session.allocator.policy.entitySize index) :
    Pending (some index) size slot.addr session (session.drop (.slot slot)) := by
  have taken := sound.taken member
  rw [registered] at taken
  refine ⟨rfl, ⟨sound.registry, fun other chosen => ?_⟩, .refl sound.registry, fun other => ?_, fun number => ?_⟩
  · cases chosen
    exact ⟨taken, room⟩
  · refine (sound.ledger (.registry other)).trans ((slotsOf_erase member _).trans (.of_eq ?_))
    simp only [Session.drop, Allocator.pooled, registered, Option.some.injEq, Source.registry.injEq]
  · refine (slotsOf_erase member _).trans (.of_eq ?_)
    simp only [Session.drop, registered, reduceCtorEq, if_false, List.nil_append]

theorem Sound.dropBlock (sound : Sound session) {block : Holding} (member : block ∈ session.held) :
    Pending none block.size block.addr session (session.drop (.block block)) := by
  obtain ⟨sound', changes⟩ := sound.registry.drop member
  exact ⟨rfl, .of_block sound', changes, fun index => sound.ledger (.registry index), fun _ => .refl _⟩

theorem Sound.drop (sound : Sound session) {kind : Option Nat} {grant : Grant}
    (found : session.find? kind size addr = some grant)
    (room : ∀ index, kind = some index → size ≤ session.allocator.policy.entitySize index) :
    Pending kind size addr session (session.drop grant) := by
  rcases find?_spec found with ⟨index, rfl, rfl, member⟩ | ⟨block, rfl, rfl, member, rfl, rfl⟩
  · exact sound.dropSlot member rfl (room index rfl)
  · exact sound.dropBlock member

/-- A block that was locked meanwhile comes back as it was. -/
theorem Pending.restore {kind : Option Nat} {grant : Grant} (pending : Pending kind size addr session middle)
    (sound : Sound session) (found : session.find? kind size addr = some grant)
    (steady : Arena.Steady (Allocator.lent session.arena.pageSize kind addr size ++ session.extents)
      (session.drop grant).arena
      middle.arena) : Sound (middle.restore grant) ∧ Changes session (middle.restore grant) := by
  rcases find?_spec found with ⟨index, rfl, rfl, -⟩ | ⟨block, rfl, rfl, member, rfl, rfl⟩
  · exact pending.gain sound
  · have allocated := pending.owns.sound
    have issued := Nat.lt_of_lt_of_le (sound.registry.entries.accounts.issued block member)
      pending.changes.entries.steady.tickets
    have accounts : Arena.Sound (block.extent middle.arena.pageSize :: _) middle.arena :=
      allocated.entries.accounts.perm List.perm_middle
    have back : Arena.Steady session.extents session.arena
        { middle.arena with env := middle.arena.env.restore block } :=
      Arena.Steady.restore steady rfl rfl (fun other => List.mem_of_mem_erase) member middle.arena.env.errands
    exact sound.work pending.dedicated
      { allocated with entries := ⟨accounts.restore issued middle.arena.env.errands, allocated.entries.valid⟩ }
      ⟨pending.changes.policy, { pending.changes.entries with steady := back }⟩ pending.registry pending.aside

end Session
end SlabAllocator
