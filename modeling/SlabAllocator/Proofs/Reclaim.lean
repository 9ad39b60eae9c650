import SlabAllocator.Proofs.Aliasing
import SlabAllocator.Proofs.Holdings
import SlabAllocator.Proofs.Lookup
import SlabAllocator.Proofs.Routing

/-! A pooled block given back by its address alone. Its size names a registry entry, and its address lies in
a frame of one pool only. Both lead to the same pool, because whatever is handed out of the registry went
to the entry of its size, so it does not matter which of them a client goes by. -/

namespace SlabAllocator

variable [Host σ]

namespace Allocator

variable [LawfulHost σ] {allocator : Allocator σ (Books ω)} {locked : List Extent} {addr index : Nat}

/-- What no registered pool has handed out is refused, whether or not one owns the address. -/
theorem Sound.releaseSlot_refused (sound : Sound locked allocator) (free : ∀ index, addr ∉ allocator.live index) :
    releaseSlot addr allocator = .error .violated allocator := by
  change releaseSlot addr allocator = (throw .violated : Run (Allocator σ (Books ω)) Unit) allocator
  apply Run.eq_of_meets
  intro post stop
  simp only [releaseSlot, Run.meets_bind, Run.meets_get, Run.meets_throw]
  cases owned : allocator.pools.findIdx? fun entry => entry.any (·.owns addr) with
  | none => simp only [Run.meets_throw]
  | some index =>
    obtain ⟨inside, claims, -⟩ := Array.findIdx?_eq_some_iff_getElem.mp owned
    cases present : allocator.pools[index] with
    | none =>
      rw [present] at claims
      cases claims
    | some pool =>
      have here : allocator.pools[index]? = some (some pool) := by rw [Array.getElem?_eq_getElem inside, present]
      have unused : addr ∉ pool.live allocator.arena.machine.memory := by
        rw [← Entries.live_eq here]
        exact free index
      have refused : Pool.release addr (pool, allocator.arena) =
          (throw .violated : Pool.Action σ (Books ω) Unit) (pool, allocator.arena) :=
        (sound.entries.focus here).release_refused unused
      simp only [Run.meets_bind, Run.meets_lift (inRange_eq_ok.mpr here), onEntry, Run.meets_focus,
        Run.meets_congr refused, Run.meets_throw, Entries.set_self here]

/-- A slot is taken back by the pool that handed it out. -/
theorem Sound.releaseSlot_takesBack (sound : Sound locked allocator) (taken : addr ∈ allocator.live index) :
    releaseSlot addr allocator = takeBack index addr allocator := by
  obtain ⟨pool, here, used⟩ := Entries.exists_of_mem_live taken
  rw [sound.releaseSlot_eq here used]
  apply Run.eq_of_meets
  intro post stop
  simp only [takeBack, Run.meets_bind, Run.meets_get, here, Option.join_some]

end Allocator

namespace Session

variable {session : Session σ ω} {policy : Policy} {grant : Grant} {slot other : Slot} {pool : Pool}
  {index size addr : Nat}

section Routed

/-- Each slot of a registered pool was obtained with a size that the pool serves. -/
def Routed (policy : Policy) (session : Session σ ω) : Prop :=
  ∀ slot ∈ session.slots, ∀ index, slot.source = .registry index → policy.class? slot.size = some index

omit [Host σ]

private theorem Routed.fewer {after : Session σ ω} (routed : session.Routed policy)
    (fewer : after.slots ⊆ session.slots) : after.Routed policy :=
  fun slot member => routed slot (fewer member)

private theorem Routed.gain (routed : session.Routed policy) (size addr : Nat) :
    (session.gain (policy.class? size) size addr).Routed policy := by
  cases kind : policy.class? size with
  | none => exact routed
  | some index =>
    intro slot member other registered
    rcases List.mem_cons.mp member with rfl | old
    · cases registered
      exact kind
    · exact routed slot old other registered

private theorem Routed.drop (routed : session.Routed policy) (grant : Grant) :
    (session.drop grant).Routed policy := by
  cases grant with
  | slot slot => exact routed.fewer List.erase_subset
  | block block => exact routed

private theorem Routed.restore {kind : Option Nat} {middle : Session σ ω} (routed : middle.Routed policy)
    (before : session.Routed policy) (found : session.find? kind size addr = some grant) :
    (middle.restore grant).Routed policy := by
  rcases find?_spec found with ⟨index, rfl, rfl, member⟩ | ⟨block, rfl, rfl, -⟩
  · intro slot member' other registered
    rcases List.mem_cons.mp member' with rfl | old
    · exact before _ member other registered
    · exact routed slot old other registered
  · exact routed

end Routed

variable [LawfulHost σ]

private theorem Sound.routes_alloc (sound : Sound session)
    (routed : session.Routed session.allocator.policy) (size : Nat) :
    Retains (Routed session.allocator.policy) (alloc size) session := by
  simp only [Retains, alloc, onAllocator, Run.meets_bind, Run.meets_focus]
  refine (sound.registry.alloc_spec size).mono (fun outcome allocator served => ?_) fun _ _ _ => trivial
  cases outcome with
  | error error =>
    simp only [Run.meets_pure]
    exact routed
  | ok addr =>
    obtain ⟨changes, owns, -⟩ := served
    have kind : route { session with allocator } size = .ok (session.allocator.policy.class? size) := by
      rw [route_eq owns.sound size, Allocator.class?, changes.policy]
    have still : Routed session.allocator.policy { session with allocator } := routed
    simp only [Run.meets_bind, Run.meets_get, Run.meets_lift kind, Run.meets_modify, Run.meets_pure]
    exact still.gain size addr

/-- No step hands out a slot for a size that its pool does not serve. -/
theorem Sound.step_routes (sound : Sound session) (routed : session.Routed session.allocator.policy) (op : Op ω) :
    Retains (Routed session.allocator.policy) (step op) session := by
  by_cases asks : ∃ size, op = .alloc size
  · obtain ⟨size, rfl⟩ := asks
    simpa only [Retains, step, Run.meets_bind, Run.meets_pure] using sound.routes_alloc routed size
  refine step_rule (fun before after edit still => ?_) routed
  cases edit with
  | work | aside | push => exact still
  | drop => exact still.drop _
  | restore found => exact still.restore routed found
  | @gain _ _ entry size addr route =>
    rcases route with route | rfl
    · rw [route_eq sound.registry] at route
      cases route
      exact still.gain size addr
    · exact still
  | enter => exact absurd ⟨_, rfl⟩ asks
  | take =>
    intro slot member index registered
    rcases List.mem_cons.mp member with rfl | old
    · cases registered
    · exact still slot old index registered
  | retire | close => exact still.fewer (List.filter_subset_self _)

theorem Attained.routed (attained : Attained session) : session.Routed session.allocator.policy := by
  induction attained with
  | start starts =>
    intro slot member
    obtain ⟨pool, here, -⟩ := starts.sound.pool_of member
    rw [starts.vacant] at here
    cases here
  | step attained stepped routed =>
    have policy := ((attained.sound.step_spec _).of_ok stepped).2.2
    rw [policy]
    exact (attained.sound.step_routes routed _).of_ok stepped
  | adopt attained word adopted routed =>
    obtain ⟨_, _, -, rfl⟩ := adopt_spec adopted
    exact routed

/-- A slot is known by its address. -/
theorem Sound.slot_unique (sound : Sound session) (member : slot ∈ session.slots)
    (member' : other ∈ session.slots) (same : slot.addr = other.addr) : slot = other := by
  by_contra different
  have apart := sound.slots_apart member member' different
  obtain ⟨pool, here, -, place⟩ := sound.pool_of member
  obtain ⟨pool', here', -, place'⟩ := sound.pool_of member'
  have sized : 0 < pool.entitySize := (sound.valid_of here).geometry.sized
  have sized' : 0 < pool'.entitySize := (sound.valid_of here').geometry.sized
  rw [place, place'] at apart
  simp only [Extent.Apart, Pool.slot, same] at apart
  omega

def Astray (session : Session σ ω) (addr : Addr) : Prop :=
  ∀ index pool base, session.pool? (.registry index) = some pool → base ∈ pool.listed session.memory →
    ¬ (pool.frame base).Spans addr

/-- How a slot is given back, by its address alone and with its size. -/
structure Reclaimed (session : Session σ ω) (slot : Slot) : Prop where
  alike : Allocator.releaseSlot slot.addr session.allocator = Allocator.free slot.size slot.addr session.allocator
  ends : ∃ index pool after, slot.source = .registry index ∧ session.pool? slot.source = some pool ∧
    Pool.release slot.addr (pool, session.arena) = .ok () after ∧
    Allocator.free slot.size slot.addr session.allocator = .ok () { session.allocator with
      arena := after.2, pools := session.allocator.pools.setIfInBounds index (some after.1) }
  step : Session.step (.releaseSlot slot.addr) session = Session.step (.free slot.size slot.addr) session

theorem Sound.takesBack (sound : Sound session) (routed : session.Routed session.allocator.policy)
    (member : slot ∈ session.slots) (registered : slot.source = .registry index) :
    Allocator.releaseSlot slot.addr session.allocator = Allocator.takeBack index slot.addr session.allocator ∧
      Allocator.free slot.size slot.addr session.allocator =
        Allocator.takeBack index slot.addr session.allocator := by
  have taken := sound.taken member
  rw [registered] at taken
  refine ⟨sound.registry.releaseSlot_takesBack taken, ?_⟩
  have kind : session.allocator.class? slot.size = some index := routed slot member index registered
  rw [Allocator.free_eq sound.registry.policy (Size.pos_of_isPowerOfTwo sound.accounts.power) sound.registry.size,
    kind]
  rfl

private theorem Sound.step_alike (sound : Sound session) (routed : session.Routed session.allocator.policy)
    (member : slot ∈ session.slots) (registered : slot.source = .registry index)
    (alike : Allocator.releaseSlot slot.addr session.allocator =
      Allocator.free slot.size slot.addr session.allocator) :
    Session.step (.releaseSlot slot.addr) session = Session.step (.free slot.size slot.addr) session := by
  -- Each way the client looks the slot up by a test that only this slot passes.
  have single {test : Slot → Bool} (passes : test slot = true) (addressed : ∀ other, test other = true →
      other.addr = slot.addr) :
      session.slots.find? test = some slot := by
    obtain ⟨other, found⟩ := Option.isSome_iff_exists.mp (List.find?_isSome.mpr ⟨slot, member, passes⟩)
    rw [found, sound.slot_unique (List.mem_of_find?_eq_some found) member
      (addressed other (List.find?_some found))]
  have byAddr : session.slots.find? (fun other => other.source.isRegistry && other.addr == slot.addr) =
      some slot :=
    single (by simp [registered, Source.isRegistry]) (by simp)
  have bySize : session.find? (some index) slot.size slot.addr = some (.slot slot) := by
    have shape : slot = ⟨.registry index, slot.addr, slot.size⟩ := by rw [← registered]
    have found : session.slots.find? (· == slot) = some slot :=
      single (beq_self_eq_true slot) fun other same => congrArg Slot.addr (eq_of_beq same)
    rw [find?, ← shape]
    exact congrArg (Option.map Grant.slot) found
  have kind : session.allocator.class? slot.size = some index := routed slot member index registered
  apply Run.eq_of_meets
  intro post stop
  simp only [step, releaseSlot, free, Run.meets_bind, Run.meets_get,
    Run.meets_lift (route_eq sound.registry slot.size), kind, byAddr, bySize, Run.meets_modify,
    onAllocator, Run.meets_focus]
  exact Run.meets_congr alike

theorem Sound.reclaimed (sound : Sound session) (routed : session.Routed session.allocator.policy)
    (member : slot ∈ session.slots) (registered : slot.source = .registry index) : Reclaimed session slot := by
  obtain ⟨byAddr, bySize⟩ := sound.takesBack routed member registered
  have alike := byAddr.trans bySize.symm
  refine ⟨alike, ?_, sound.step_alike routed member registered alike⟩
  obtain ⟨pool, here, taken, -⟩ := sound.pool_of member
  obtain ⟨locked, focused⟩ := sound.focus here
  obtain ⟨_, after, ran, -⟩ := (focused.release_spec taken).exists_ok
  refine ⟨index, pool, after, registered, here, ran, ?_⟩
  rw [registered] at here
  change Pool.release slot.addr (pool, session.allocator.arena) = _ at ran
  rw [← alike, sound.registry.releaseSlot_eq (Option.join_eq_some_iff.mp here) taken,
    Allocator.onEntry, Run.focus, ran]

theorem Sound.releaseSlot_rejects (sound : Sound session)
    (free : ∀ index, ¬ session.HandedOut (.registry index) addr) :
    Allocator.releaseSlot addr session.allocator = .error .violated session.allocator := by
  apply sound.registry.releaseSlot_refused
  intro index taken
  obtain ⟨pool, listed, used⟩ := Entries.exists_of_mem_live taken
  have here : session.pool? (.registry index) = some pool := Option.join_eq_some_iff.mpr listed
  exact free index ((sound.handedOut_iff here).mpr used)

/-- A slot that is handed out lies in a frame. -/
theorem Sound.not_handedOut_of_astray (sound : Sound session) (astray : session.Astray addr) (index : Nat) :
    ¬ session.HandedOut (.registry index) addr := by
  rintro ⟨slot, member, registered, rfl⟩
  obtain ⟨pool, here, taken, -⟩ := sound.pool_of member
  have valid := sound.valid_of here
  obtain ⟨base, owned, place, used, same⟩ := Pool.mem_live.mp taken
  have inside := valid.slot_lt (Frame.mem_taken.mp used).1
  rw [registered] at here
  refine astray index pool base here (valid.mem_listed.mpr owned) ?_
  simp only [Extent.Spans, Pool.frame, same]
  omega

structure Reclaims (session : Session σ ω) : Prop where
  slots : ∀ slot ∈ session.slots, slot.source.isRegistry = true → Reclaimed session slot
  astray : ∀ addr, session.Astray addr →
    Allocator.releaseSlot addr session.allocator = .error .violated session.allocator
  spent : ∀ addr, (∀ index, ¬ session.HandedOut (.registry index) addr) →
    Allocator.releaseSlot addr session.allocator = .error .violated session.allocator
  blocks : ∀ extent ∈ session.held.map session.blockExtent, ∀ addr, Extent.Spans extent addr → session.Astray addr
  aside : ∀ number pool base addr, session.pool? (.dedicated number) = some pool →
    base ∈ pool.listed session.memory →
    (pool.frame base).Spans addr → session.Astray addr
  /-- What the host has back, or never gave. -/
  returned : ∀ addr, (∀ block ∈ Journal.live session.arena.machine.journal.events.toList,
    ¬ Extent.Spans block addr) →
    session.Astray addr

/-- A slot that was handed out of the registry goes back the same way by its address alone and with its size.
Any other address is refused, and nothing has changed then: one in a block of the arena or in a pool of the
client, or one that the host has back. -/
theorem Attained.reclaims (attained : Attained session) : Reclaims session := by
  have sound := attained.sound
  have spread := sound.accounts.machine.spread
  constructor
  case slots =>
    intro slot member registered
    cases source : slot.source with
    | registry index => exact sound.reclaimed attained.routed member source
    | dedicated number =>
      rw [source] at registered
      cases registered
  case astray => exact fun addr astray => sound.releaseSlot_rejects (sound.not_handedOut_of_astray astray)
  case spent => exact fun addr => sound.releaseSlot_rejects
  case blocks =>
    intro extent member addr spans index pool base here listed inside
    have owned := (sound.valid_of here).mem_listed.mp listed
    exact (sound.block_apart here owned member).not_spans (inside.mono (sound.frame_within pool base)) spans
  case aside =>
    intro number pool base addr here listed spans index candidate other there listed' inside
    have owns := ((sound.valid_of here).owns_iff spread).mpr ⟨base, listed, spans⟩
    have owns' := ((sound.valid_of there).owns_iff spread).mpr ⟨other, listed', inside⟩
    cases sound.owns_single here there owns owns'
  case returned =>
    intro addr gone index pool base here listed inside
    have owned := (sound.valid_of here).mem_listed.mp listed
    have given := sound.mem_given (List.mem_append_left _ (mem_frames here owned))
    exact gone _ given (inside.mono (sound.frame_within pool base))

/-- A session with a slot of the registry, one of a pool of the client, and a block of two pages. -/
def mingled : List (Op (Option Addr)) :=
  [.createPool 40, .poolAcquire 0, .alloc 20, .alloc 5000]

theorem reclaims_of_mingled : ∃ session : Session (Quota Kernel) (Option Addr),
    replay fourPages .standard none mingled = some session ∧
    Reclaims session ∧ Reclaimed session ⟨.registry 2, 0x20000000040, 20⟩ ∧
    Allocator.releaseSlot 0x10000000040 session.allocator = .error .violated session.allocator ∧
    Allocator.releaseSlot 0x30000000fff session.allocator = .error .violated session.allocator := by
  have ended : (replay fourPages .standard none mingled).map
      (fun session => (session.slots, session.held.map session.blockExtent)) =
      some ([⟨.registry 2, 0x20000000040, 20⟩, ⟨.dedicated 0, 0x10000000040, 40⟩], [(0x30000000000, 8192)]) := by
    decide +kernel
  obtain ⟨session, replayed, ended⟩ := Option.map_eq_some_iff.mp ended
  obtain ⟨slots, blocks⟩ := Prod.mk.inj ended
  have attained : Attained session :=
    (Reachable.of_replay fourPages_fresh (by decide) (by decide) replayed).attained
  have reclaims := attained.reclaims
  refine ⟨session, replayed, reclaims, ?_, ?_, ?_⟩
  · exact reclaims.slots _ (by rw [slots]; exact List.mem_cons_self) rfl
  · refine reclaims.spent _ ?_
    rintro index ⟨slot, member, registered, place⟩
    rw [slots] at member
    simp only [List.mem_cons, List.not_mem_nil, or_false] at member
    obtain rfl | rfl := member
    · cases place
    · cases registered
  · refine reclaims.astray _ (reclaims.blocks _ (by rw [blocks]; exact List.mem_singleton_self _) _
      ⟨by decide, by decide⟩)

end Session
end SlabAllocator
