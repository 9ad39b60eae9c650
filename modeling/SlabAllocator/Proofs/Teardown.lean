import SlabAllocator.Proofs.Origins

/-! What becomes of the frames of a pool that is let go. Each of them goes back to the host once, at its
full length, and what is live afterwards belongs to the client or to the pools that are left. -/

namespace SlabAllocator

namespace Session

variable [Host σ] [LawfulHost σ]
variable {session : Session σ ω} {pool : Pool} {number : Nat}

def events (session : Session σ ω) : List Event :=
  session.arena.machine.journal.events.toList

theorem Sound.destroyPool_returned (sound : Sound session)
    (here : session.pool? (.dedicated number) = some pool) :
    (destroyPool number).Ends session fun _ after =>
      after.allocator.pools = session.allocator.pools ∧
      after.dedicated = session.dedicated.setIfInBounds number none ∧
        Arena.Returned (pool.chained session.arena.pageSize session.memory) session.arena after.arena := by
  have found : session.dedicated[number]?.join = some pool := here
  simp only [destroyPool, onDedicated, Allocator.destroyPool, Allocator.onDedicated, Run.meets_bind,
    Run.meets_get, found, Run.meets_focus, Run.meets_modify, Array.setIfInBounds_setIfInBounds]
  refine (sound.pools.focus (Option.join_eq_some_iff.mp here)).destroy_spec.imp ?_
  rintro _ later ⟨-, -, returned⟩
  exact ⟨trivial, trivial, returned⟩

theorem Sound.teardown_returned (sound : Sound session) :
    teardown.Ends session fun _ after =>
      (∀ index : Nat, after.allocator.pools[index]?.join = none) ∧ after.dedicated = session.dedicated ∧
        Arena.Returned (session.allocator.registered.flatMap (·.chained session.arena.pageSize session.memory))
          session.arena after.arena := by
  simp only [teardown, onAllocator, Run.meets_bind, Run.meets_focus, Run.meets_modify]
  refine sound.registry.teardown_spec.imp ?_
  rintro _ allocator ⟨-, -, -, vacant, returned⟩
  exact ⟨vacant, trivial, returned⟩

/-- Some pools are gone, and so are their frames. -/
structure Dissolved (gone : Source → Prop) [DecidablePred gone] (frames rest : List Extent)
    (session after : Session σ ω) : Prop where
  pools : ∀ source, after.pool? source = if gone source then none else session.pool? source
  held : after.held = session.held
  live : ∀ frame ∈ frames, frame ∈ Journal.live session.events
  distinct : (frames.map Prod.fst).Nodup
  /-- Each frame goes back to the host, and nothing else is asked of it or of a hook. -/
  returned : after.events = session.events ++ frames.map fun frame => .giveBack frame.1 frame.2 true
  left : (Journal.live after.events).Perm (after.held.map after.blockExtent ++ rest)
  final : Journal.Final after.events

private theorem Sound.dissolved {after : Session σ ω} {gone : Source → Prop} [DecidablePred gone]
    {frames others rest : List Extent} (sound : Sound session) (sound' : Sound after)
    (split : session.frames.Perm (frames ++ others)) (same : after.frames = rest)
    (returned : Arena.Returned frames session.arena after.arena)
    (pools : ∀ source, after.pool? source = if gone source then none else session.pool? source) :
    Dissolved gone frames rest session after := by
  have accounts := sound.accounts.perm split
  have accounts' := sound'.accounts
  have bases := accounts.spread.nodup
  rw [List.map_append, List.map_append, List.append_assoc] at bases
  refine ⟨pools, congrArg Books.held returned.quiet.env, fun frame member => ?_, bases.of_append_left,
    returned.events, ?_, accounts'.machine.lawful.final accounts'.machine.scattered⟩
  · refine (accounts.machine.journal.trans accounts.live).mem_iff.mpr ?_
    exact List.mem_append_left _ (List.mem_append_left _ member)
  · rw [← same]
    exact (accounts'.machine.journal.trans accounts'.live).trans List.perm_append_comm

theorem Sound.destroyPool_dissolves (sound : Sound session)
    (here : session.pool? (.dedicated number) = some pool) :
    ∃ after, step (.destroyPool number) session = .ok () after ∧
      Dissolved (· = .dedicated number) (pool.chained session.arena.pageSize session.memory) after.frames
        session after := by
  have meets := (sound.destroyPool_spec number).and (sound.destroyPool_returned here)
  obtain ⟨_, after, ran, ⟨sound', -⟩, registry, dedicated, returned⟩ :=
    Run.Ends.exists_ok (meets.mono (fun _ _ => id) fun _ _ stopped => stopped.2)
  have found := Option.join_eq_some_iff.mp here
  have split : session.frames.Perm (pool.chained session.arena.pageSize session.memory ++
      session.beside number) := by
    refine List.perm_append_comm.trans ((Entries.extents_split found _ _).trans ?_)
    exact ((sound.valid number pool found).chained_perm _).symm.append_right _
  refine ⟨after, ran, sound.dissolved sound' split rfl returned fun source => ?_⟩
  cases source with
  | registry index => rw [if_neg nofun, pool?, pool?, registry]
  | dedicated other =>
    rw [pool?, pool?, dedicated, Array.getElem?_setIfInBounds]
    by_cases same : number = other
    · subst same
      rw [if_pos rfl, if_pos (Entries.lt_size found), if_pos rfl]
      rfl
    · rw [if_neg same, if_neg fun equal => same (Source.dedicated.inj equal).symm]

theorem Sound.teardown_dissolves (sound : Sound session) :
    ∃ after, step .teardown session = .ok () after ∧
      Dissolved (·.isRegistry)
        (session.allocator.registered.flatMap (·.chained session.arena.pageSize session.memory))
        after.extents session after := by
  have meets := sound.teardown_spec.and sound.teardown_returned
  obtain ⟨_, after, ran, ⟨sound', -⟩, vacant, dedicated, returned⟩ :=
    Run.Ends.exists_ok (meets.mono (fun _ _ => id) fun _ _ stopped => stopped.2)
  have split : session.frames.Perm
      (session.allocator.registered.flatMap (·.chained session.arena.pageSize session.memory) ++
        session.extents) := by
    refine List.Perm.append_right _ (List.Perm.flatMap_left _ fun pool member => ?_)
    obtain ⟨index, here⟩ := Entries.mem_pools.mp member
    exact ((sound.registry.entries.valid index pool here).chained_perm _).symm
  have bare : Entries.pools after.allocator.pools = [] := by
    refine List.eq_nil_iff_forall_not_mem.mpr fun pool member => ?_
    obtain ⟨index, here⟩ := Entries.mem_pools.mp member
    have none := vacant index
    rw [here] at none
    cases none
  have rest : after.frames = after.extents := by
    rw [frames, Entries.extents, bare]
    rfl
  refine ⟨after, ran, sound.dissolved sound' split rest returned fun source => ?_⟩
  cases source with
  | registry index => exact (vacant index).trans (if_pos rfl).symm
  | dedicated number =>
    rw [pool?, pool?, dedicated]
    exact (if_neg Bool.false_ne_true).symm

/-- A pool counts its frames at the length that they have in the arena if it counts in whole pages of the
arena. All pools that the allocator makes do so, and those made by hand may not. -/
structure Paged (session : Session σ ω) (source : Source) (pool : Pool) : Prop where
  whole : pageBytes session.arena.pageSize pool.frameLen = pool.frameLen ↔ session.arena.pageSize ∣ pool.frameLen
  made : source.isRegistry ∨ Reachable session ∨ Created source session →
    pageBytes session.arena.pageSize pool.frameLen = pool.frameLen

/-- A pool's frames as the host knows them, from head to tail. -/
def Framed (session : Session σ ω) (source : Source) (pool : Pool) : Prop :=
  ∃ nodes, pool.frames.nodes session.memory = .ok nodes ∧
    pool.chained session.arena.pageSize session.memory =
      nodes.map (fun base => (base, pageBytes session.arena.pageSize pool.frameLen)) ∧
    Paged session source pool

theorem Attained.paged (attained : Attained session) {source : Source} (here : session.pool? source = some pool) :
    Paged session source pool := by
  have power := attained.sound.accounts.power
  have whole : pageBytes session.arena.pageSize pool.frameLen = pool.frameLen ↔
      session.arena.pageSize ∣ pool.frameLen :=
    pageBytes_eq_iff power (attained.sound.valid_of here).geometry.frameLen_pos
  refine ⟨whole, fun origin => whole.mpr (Geometry.Made.dvd ?_ power)⟩
  cases source with
  | registry index => exact attained.made.registry index pool (Option.join_eq_some_iff.mp here)
  | dedicated number =>
    rcases origin with registered | reachable | created
    · cases registered
    · exact reachable.made.dedicated number pool (Option.join_eq_some_iff.mp here)
    · exact created.made here

private theorem Attained.framed (attained : Attained session) {source : Source}
    (here : session.pool? source = some pool) : Framed session source pool := by
  obtain ⟨nodes, lists, -⟩ := (attained.sound.valid_of here).lists
  exact ⟨nodes, lists.nodes_ok, Pool.chained_eq lists _, attained.paged here⟩

/-- Pools can be let go in any session, whatever the client still has from them, and nothing leaks. -/
theorem Attained.dissolves (attained : Attained session) :
    (∀ source pool, session.pool? source = some pool → Framed session source pool) ∧
    (∀ number pool, session.pool? (.dedicated number) = some pool →
      ∃ after, Session.step (.destroyPool number) session = .ok () after ∧
        Dissolved (· = .dedicated number) (pool.chained session.arena.pageSize session.memory)
          after.frames session after) ∧
    ∃ after, Session.step .teardown session = .ok () after ∧
      Dissolved (·.isRegistry)
        (session.allocator.registered.flatMap (·.chained session.arena.pageSize session.memory))
        after.extents session after :=
  ⟨fun _ _ => attained.framed, fun _ _ => attained.sound.destroyPool_dissolves, attained.sound.teardown_dissolves⟩

end Session

/-- Operations that leave a frame with a pool of the client, one with a registered pool and one block with the
client. -/
def leaving : List (Op (Option Addr)) :=
  [.createPool 40, .poolAcquire 0, .alloc 24, .acquire 5000]

namespace Session

theorem dissolves_of_leaving : ∃ session : Session (Quota Kernel) (Option Addr),
    replay fourPages .standard none leaving = some session ∧
      (∃ after, step (.destroyPool 0) session = .ok () after ∧
        Dissolved (· = .dedicated 0) [(0x10000000000, 4096)] after.frames session after) ∧
      ∃ after, step .teardown session = .ok () after ∧
        Dissolved (·.isRegistry) [(0x20000000000, 4096)] after.extents session after := by
  have ended : (replay fourPages .standard none leaving).map (fun session =>
      ((session.pool? (.dedicated 0)).map (·.chained session.arena.pageSize session.memory),
        session.allocator.registered.flatMap (·.chained session.arena.pageSize session.memory))) =
      some (some [(0x10000000000, 4096)], [(0x20000000000, 4096)]) := by
    decide +kernel
  obtain ⟨session, replayed, frames⟩ := Option.map_eq_some_iff.mp ended
  obtain ⟨own, registered⟩ := Prod.mk.inj frames
  obtain ⟨pool, here, chained⟩ := Option.map_eq_some_iff.mp own
  have attained : Attained session :=
    (Reachable.of_replay fourPages_fresh (by decide) (by decide) replayed).attained
  obtain ⟨-, destroyed, torn⟩ := attained.dissolves
  rw [registered] at torn
  have single := destroyed 0 pool here
  rw [chained] at single
  exact ⟨session, replayed, single, torn⟩

end Session
end SlabAllocator
