import SlabAllocator.Proofs.Idle
import SlabAllocator.Proofs.Placing

/-! A block gets another length in one of two ways: the host moves it, or else it is copied to a new block.
The two differ in what the host was asked and in the peak, and in nothing else; and what fails leaves the
block as it was. -/

namespace SlabAllocator

namespace Arena

variable [Host σ] [LawfulHost σ] {arena before after : Arena σ (Books ω)} {locked : List Extent}
  {addr oldSize newSize : Nat}

structure Replaced (addr oldLen newLen : Nat) (before : Arena σ (Books ω)) (moved : Addr)
    (after : Arena σ (Books ω)) : Prop where
  quiet : Quiet before after
  short : newLen ≤ Size.longest
  asked : ∃ host, Host.resize addr oldLen newLen before.machine.host = .ok none host ∧
    Host.grants host newLen = true
  apart : moved ≠ addr
  events : after.events = before.events ++
    [.resize addr oldLen newLen none, .request newLen (some moved), .giveBack addr oldLen true]

/-- The host neither moves the block nor grants another one. It is not asked for one that is too long. -/
def Barred (addr oldLen newLen : Nat) (arena : Arena σ (Books ω)) : Prop :=
  newLen ≤ Size.longest →
    ∃ host, Host.resize addr oldLen newLen arena.machine.host = .ok none host ∧ Host.grants host newLen = false

structure Stayed (addr oldLen newLen newSize : Nat) (before after : Arena σ (Books ω)) : Prop where
  memory : after.machine.memory = before.machine.memory
  paged : after.pageSize = before.pageSize
  books : before.env.Agree after.env
  hook : after.hook = before.hook.map Hook.afterRun
  stats : after.stats =
    { before.stats with hookInvocations := before.stats.hookInvocations + if before.hasHook then 1 else 0 }
  events : after.events = before.events ++ (moving addr oldLen newLen none ++ asking newLen none ++
    if before.hasHook then [.hookStarted newSize, .hookFinished none] else [])
  barred : Barred addr oldLen newLen before

omit [LawfulHost σ] in
theorem Unmoved.barred {oldLen newLen : Nat} (unmoved : Unmoved addr oldLen newLen before after)
    (refused : newLen ≤ Size.longest → Host.grants after.machine.host newLen = false) :
    Barred addr oldLen newLen before :=
  fun short => ⟨after.machine.host, unmoved.asked short, refused short⟩

omit [LawfulHost σ] in
theorem Unmoved.stayed {middle : Arena σ (Books ω)} {oldLen : Nat}
    (unmoved : Unmoved addr oldLen (pageBytes before.pageSize newSize) before middle)
    (denied : Denied newSize middle after) :
    Stayed addr oldLen (pageBytes before.pageSize newSize) newSize before after := by
  obtain ⟨host, journal, same⟩ := unmoved.inquired
  have barred := unmoved.barred (by simpa only [same] using denied.refused)
  have told := unmoved.events
  obtain ⟨memory, paged, books, hook, stats, events, -⟩ := denied
  subst same
  refine ⟨memory, paged, books, hook, stats, events.trans ?_, barred⟩
  rw [told, List.append_assoc, List.append_assoc]
  rfl

omit [Host σ] [LawfulHost σ] in
theorem Idle.inquired (idle : before.Idle) (inquired : Inquired before after) : after.Idle := by
  obtain ⟨host, journal, rfl⟩ := inquired
  exact idle

private theorem Sound.replaceWith_idle (sound : Sound ((addr, pageBytes arena.pageSize oldSize) :: locked) arena)
    (idle : arena.Idle) (newSize : Nat) :
    (replaceWith acquire oldSize addr newSize).Meets arena
      (fun outcome after => match outcome with
        | .ok moved => Quiet arena after ∧ pageBytes arena.pageSize newSize ≤ Size.longest ∧
            Host.grants arena.machine.host (pageBytes arena.pageSize newSize) = true ∧ moved ≠ addr ∧
            after.events = arena.events ++ [.request (pageBytes arena.pageSize newSize) (some moved),
              .giveBack addr (pageBytes arena.pageSize oldSize) true]
        | .error error => error = .outOfMemory newSize ∧ Denied newSize arena after)
      fun fault _ => Uncounted newSize arena fault := by
  refine replaceWith_rule locked ((sound.acquire_idle idle newSize).imp fun outcome middle acquired => ?_)
  cases outcome with
  | error error => exact acquired
  | ok fresh =>
    obtain ⟨sound', steady, quiet, short, grants, told⟩ := acquired
    have apart : fresh ≠ addr :=
      fun same => sound'.apart_head (List.mem_append_left _ List.mem_cons_self) same.symm
    rw [← steady.paged] at sound'
    refine ⟨sound', fun after _ returned => ⟨quiet.trans returned.quiet, short, grants, apart, ?_⟩⟩
    have back : after.events = middle.events ++ [.giveBack addr (pageBytes middle.pageSize oldSize) true] :=
      returned.events
    rw [back, told, steady.paged, List.append_assoc]
    rfl

/-- The two ways in which a resize succeeds, and what is left of one that fails. -/
theorem Sound.resize_ways (sound : Sound ((addr, pageBytes arena.pageSize oldSize) :: locked) arena)
    (idle : arena.Idle) (different : pageBytes arena.pageSize newSize ≠ pageBytes arena.pageSize oldSize) :
    (resize oldSize addr newSize).Meets arena
      (fun outcome after => match outcome with
        | .ok moved =>
          Remapped addr (pageBytes arena.pageSize oldSize) (pageBytes arena.pageSize newSize) arena moved after ∨
            Replaced addr (pageBytes arena.pageSize oldSize) (pageBytes arena.pageSize newSize) arena moved after
        | .error error => error = .outOfMemory newSize ∧
            Stayed addr (pageBytes arena.pageSize oldSize) (pageBytes arena.pageSize newSize) newSize arena after)
      fun fault _ => fault = .overflow ∧ Size.bound ≤ arena.stats.hookInvocations + 1 ∧ arena.hasHook = true ∧
        Barred addr (pageBytes arena.pageSize oldSize) (pageBytes arena.pageSize newSize) arena := by
  rw [resize, resizeWith_eq, Run.meets_bind]
  refine Run.Ends.imp (sound.resizeInPlace_spec different) fun settled middle placed => ?_
  cases settled with
  | some outcome =>
    obtain ⟨moved, rfl, -, remapped⟩ := placed
    simp only [Run.meets_pure]
    exact .inl remapped
  | none =>
    obtain ⟨sound', unmoved⟩ := placed
    have idle' := idle.inquired unmoved.inquired
    have told := unmoved.events
    have asked := unmoved.asked
    obtain ⟨host, journal, rfl⟩ := unmoved.inquired
    refine (sound'.replaceWith_idle idle' newSize).mono (fun outcome after replaced => ?_)
      fun fault after uncounted => ?_
    · cases outcome with
      | error error => exact ⟨replaced.1, unmoved.stayed replaced.2⟩
      | ok moved =>
        obtain ⟨quiet, short, grants, apart, events⟩ := replaced
        rw [moving, if_pos short] at told
        refine .inr ⟨⟨quiet.hook, quiet.env, quiet.invocations⟩, short, ⟨host, asked short, grants⟩, apart, ?_⟩
        rw [events, told, List.append_assoc]
        rfl
    · exact ⟨uncounted.fault, uncounted.full, uncounted.installed, unmoved.barred uncounted.refused⟩

/-- A block that has another length, whichever way it went. All other blocks are as they were. -/
structure Rehoused (oldSize addr newSize : Nat) (before : Arena σ (Books ω)) (moved : Addr)
    (after : Arena σ (Books ω)) : Prop where
  measured : before.blockLen newSize = .ok (some (pageBytes before.pageSize newSize))
  swapped : ∃ rest, before.machine.memory.live.Perm ((addr, pageBytes before.pageSize oldSize) :: rest) ∧
    after.machine.memory.live.Perm ((moved, pageBytes before.pageSize newSize) :: rest) ∧
    ∀ extent ∈ rest, after.machine.memory.find? extent.1 = before.machine.memory.find? extent.1
  gone : moved ≠ addr → after.machine.memory.find? addr = none
  bytes : after.machine.memory.read moved (min oldSize newSize) =
    before.machine.memory.read addr (min oldSize newSize)
  counters : Exchanged (pageBytes before.pageSize oldSize) (pageBytes before.pageSize newSize) before after
  quiet : Quiet before after

private theorem Sound.rehoused {moved : Addr}
    (sound : Sound ((addr, pageBytes arena.pageSize oldSize) :: locked) arena)
    (sound' : Sound ((moved, pageBytes arena.pageSize newSize) :: locked) after)
    (steady : Steady locked arena after) (quiet : Quiet arena after)
    (short : pageBytes arena.pageSize newSize ≤ Size.longest)
    (bytes : after.machine.memory.read moved (min oldSize newSize) =
      arena.machine.memory.read addr (min oldSize newSize)) :
    Rehoused oldSize addr newSize arena moved after := by
  have live : arena.machine.memory.live.Perm ((addr, pageBytes arena.pageSize oldSize) ::
      (locked ++ arena.env.held.map (Holding.extent arena.pageSize))) := sound.live
  have live' : after.machine.memory.live.Perm ((moved, pageBytes arena.pageSize newSize) ::
      (locked ++ arena.env.held.map (Holding.extent arena.pageSize))) := by
    rw [← quiet.env, ← steady.paged]
    rw [← steady.paged] at sound'
    exact sound'.live
  refine ⟨by rw [blockLen_eq sound.power, if_pos short], ⟨_, live, live', ?_⟩, ?_, bytes, ?_, quiet⟩
  · intro extent member
    rcases List.mem_append.mp member with inside | inside
    · exact steady.locked extent inside
    · obtain ⟨block, held, rfl⟩ := List.mem_map.mp inside
      exact (steady.held block (by rw [quiet.env]; exact held) (sound.issued block held)).2
  · intro apart
    cases found : after.machine.memory.find? addr with
    | none => rfl
    | some block =>
      have listed := live'.mem_iff.mp (Memory.mem_live_of_find? found)
      rcases List.mem_cons.mp listed with same | inside
      · exact absurd (congrArg Prod.fst same).symm apart
      · exact absurd rfl (sound.apart_head inside)
  · have count := live.length_eq.trans live'.length_eq.symm
    have total := Extent.total_perm live
    have total' := Extent.total_perm live'
    rw [Extent.total_cons] at total total'
    constructor
    · rw [sound'.liveBlocks, sound.liveBlocks, count]
    · rw [sound'.mappedBytes, sound.mappedBytes, total, total']
      omega

/-- How a resize to another length ends: with the block in one of the two ways, or else with nothing done. -/
def Ended (oldSize addr newSize : Nat) (before : Arena σ (Books ω)) (outcome : Outcome)
    (after : Arena σ (Books ω)) : Prop :=
  match outcome with
  | .ok moved => Rehoused oldSize addr newSize before moved after ∧
      (Remapped addr (pageBytes before.pageSize oldSize) (pageBytes before.pageSize newSize) before moved after ∨
        Replaced addr (pageBytes before.pageSize oldSize) (pageBytes before.pageSize newSize) before moved after)
  | .error error => error = .outOfMemory newSize ∧
      Stayed addr (pageBytes before.pageSize oldSize) (pageBytes before.pageSize newSize) newSize before after

/-- Both ways come to the same but for what the host was asked, and what fails leaves the block where it is. -/
theorem Sound.resize_rehouses (sound : Sound ((addr, pageBytes arena.pageSize oldSize) :: locked) arena)
    (idle : arena.Idle) (different : pageBytes arena.pageSize newSize ≠ pageBytes arena.pageSize oldSize) :
    (resize oldSize addr newSize).Meets arena (Ended oldSize addr newSize arena) fun fault _ =>
      fault = .overflow ∧ Size.bound ≤ arena.stats.hookInvocations + 1 ∧ arena.hasHook = true ∧
        Barred addr (pageBytes arena.pageSize oldSize) (pageBytes arena.pageSize newSize) arena := by
  refine ((sound.resize_ways idle different).and (Arena.resize_spec sound newSize)).mono ?_
    fun _ _ stopped => stopped.1
  rintro outcome after ⟨way, settled, resized⟩
  cases outcome with
  | error error => exact way
  | ok moved =>
    obtain ⟨sound', bytes⟩ := resized
    refine ⟨?_, way⟩
    rcases way with remapped | replaced
    · exact sound.rehoused sound' settled.steady remapped.quiet remapped.short bytes
    · exact sound.rehoused sound' settled.steady replaced.quiet replaced.short bytes

end Arena
end SlabAllocator
