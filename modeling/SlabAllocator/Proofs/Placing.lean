import SlabAllocator.Proofs.Arena
import SlabAllocator.Proofs.Conservation

/-! How far a resize comes without a new block, and how it ends with one: once there is a new block, nothing
can keep the old one from going back. -/

namespace SlabAllocator

/-- How the host answers when it is asked for another length of a live block. -/
private theorem Machine.resize_hosted [Host σ] {machine : Machine σ} {base oldLen : Addr} (newLen : Nat)
    (hosts : machine.memory.hosts base oldLen = true) :
    (resize base oldLen newLen).Meets machine
      (fun moved after => Host.resize base oldLen newLen machine.host = .ok moved after.host)
        fun _ _ => True := by
  simp only [resize, onHost, Run.meets_bind, Run.meets_get, hosts, if_true, Run.meets_focus]
  refine (Run.Meets.result _ _).mono ?_ fun _ _ _ => trivial
  intro moved host asked
  cases moved with
  | none =>
    simp only [note, Run.meets_bind, Run.meets_modify, Run.meets_pure]
    exact asked
  | some target =>
    simp only [note, setMemory, Run.meets_bind, Run.meets_get, Run.meets_modify, Run.meets_pure]
    exact asked

namespace Arena

variable [Host σ] [LawfulHost σ] {arena before after : Arena σ (Books ω)} {locked : List Extent}
  {addr oldSize newSize : Nat}

def events (arena : Arena σ ω) : List Event :=
  arena.machine.journal.events.toList

/-- What the host is asked on behalf of a resize before there is a new block. -/
def moving (addr oldLen newLen : Nat) (moved : Option Addr) : List Event :=
  if newLen ≤ Size.longest then [.resize addr oldLen newLen moved] else []

structure Remapped (addr oldLen newLen : Nat) (before : Arena σ (Books ω)) (moved : Addr)
    (after : Arena σ (Books ω)) : Prop where
  quiet : Quiet before after
  short : newLen ≤ Size.longest
  asked : ∃ host, Host.resize addr oldLen newLen before.machine.host = .ok (some moved) host
  events : after.events = before.events ++ [.resize addr oldLen newLen (some moved)]

structure Unmoved (addr oldLen newLen : Nat) (before after : Arena σ (Books ω)) : Prop where
  inquired : Inquired before after
  asked : newLen ≤ Size.longest → Host.resize addr oldLen newLen before.machine.host = .ok none after.machine.host
  events : after.events = before.events ++ moving addr oldLen newLen none

/-- A block that has another place and the length of another size, with the common bytes. All else is as it was. -/
structure Shifted (locked : List Extent) (oldSize addr newSize : Nat) (before : Arena σ (Books ω)) (moved : Addr)
    (after : Arena σ (Books ω)) : Prop where
  sound : Sound ((moved, pageBytes before.pageSize newSize) :: locked) after
  steady : Steady locked before after
  bytes : after.machine.memory.read moved (min oldSize newSize) =
    before.machine.memory.read addr (min oldSize newSize)

section

variable {acquire : Nat → Run (Arena σ (Books ω)) Outcome}

/-- A block that already has the length of its new size stays where it is, and nothing happens. -/
theorem Sound.resizeWith_same (sound : Sound ((addr, pageBytes arena.pageSize oldSize) :: locked) arena)
    (same : pageBytes arena.pageSize newSize = pageBytes arena.pageSize oldSize) :
    resizeWith acquire oldSize addr newSize arena = .ok (.ok addr) arena := by
  change _ = (pure (.ok addr) : Run (Arena σ (Books ω)) Outcome) arena
  apply Run.eq_of_meets
  intro post stop
  simp only [resizeWith, Run.meets_bind, Run.meets_get, Run.meets_lift (blockLen_eq sound.power oldSize),
    Run.meets_lift (blockLen_eq sound.power newSize), same, if_pos sound.short_head, if_true, Run.meets_pure]

theorem Sound.resize_same (sound : Sound ((addr, pageBytes arena.pageSize oldSize) :: locked) arena)
    (same : pageBytes arena.pageSize newSize = pageBytes arena.pageSize oldSize) :
    resize oldSize addr newSize arena = .ok (.ok addr) arena :=
  sound.resizeWith_same same

/-- The bytes of a block that the host has moved, and the blocks beside it. -/
private theorem Sound.remap_spec (sound : Sound ((addr, pageBytes arena.pageSize oldSize) :: locked) arena)
    {machine : Machine σ} {block : Block} {target peak : Nat}
    (found : arena.machine.memory.find? addr = some block) (len : block.len = pageBytes arena.pageSize oldSize)
    (kept : machine.Sound arena.pageSize peak)
    (mapped : machine.memory = arena.machine.memory.remap addr target (pageBytes arena.pageSize newSize))
    (absent : (arena.machine.memory.unmap addr).find? target = none) (stats : ArenaStats) :
    Steady locked arena { arena with machine, stats } ∧
      machine.memory.read target (min oldSize newSize) =
        arena.machine.memory.read addr (min oldSize newSize) := by
  have fewer := le_pageBytes sound.power oldSize
  have fits := le_pageBytes sound.power newSize
  have found' : machine.memory.find? target = some (block.resize (pageBytes arena.pageSize newSize)) := by
    rw [mapped, Memory.find?_remap, if_pos rfl, Memory.block_eq found]
  have reach : ∀ base, ¬ (base = addr ∨ base = target) →
      machine.memory.find? base = arena.machine.memory.find? base := fun base away => by
    rw [mapped, Memory.find?_remap, if_neg fun here => away (.inr here.symm),
      if_neg fun here => away (.inl here.symm)]
  have away : ∀ extent ∈ locked ++ arena.env.held.map (Holding.extent arena.pageSize),
      ¬ (extent.1 = addr ∨ extent.1 = target) := by
    rintro extent inside (here | here)
    · exact sound.apart_head inside here
    · obtain ⟨other, there, -⟩ := sound.find (List.mem_cons_of_mem _ inside)
      rw [Memory.find?_unmap, if_neg fun same => sound.apart_head inside (here.trans same.symm),
        ← here, there] at absent
      cases absent
  refine ⟨.of_apart (fun base => base = addr ∨ base = target) rfl rfl away reach, ?_⟩
  refine Memory.read_congr sound.machine.spread kept.spread found found' (Nat.le_refl _)
    (by rw [len]; omega) (Nat.le_refl _)
    (by rw [Block.resize_len]; omega) fun k inside => ?_
  rw [Nat.sub_self, Nat.sub_self]
  exact block.byte_resize (by omega)

/-- Without a new block the host moves the block, or else nothing has happened to it. -/
theorem Sound.resizeInPlace_spec (sound : Sound ((addr, pageBytes arena.pageSize oldSize) :: locked) arena)
    (different : pageBytes arena.pageSize newSize ≠ pageBytes arena.pageSize oldSize) :
    (resizeInPlace oldSize addr newSize).Ends arena fun settled after =>
      match settled with
      | some outcome => ∃ moved, outcome = .ok moved ∧ Shifted locked oldSize addr newSize arena moved after ∧
          Remapped addr (pageBytes arena.pageSize oldSize) (pageBytes arena.pageSize newSize) arena moved after
      | none => Sound ((addr, pageBytes arena.pageSize oldSize) :: locked) after ∧
          Unmoved addr (pageBytes arena.pageSize oldSize) (pageBytes arena.pageSize newSize) arena after := by
  have member : (addr, pageBytes arena.pageSize oldSize) ∈ (addr, pageBytes arena.pageSize oldSize) :: locked ++
      arena.env.held.map (Holding.extent arena.pageSize) := by simp
  obtain ⟨block, found, len⟩ := sound.find member
  have hosts := Machine.Sound.hosts_eq found (sound.machine.hosted addr block found)
  rw [len] at hosts
  simp only [resizeInPlace, Run.meets_bind, Run.meets_get, Run.meets_lift (blockLen_eq sound.power oldSize),
    Run.meets_lift (blockLen_eq sound.power newSize), if_pos sound.short_head]
  by_cases short : pageBytes arena.pageSize newSize ≤ Size.longest
  case neg =>
    simp only [if_neg short, Run.meets_pure]
    refine ⟨sound, ⟨_, _, rfl⟩, fun fits => absurd fits short, ?_⟩
    rw [moving, if_neg short, List.append_nil]
  have spec := sound.machine.resize_spec found (proper_pageBytes sound.power short)
  rw [len] at spec
  simp only [if_pos short, if_neg different, Arena.onMachine, Run.meets_bind, Run.meets_focus]
  refine (spec.and ((Machine.resize_noted _ _ _ _).and (Machine.resize_hosted _ hosts))).mono ?_
    fun _ _ stopped => stopped.1.elim
  rintro moved machine ⟨resized, ⟨noted, -⟩, asked⟩
  have told : machine.journal.events.toList = arena.events ++
      moving addr (pageBytes arena.pageSize oldSize) (pageBytes arena.pageSize newSize) moved := by
    rw [noted, Journal.events_note, moving, if_pos short]
    rfl
  cases moved with
  | none =>
    obtain ⟨kept, same⟩ := resized
    simp only [Run.meets_pure]
    refine ⟨sound.onMachine kept (by rw [same]), ⟨machine.host, machine.journal, ?_⟩, fun _ => asked, told⟩
    rw [← same]
  | some target =>
    obtain ⟨kept, mapped, absent⟩ := resized
    have live := Memory.live_unmap found
    rw [len] at live
    have live' : machine.memory.live.Perm
        ((target, pageBytes arena.pageSize newSize) :: (arena.machine.memory.unmap addr).live) := by
      rw [mapped]
      exact Memory.live_remap _ absent
    rw [moving, if_pos short] at told
    simp only [Run.meets_bind]
    refine (sound.record_spec kept live live').imp fun _ middle recorded => recorded.imp ?_
    rintro _ after ⟨stats, invocations, rfl, sound'⟩
    obtain ⟨steady, bytes⟩ := sound.remap_spec found len kept mapped absent stats
    simp only [Run.meets_pure]
    exact ⟨target, rfl, ⟨sound', steady, bytes⟩, ⟨rfl, rfl, invocations⟩, short, ⟨machine.host, asked⟩, told⟩

/-- A block is replaced as soon as there is a new one. The bytes are copied and the old block goes back. -/
theorem replaceWith_rule (locked : List Extent) {post : Outcome → Arena σ (Books ω) → Prop}
    {stop : Fault → Arena σ (Books ω) → Prop}
    (acquires : (acquire newSize).Meets arena
      (fun outcome middle => match outcome with
        | .ok fresh =>
          Sound ((fresh, pageBytes middle.pageSize newSize) ::
            (addr, pageBytes middle.pageSize oldSize) :: locked)
            middle ∧
            ∀ after, Shifted locked oldSize addr newSize middle fresh after →
              Returned [(addr, pageBytes middle.pageSize oldSize)] middle after → post (.ok fresh) after
        | .error error => post (.error error) middle)
      stop) :
    (replaceWith acquire oldSize addr newSize).Meets arena post stop := by
  simp only [replaceWith, Run.meets_bind]
  refine acquires.imp fun outcome middle acquired => ?_
  cases outcome with
  | error error =>
    simp only [Run.meets_pure]
    exact acquired
  | ok fresh =>
    obtain ⟨sound, replaced⟩ := acquired
    have fewer := le_pageBytes sound.power oldSize
    have fits := le_pageBytes sound.power newSize
    obtain ⟨edited, copied⟩ :=
      sound.copy (addr, pageBytes middle.pageSize oldSize) (fresh, pageBytes middle.pageSize newSize)
      addr fresh (min oldSize newSize) (by simp) (by simp) ⟨Nat.le_refl _, by omega⟩
        ⟨Nat.le_refl _, by omega⟩ (by omega)
    -- The old block comes first now, as the one that goes back.
    have filled := (sound.edit edited).perm (.swap _ _ _)
    have copies : Steady locked middle { middle with
        machine :=
        { middle.machine with memory := middle.machine.memory.copy addr fresh (min oldSize newSize) } } :=
      .of_apart (· ∈ [fresh]) rfl rfl
        (fun extent member inside => sound.apart_head (List.mem_cons_of_mem _ member)
          (List.mem_singleton.mp inside))
        edited.other
    simp only [Arena.memory, setMemory, Machine.setMemory, Arena.onMachine, Run.meets_bind, Run.meets_get,
      Run.meets_focus, Run.meets_modify, Run.meets_pure]
    refine filled.release_spec.imp ?_
    rintro _ after ⟨⟨quiet, events⟩, freed, sound'⟩
    have final : after.machine.memory.read fresh (min oldSize newSize) = _ :=
      filled.read sound' (fresh, pageBytes middle.pageSize newSize) (by simp) (freed.locked _ (by simp))
        ⟨Nat.le_refl _, by omega⟩
    exact replaced after ⟨sound', copies.trans (freed.mono fun _ => List.mem_cons_of_mem _), final.trans copied⟩
      ⟨⟨quiet.hook, quiet.env, quiet.invocations⟩, events⟩

end

end Arena
end SlabAllocator
