import SlabAllocator.Arena.Acquire
import SlabAllocator.Client.Books
import SlabAllocator.Proofs.Machine

/-! An arena whose blocks are all accounted for: some are locked away from the client, the
others are in its books. The counters follow the blocks. -/

namespace SlabAllocator

section Lengths

variable {pageSize size other : Nat}

theorem le_pageBytes (power : Size.isPowerOfTwo pageSize = true) (size : Nat) :
    max size 1 ≤ pageBytes pageSize size :=
  (Size.ceil_bounds (Size.pos_of_isPowerOfTwo power)).1

theorem dvd_pageBytes (pageSize size : Nat) : pageSize ∣ pageBytes pageSize size :=
  Nat.dvd_mul_left ..

theorem proper_pageBytes (power : Size.isPowerOfTwo pageSize = true)
    (short : pageBytes pageSize size ≤ Size.longest) : Proper pageSize (pageBytes pageSize size) := by
  have := le_pageBytes power size
  exact ⟨by omega, dvd_pageBytes pageSize size, short⟩

theorem pageBytes_of_dvd (power : Size.isPowerOfTwo pageSize = true) (positive : 0 < size)
    (whole : pageSize ∣ size) : pageBytes pageSize size = size := by
  have paged := Size.pos_of_isPowerOfTwo power
  obtain ⟨pages, rfl⟩ := whole
  rw [pageBytes, Nat.max_eq_left positive, Nat.add_sub_assoc paged, Nat.mul_add_div paged,
    Nat.div_eq_of_lt (Nat.sub_lt paged Nat.one_pos), Nat.add_zero, Nat.mul_comm]

theorem pageBytes_eq_iff (power : Size.isPowerOfTwo pageSize = true) (positive : 0 < size) :
    pageBytes pageSize size = size ↔ pageSize ∣ size :=
  ⟨fun same => same ▸ dvd_pageBytes pageSize size, pageBytes_of_dvd power positive⟩

end Lengths

def Holding.extent (pageSize : Nat) (block : Holding) : Extent :=
  (block.addr, pageBytes pageSize block.size)

namespace Arena

/-- The rounding only overflows for blocks that are too long anyway. -/
theorem blockLen_eq {arena : Arena σ ω} (power : Size.isPowerOfTwo arena.pageSize = true) (size : Nat) :
    arena.blockLen size =
      .ok (if pageBytes arena.pageSize size ≤ Size.longest then
        some (pageBytes arena.pageSize size) else none) := by
  have positive := Size.pos_of_isPowerOfTwo power
  obtain ⟨low, -⟩ := Size.ceil_bounds (n := max size 1) positive
  have pages : arena.pageSize ≤ pageBytes arena.pageSize size :=
    Nat.le_of_dvd (by have := le_pageBytes power size; omega) (dvd_pageBytes ..)
  rw [blockLen, Size.roundUp?_of_isPowerOfTwo power, checked_bind, checked_pure]
  change _ ≤ pageBytes arena.pageSize size at low
  by_cases fits : max size 1 + (arena.pageSize - 1) < Size.bound
  · rw [if_pos fits]
    change Except.ok ((some (pageBytes arena.pageSize size)).filter _) = _
    by_cases short : pageBytes arena.pageSize size ≤ Size.longest
    · rw [Option.filter_some, if_pos (by simpa using short), if_pos short]
    · rw [Option.filter_some, if_neg (by simpa using short), if_neg short]
  · have bound : Size.bound = 18446744073709551616 := rfl
    have longest : Size.longest = 9223372036854775807 := rfl
    rw [if_neg fits, if_neg (by omega)]
    rfl

variable [Host σ] [LawfulHost σ]

/-- The live blocks are the locked ones and those in the books. -/
structure Sound (locked : List Extent) (arena : Arena σ (Books ω)) : Prop where
  power : Size.isPowerOfTwo arena.pageSize = true
  machine : arena.machine.Sound arena.pageSize arena.stats.peakMappedBytes
  live : arena.machine.memory.live.Perm (locked ++ arena.env.held.map (Holding.extent arena.pageSize))
  liveBlocks : arena.stats.liveBlocks = arena.machine.memory.live.length
  mappedBytes : arena.stats.mappedBytes = Extent.total arena.machine.memory.live
  issued : ∀ block ∈ arena.env.held, block.ticket < arena.env.tickets
  audited : ∀ hook, arena.hook = some hook → ∃ programs,
    hook.programs = Program.auditedAll arena.pageSize programs

/-- What every operation leaves alone: the locked blocks, and those that stay in the books. -/
structure Steady (locked : List Extent) (before after : Arena σ (Books ω)) : Prop where
  paged : after.pageSize = before.pageSize
  locked : ∀ extent ∈ locked, after.machine.memory.find? extent.1 = before.machine.memory.find? extent.1
  held : ∀ block ∈ after.env.held, block.ticket < before.env.tickets →
    block ∈ before.env.held ∧ after.machine.memory.find? block.addr = before.machine.memory.find? block.addr
  tickets : before.env.tickets ≤ after.env.tickets

variable {arena before middle after : Arena σ (Books ω)} {env : Books ω} {locked more : List Extent}
  {addr size target oldLen newLen : Nat}

namespace Steady

omit [LawfulHost σ] [Host σ]

theorem refl (locked : List Extent) (arena : Arena σ (Books ω)) : Steady locked arena arena :=
  ⟨rfl, fun _ _ => rfl, fun _ member _ => ⟨member, rfl⟩, Nat.le_refl _⟩

theorem trans (first : Steady locked before middle) (second : Steady locked middle after) :
    Steady locked before after := by
  refine ⟨second.paged.trans first.paged, fun extent member =>
    (second.locked extent member).trans (first.locked extent member), fun block member old => ?_,
    Nat.le_trans first.tickets second.tickets⟩
  obtain ⟨kept, same⟩ := second.held block member (Nat.lt_of_lt_of_le old first.tickets)
  obtain ⟨kept', same'⟩ := first.held block kept old
  exact ⟨kept', same.trans same'⟩

theorem mono (steady : Steady more before after) (fewer : ∀ extent ∈ locked, extent ∈ more) :
    Steady locked before after :=
  ⟨steady.paged, fun extent member => steady.locked extent (fewer extent member), steady.held, steady.tickets⟩

/-- Blocks that are accounted for stay when a change reaches no other base. -/
theorem of_apart (touched : Nat → Prop) (paged : after.pageSize = before.pageSize) (env : after.env = before.env)
    (away : ∀ extent ∈ locked ++ before.env.held.map (Holding.extent before.pageSize), ¬ touched extent.1)
    (others : ∀ base, ¬ touched base → after.machine.memory.find? base = before.machine.memory.find? base) :
    Steady locked before after := by
  refine ⟨paged, fun extent member => others _ (away extent (List.mem_append_left _ member)), ?_, by rw [env]⟩
  intro block member _
  rw [env] at member
  exact ⟨member, others _ (away _ (List.mem_append_right _ (List.mem_map_of_mem member)))⟩

theorem cons (steady : Steady locked before after) (extent : Extent)
    (same : after.machine.memory.find? extent.1 = before.machine.memory.find? extent.1) :
    Steady (extent :: locked) before after := by
  refine { steady with locked := fun other member => ?_ }
  rcases List.mem_cons.mp member with rfl | old
  · exact same
  · exact steady.locked other old

/-- The books may change as long as nothing old comes into them. -/
theorem books (steady : Steady locked before after) (tickets : before.env.tickets ≤ env.tickets)
    (held : ∀ block ∈ env.held, block.ticket < before.env.tickets → block ∈ before.env.held ∧
      after.machine.memory.find? block.addr = before.machine.memory.find? block.addr) :
    Steady locked before { after with env } :=
  ⟨steady.paged, steady.locked, held, tickets⟩

theorem fewer (locked : List Extent) (tickets : env.tickets = arena.env.tickets)
    (held : ∀ block ∈ env.held, block ∈ arena.env.held) : Steady locked arena { arena with env } :=
  (refl locked arena).books (by rw [tickets]) fun block member _ => ⟨held block member, rfl⟩

theorem gain (steady : Steady locked before after) (size addr : Nat) (errands : List Errand) :
    Steady locked before { after with env := { after.env with errands }.gain size addr } := by
  refine steady.books (Nat.le_succ_of_le steady.tickets) fun block member old => ?_
  rcases List.mem_cons.mp member with rfl | kept
  · exact absurd old (Nat.not_lt_of_le steady.tickets)
  · exact steady.held block kept old

theorem restore {block : Holding} {extent : Extent} (steady : Steady (extent :: locked) { arena with env } after)
    (base : extent.1 = block.addr) (tickets : env.tickets = arena.env.tickets)
    (held : ∀ other ∈ env.held, other ∈ arena.env.held) (member : block ∈ arena.env.held)
    (errands : List Errand) :
    Steady locked arena { after with env := { after.env with errands }.restore block } := by
  have whole := (fewer (extent :: locked) tickets held).trans steady
  refine (whole.mono fun _ => List.mem_cons_of_mem _).books whole.tickets fun other kept old => ?_
  rcases List.mem_cons.mp kept with rfl | kept
  · exact ⟨member, base ▸ whole.locked extent List.mem_cons_self⟩
  · exact whole.held other kept old

theorem of_memory (paged : after.pageSize = before.pageSize) (env : after.env = before.env)
    (same : after.machine.memory = before.machine.memory) : Steady locked before after :=
  .of_apart (fun _ => False) paged env (fun _ _ => id) fun base _ => by rw [same]

end Steady

/-- What an operation that runs no hook leaves alone besides. -/
structure Quiet (before after : Arena σ (Books ω)) : Prop where
  hook : after.hook = before.hook
  env : after.env = before.env
  invocations : after.stats.hookInvocations = before.stats.hookInvocations

omit [Host σ] [LawfulHost σ] in
theorem Quiet.refl (arena : Arena σ (Books ω)) : Quiet arena arena :=
  ⟨rfl, rfl, rfl⟩

omit [Host σ] [LawfulHost σ] in
theorem Quiet.trans (first : Quiet before middle) (second : Quiet middle after) : Quiet before after :=
  ⟨second.hook.trans first.hook, second.env.trans first.env, second.invocations.trans first.invocations⟩

/-- Only bytes and the log change: neither the host nor a hook is called. -/
def Silent {σ ω : Type} (before after : Arena σ ω) : Prop :=
  ∃ memory log, after = { before with
    machine := { before.machine with memory, journal := { before.machine.journal with log } } }

omit [Host σ] [LawfulHost σ] in
theorem Silent.trans (first : Silent before middle) (second : Silent middle after) : Silent before after := by
  obtain ⟨memory, log, rfl⟩ := first
  obtain ⟨changed, more, rfl⟩ := second
  exact ⟨changed, more, rfl⟩

/-- Blocks have gone back to the host, in this order, and nothing else was asked of it or of a hook. -/
structure Returned (blocks : List Extent) (before after : Arena σ (Books ω)) : Prop where
  quiet : Quiet before after
  events : after.machine.journal.events.toList =
    before.machine.journal.events.toList ++ blocks.map fun block => .giveBack block.1 block.2 true

omit [Host σ] [LawfulHost σ] in
theorem Returned.refl (arena : Arena σ (Books ω)) : Returned [] arena arena :=
  ⟨.refl arena, (List.append_nil _).symm⟩

omit [Host σ] [LawfulHost σ] in
theorem Silent.returned (silent : Silent before after) : Returned [] before after := by
  obtain ⟨memory, log, rfl⟩ := silent
  exact ⟨⟨rfl, rfl, rfl⟩, (List.append_nil _).symm⟩

omit [Host σ] [LawfulHost σ] in
theorem Returned.trans {blocks others : List Extent} (first : Returned blocks before middle)
    (second : Returned others middle after) : Returned (blocks ++ others) before after := by
  refine ⟨first.quiet.trans second.quiet, ?_⟩
  rw [second.events, first.events, List.map_append, List.append_assoc]

omit [Host σ] [LawfulHost σ] in
theorem Returned.silent {blocks : List Extent} (returned : Returned blocks before middle)
    (silent : Silent middle after) : Returned blocks before after := by
  rw [← List.append_nil blocks]
  exact returned.trans silent.returned

namespace Sound

theorem perm (sound : Sound locked arena) (same : locked.Perm more) : Sound more arena :=
  { sound with live := sound.live.trans (same.append_right _) }

theorem spread (sound : Sound locked arena) :
    Spread (locked ++ arena.env.held.map (Holding.extent arena.pageSize)) :=
  sound.machine.spread.perm sound.live

theorem find (sound : Sound locked arena) {extent : Extent}
    (member : extent ∈ locked ++ arena.env.held.map (Holding.extent arena.pageSize)) :
    ∃ block, arena.machine.memory.find? extent.1 = some block ∧ block.len = extent.2 :=
  Memory.mem_live.mp (sound.live.mem_iff.mpr member)

theorem proper (sound : Sound locked arena) {extent : Extent}
    (member : extent ∈ locked ++ arena.env.held.map (Holding.extent arena.pageSize)) :
    Proper arena.pageSize extent.2 :=
  sound.machine.proper (sound.live.mem_iff.mpr member)

/-- The books may change as long as every block stays accounted for. -/
theorem books (sound : Sound locked arena)
    (same : (more ++ env.held.map (Holding.extent arena.pageSize)).Perm
      (locked ++ arena.env.held.map (Holding.extent arena.pageSize)))
    (issued : ∀ block ∈ env.held, block.ticket < env.tickets) : Sound more { arena with env } :=
  { sound with live := sound.live.trans same.symm, issued }

theorem gain (sound : Sound ((addr, pageBytes arena.pageSize size) :: locked) arena) (errands : List Errand) :
    Sound locked { arena with env := { arena.env with errands }.gain size addr } := by
  refine sound.books List.perm_middle fun block member => ?_
  rcases List.mem_cons.mp member with rfl | old
  · exact Nat.lt_succ_self _
  · exact Nat.lt_succ_of_lt (sound.issued block old)

theorem drop (sound : Sound locked arena) {block : Holding} (member : block ∈ arena.env.held) :
    Sound (block.extent arena.pageSize :: locked) { arena with env := arena.env.drop block } := by
  refine sound.books ?_ fun other kept => sound.issued other (List.mem_of_mem_erase kept)
  have split := ((List.perm_cons_erase member).map (Holding.extent arena.pageSize)).append_left locked
  exact (split.trans List.perm_middle).symm

theorem restore {block : Holding} (sound : Sound (block.extent arena.pageSize :: locked) arena)
    (issued : block.ticket < arena.env.tickets) (errands : List Errand) :
    Sound locked { arena with env := { arena.env with errands }.restore block } := by
  refine sound.books List.perm_middle fun other member => ?_
  rcases List.mem_cons.mp member with rfl | old
  · exact issued
  · exact sound.issued other old

theorem write (sound : Sound locked arena) (memory : Memory) (live : memory.live.Perm arena.machine.memory.live)
    (hosted : ∀ base block, memory.find? base = some block → block.hosted = true) :
    Sound locked { arena with machine := { arena.machine with memory } } where
  power := sound.power
  machine := sound.machine.write memory live hosted
  live := live.trans sound.live
  liveBlocks := sound.liveBlocks.trans live.symm.length_eq
  mappedBytes := sound.mappedBytes.trans (Extent.total_perm live.symm)
  issued := sound.issued
  audited := sound.audited

theorem edit (sound : Sound locked arena) {memory : Memory} {bases : List Nat} {low high : Nat}
    (edited : Memory.Edited bases low high arena.machine.memory memory) :
    Sound locked { arena with machine := { arena.machine with memory } } := by
  refine sound.write memory edited.live fun base changed found => ?_
  by_cases member : base ∈ bases
  · obtain ⟨block, other, old, new, beside⟩ := edited.edited base member
    rw [found] at new
    cases new
    rw [beside.hosted]
    exact sound.machine.hosted base block old
  · exact sound.machine.hosted base changed ((edited.other base member).symm.trans found)

theorem read (sound : Sound locked before) (sound' : Sound more after) (extent : Extent)
    (member : extent ∈ locked ++ before.env.held.map (Holding.extent before.pageSize))
    (same : after.machine.memory.find? extent.1 = before.machine.memory.find? extent.1) {count : Nat}
    (inside : Extent.Within (addr, count) extent) :
    after.machine.memory.read addr count = before.machine.memory.read addr count := by
  obtain ⟨block, found, len⟩ := sound.find member
  unfold Extent.Within at inside
  exact Memory.read_congr sound.machine.spread sound'.machine.spread found (same.trans found) inside.1
    (by rw [len]; exact inside.2) inside.1 (by rw [len]; exact inside.2) fun _ _ => rfl

theorem copy (sound : Sound locked arena) (origin goal : Extent) (source target count : Nat)
    (from_origin : origin ∈ locked ++ arena.env.held.map (Holding.extent arena.pageSize))
    (to_goal : goal ∈ locked ++ arena.env.held.map (Holding.extent arena.pageSize))
    (inside : Extent.Within (source, count) origin) (inside' : Extent.Within (target, count) goal)
    (reach : target < goal.1 + goal.2) :
    Memory.Edited [goal.1] (target - goal.1) (target - goal.1 + count) arena.machine.memory
        (arena.machine.memory.copy source target count) ∧
      (arena.machine.memory.copy source target count).read target count =
        arena.machine.memory.read source count := by
  obtain ⟨block, there, len⟩ := sound.find from_origin
  obtain ⟨block', here, len'⟩ := sound.find to_goal
  unfold Extent.Within at inside inside'
  have length := Memory.length_read sound.machine.spread there inside.1 (by rw [len]; exact inside.2)
  have edited := Memory.edited_write sound.machine.spread here inside'.1 (by rw [len']; exact reach)
    (arena.machine.memory.read source count)
  have written := Memory.read_write sound.machine.spread here inside'.1
    (arena.machine.memory.read source count) (by rw [length, len']; exact inside'.2)
  rw [length] at edited written
  exact ⟨edited, written⟩

/-- Blocks that are accounted for twice would share their bytes. -/
theorem apart (more : List Extent) (sound : Sound (more ++ locked) arena) {first second : Extent}
    (front : first ∈ more) (back : second ∈ locked ++ arena.env.held.map (Holding.extent arena.pageSize)) :
    second.1 ≠ first.1 := by
  have bases := sound.spread.nodup
  rw [List.append_assoc, List.map_append] at bases
  intro same
  exact List.disjoint_of_nodup_append bases (List.mem_map_of_mem front) (List.mem_map.mpr ⟨second, back, same⟩)

theorem apart_head (sound : Sound ((addr, size) :: locked) arena) {extent : Extent}
    (member : extent ∈ locked ++ arena.env.held.map (Holding.extent arena.pageSize)) : extent.1 ≠ addr :=
  sound.apart [(addr, size)] List.mem_cons_self member

theorem short_head (sound : Sound ((addr, size) :: locked) arena) : size ≤ Size.longest :=
  (sound.proper (List.mem_append_left _ List.mem_cons_self)).2.2

theorem note (sound : Sound locked arena) (event : Event) (still : event.Still)
    (lawful : event.Lawful arena.pageSize arena.machine.memory.live) :
    Sound locked { arena with machine := { arena.machine with journal := arena.machine.journal.note event } } :=
  { sound with machine := sound.machine.note event still lawful }

theorem say (sound : Sound locked arena) (message : Message) :
    Sound locked { arena with machine := { arena.machine with journal := arena.machine.journal.say message } } :=
  { sound with machine := sound.machine.say message }

theorem hook (sound : Sound locked arena) (hook : Option (Hook (Books ω)))
    (audited : ∀ installed, hook = some installed →
      ∃ programs, installed.programs = Program.auditedAll arena.pageSize programs) :
    Sound locked { arena with hook } :=
  { sound with audited }

theorem unhook (sound : Sound locked arena) : Sound locked { arena with hook := none } :=
  sound.hook none nofun

theorem onMachine (sound : Sound locked arena) {machine : Machine σ}
    (kept : machine.Sound arena.pageSize arena.stats.peakMappedBytes)
    (same : machine.memory.live.Perm arena.machine.memory.live) : Sound locked { arena with machine } where
  power := sound.power
  machine := kept
  live := same.trans sound.live
  liveBlocks := sound.liveBlocks.trans same.symm.length_eq
  mappedBytes := sound.mappedBytes.trans (Extent.total_perm same.symm)
  issued := sound.issued
  audited := sound.audited

/-- The counters before and after a block comes, given those of the blocks that stay. -/
private theorem recordMapped_spec (stats : ArenaStats) {machine : Machine σ} {base len : Nat} {rest : List Extent}
    (power : Size.isPowerOfTwo arena.pageSize = true)
    (kept : machine.Sound arena.pageSize (max stats.peakMappedBytes (Extent.total machine.memory.live)))
    (live : machine.memory.live.Perm ((base, len) :: rest))
    (liveBlocks : stats.liveBlocks = rest.length) (mappedBytes : stats.mappedBytes = Extent.total rest)
    (accounted : rest.Perm (locked ++ arena.env.held.map (Holding.extent arena.pageSize)))
    (issued : ∀ block ∈ arena.env.held, block.ticket < arena.env.tickets)
    (audited : ∀ hook, arena.hook = some hook → ∃ programs,
      hook.programs = Program.auditedAll arena.pageSize programs) :
    (recordMapped len).Ends { arena with machine, stats } fun _ after =>
      ∃ stats', stats'.hookInvocations = stats.hookInvocations ∧ after = { arena with machine, stats := stats' } ∧
        Sound ((base, len) :: locked) after := by
  have more := live.length_eq
  have total := Extent.total_perm live
  have few := kept.spread.length_lt
  have small : Extent.total machine.memory.live < Size.bound := kept.spread.sum_lt
  rw [List.length_cons] at more
  rw [Extent.total_cons] at total
  have blocks : Size.add stats.liveBlocks 1 = .ok machine.memory.live.length := by
    rw [liveBlocks, Size.add_ok (by omega), more]
  have bytes : Size.add stats.mappedBytes len = .ok (Extent.total machine.memory.live) := by
    rw [mappedBytes, Size.add_ok (by omega), total, Nat.add_comm]
  simp only [recordMapped, setStats, Run.meets_bind, Run.meets_get, Run.meets_lift blocks, Run.meets_lift bytes,
    Run.meets_modify]
  refine ⟨_, ?_, rfl, ?_⟩
  · rfl
  · exact {
      power
      machine := kept
      live := live.trans (accounted.cons (base, len))
      liveBlocks := rfl
      mappedBytes := rfl
      issued
      audited }

theorem request_spec (sound : Sound locked arena) (size : Nat) :
    (request size).Ends arena fun granted after => Quiet arena after ∧ Steady locked arena after ∧
      match granted with
      | some base => Sound ((base, pageBytes arena.pageSize size) :: locked) after
      | none => Sound locked after := by
  simp only [request, Run.meets_bind, Run.meets_get, Run.meets_lift (blockLen_eq sound.power size)]
  by_cases short : pageBytes arena.pageSize size ≤ Size.longest
  case neg =>
    simp only [if_neg short, Run.meets_pure]
    exact ⟨.refl arena, .refl locked arena, sound⟩
  simp only [if_pos short, Arena.onMachine, Run.meets_bind, Run.meets_focus]
  refine (sound.machine.request_spec (proper_pageBytes sound.power short)).imp fun granted machine granted' => ?_
  cases granted with
  | none =>
    obtain ⟨kept, same⟩ := granted'
    simp only [Run.meets_pure]
    exact ⟨⟨rfl, rfl, rfl⟩, .of_memory rfl rfl same, sound.onMachine kept (by rw [same])⟩
  | some base =>
    obtain ⟨kept, mapped, absent⟩ := granted'
    have live : machine.memory.live.Perm
        ((base, pageBytes arena.pageSize size) :: arena.machine.memory.live) := by
      rw [mapped]
      exact Memory.live_map _ _ absent
    have others : ∀ other, other ≠ base → machine.memory.find? other = arena.machine.memory.find? other := by
      intro other different
      rw [mapped, Memory.find?_map, if_neg (Ne.symm different)]
    simp only [Run.meets_bind]
    refine (recordMapped_spec arena.stats sound.power kept live sound.liveBlocks sound.mappedBytes
      sound.live sound.issued sound.audited).imp ?_
    rintro _ after ⟨stats, invocations, eq, sound'⟩
    simp only [Run.meets_pure]
    subst eq
    refine ⟨⟨rfl, rfl, invocations⟩, .of_apart (· = base) rfl rfl (fun extent member same => ?_) others, sound'⟩
    obtain ⟨block, found, -⟩ := sound.find member
    rw [same, absent] at found
    cases found

theorem release_spec (sound : Sound ((addr, pageBytes arena.pageSize size) :: locked) arena) :
    (release size addr).Ends arena fun _ after => Returned [(addr, pageBytes arena.pageSize size)] arena after ∧
      Steady locked arena after ∧ Sound locked after := by
  have member : (addr, pageBytes arena.pageSize size) ∈ (addr, pageBytes arena.pageSize size) :: locked ++
      arena.env.held.map (Holding.extent arena.pageSize) := by simp
  obtain ⟨block, found, len⟩ := sound.find member
  have short : pageBytes arena.pageSize size ≤ Size.longest := (sound.proper member).2.2
  simp only [release, Run.meets_bind, Run.meets_get, Run.meets_lift (blockLen_eq sound.power size), if_pos short,
    Arena.onMachine, Run.meets_focus]
  have back := sound.machine.giveBack_spec found
  rw [len] at back
  refine back.imp ?_
  rintro _ machine ⟨kept, unmapped, noted⟩
  have live := Memory.live_unmap found
  rw [len] at live
  have rest := (live.symm.trans sound.live).cons_inv
  have count := live.length_eq
  have total := Extent.total_perm live
  rw [List.length_cons] at count
  rw [Extent.total_cons] at total
  have blocks : Size.sub arena.stats.liveBlocks 1 = .ok machine.memory.live.length := by
    rw [sound.liveBlocks, Size.sub_ok (by omega), unmapped, count, Nat.add_sub_cancel]
  have bytes : Size.sub arena.stats.mappedBytes (pageBytes arena.pageSize size) =
      .ok (Extent.total machine.memory.live) := by
    rw [sound.mappedBytes, Size.sub_ok (by omega), unmapped, total, Nat.add_sub_cancel_left]
  simp only [recordUnmapped, setStats, Run.meets_bind, Run.meets_get, Run.meets_lift blocks, Run.meets_lift bytes,
    Run.meets_modify]
  refine ⟨⟨⟨rfl, rfl, rfl⟩, ?_⟩, .of_apart (· = addr) rfl rfl (fun extent => sound.apart_head)
    fun other different => ?_, ?_⟩
  · rw [noted, Journal.events_note, List.map_singleton]
  · simp only [unmapped, Memory.find?_unmap, if_neg (Ne.symm different)]
  · exact {
      power := sound.power
      machine := kept
      live := by rw [unmapped]; exact rest
      liveBlocks := rfl
      mappedBytes := rfl
      issued := sound.issued
      audited := sound.audited }

theorem protect_spec (sound : Sound locked arena) (mode : Protection)
    (member : (addr, pageBytes arena.pageSize size) ∈
      locked ++ arena.env.held.map (Holding.extent arena.pageSize)) :
    (protect size addr mode).Ends arena fun _ after => Quiet arena after ∧ after.pageSize = arena.pageSize ∧
      Sound locked after ∧ Memory.Edited [addr] 0 0 arena.machine.memory after.machine.memory := by
  obtain ⟨block, found, len⟩ := sound.find member
  have short : pageBytes arena.pageSize size ≤ Size.longest := (sound.proper member).2.2
  have called := sound.machine.protect_spec found mode
  rw [len] at called
  simp only [protect, Run.meets_bind, Run.meets_get, Run.meets_lift (blockLen_eq sound.power size), if_pos short,
    Arena.onMachine, Run.meets_focus]
  refine called.imp ?_
  rintro changed machine ⟨kept, memory⟩
  have edited : Memory.Edited [addr] 0 0 arena.machine.memory machine.memory := by
    rcases memory with same | set
    · rw [same]
      exact .refl (fun base inside => ⟨block, by rw [List.mem_singleton.mp inside]; exact found⟩) 0 0
    · rw [set]
      exact .update found ⟨rfl, rfl, fun _ _ => rfl⟩
  have sound' : Sound locked { arena with machine } := sound.onMachine kept edited.live
  cases changed with
  | true =>
    simp only [Bool.not_true, Bool.false_eq_true, if_false, Run.meets_pure]
    exact ⟨⟨rfl, rfl, rfl⟩, trivial, sound', edited⟩
  | false =>
    simp only [Bool.not_false, if_true, Arena.say, Arena.onMachine, Run.meets_focus, Run.meets_modify]
    exact ⟨⟨rfl, rfl, rfl⟩, trivial, sound'.say _, edited⟩

/-- The counters when the host has moved a block to another length. -/
theorem record_spec (sound : Sound ((addr, oldLen) :: locked) arena) {machine : Machine σ} {rest : List Extent}
    (kept : machine.Sound arena.pageSize (max arena.stats.peakMappedBytes (Extent.total machine.memory.live)))
    (before : arena.machine.memory.live.Perm ((addr, oldLen) :: rest))
    (after : machine.memory.live.Perm ((target, newLen) :: rest)) :
    (recordUnmapped oldLen).Ends { arena with machine } fun _ middle =>
      (recordMapped newLen).Ends middle fun _ after =>
        ∃ stats, stats.hookInvocations = arena.stats.hookInvocations ∧ after = { arena with machine, stats } ∧
          Sound ((target, newLen) :: locked) after := by
  have count := before.length_eq
  have total := Extent.total_perm before
  rw [List.length_cons] at count
  rw [Extent.total_cons] at total
  have blocks : Size.sub arena.stats.liveBlocks 1 = .ok rest.length := by
    rw [sound.liveBlocks, count, Size.sub_ok (by omega), Nat.add_sub_cancel]
  have bytes : Size.sub arena.stats.mappedBytes oldLen = .ok (Extent.total rest) := by
    rw [sound.mappedBytes, total, Size.sub_ok (by omega), Nat.add_sub_cancel_left]
  simp only [recordUnmapped, setStats, Run.meets_bind, Run.meets_get, Run.meets_lift blocks, Run.meets_lift bytes,
    Run.meets_modify]
  exact recordMapped_spec { arena.stats with liveBlocks := rest.length, mappedBytes := Extent.total rest }
    sound.power kept after rfl rfl (before.symm.trans sound.live).cons_inv sound.issued sound.audited

end Sound
end Arena
end SlabAllocator
