import SlabAllocator.Proofs.Compaction

/-! Two runs side by side in memories that differ in one block. As long as nothing looks into that
block, both come to the same end, and their memories still differ in nothing else. -/

namespace SlabAllocator

/-- Both runs end with the same result, in states that are related. -/
def Run.Mirrors (related : σ → τ → Prop) (run : Run σ α) (other : Run τ α) (first : σ) (second : τ) : Prop :=
  run.Ends first fun a after => other.Ends second fun b later => b = a ∧ related after later

theorem Run.Mirrors.bind {related : σ → τ → Prop} {further : σ → τ → Prop} {run : Run σ α} {other : Run τ α}
    {next : α → Run σ β} {next' : α → Run τ β} {first : σ} {second : τ} {post : α → σ → Prop}
    {stop : Fault → σ → Prop} (head : run.Mirrors related other first second) (spec : run.Meets first post stop)
    (tail : ∀ a after later, post a after → related after later →
      (next a).Mirrors further (next' a) after later) :
    (run >>= next).Mirrors further (other >>= next') first second := by
  obtain ⟨a, after, ran, inner⟩ := head.exists_ok
  obtain ⟨_, later, ran', rfl, kin⟩ := inner.exists_ok
  have rest := tail _ after later (spec.of_ok ran) kin
  simp only [Run.Mirrors, Run.Ends, Run.meets_bind]
  exact .ended ran (rest.imp fun _ _ same => .ended ran' same)

theorem Run.Mirrors.congr {related : σ → τ → Prop} {run run' : Run σ α} {other other' : Run τ α}
    {first first' : σ} {second second' : τ} (mirrors : run'.Mirrors related other' first' second')
    (same : run first = run' first') (same' : other second = other' second') :
    run.Mirrors related other first second := by
  rw [Run.Mirrors, Run.Ends, Run.meets_congr same]
  refine mirrors.imp fun a after inner => ?_
  rwa [Run.Ends, Run.meets_congr same']

theorem Run.Mirrors.pure {related : σ → τ → Prop} {first : σ} {second : τ} (kin : related first second) (a : α) :
    (Pure.pure a : Run σ α).Mirrors related (Pure.pure a) first second := by
  simp only [Run.Mirrors, Run.Ends, Run.meets_pure]
  exact ⟨trivial, kin⟩

namespace Memory

/-- Two memories that agree everywhere but in one block, and what that block is in each. -/
structure Twins (base : Addr) (block other : Block) (first second : Memory) : Prop where
  here : first.find? base = some block
  there : second.find? base = some other
  elsewhere : ∀ target, target ≠ base → second.find? target = first.find? target

namespace Twins

variable {base target : Addr} {block other : Block} {first second : Memory}

theorem block_eq (twins : Twins base block other first second) (away : target ≠ base) :
    second.block target = first.block target :=
  block_congr (twins.elsewhere target away)

theorem update (twins : Twins base block other first second) (away : target ≠ base) (change : Block → Block) :
    Twins base block other (first.update target change) (second.update target change) := by
  refine ⟨(find?_update_of_ne change away).trans twins.here,
    (find?_update_of_ne change away).trans twins.there, ?_⟩
  intro address apart
  rw [find?_update, find?_update, twins.elsewhere target away, twins.elsewhere address apart]

theorem unmap (twins : Twins base block other first second) (away : target ≠ base) :
    Twins base block other (first.unmap target) (second.unmap target) := by
  refine ⟨?_, ?_, fun address apart => ?_⟩
  · rw [find?_unmap, if_neg away, twins.here]
  · rw [find?_unmap, if_neg away, twins.there]
  · rw [find?_unmap, find?_unmap, twins.elsewhere address apart]

end Twins
end Memory

namespace Chain

variable {chain : Chain} {base node : Addr} {block other : Block} {first second : Memory}
  {left right nodes : List Addr}

private theorem relink_twins (twins : Memory.Twins base block other first second) {neighbour : Option Addr}
    (away : ∀ node ∈ neighbour, node ≠ base) (change : Block → Block) :
    Memory.Twins base block other (Lists.relink first neighbour change)
      (Lists.relink second neighbour change) := by
  cases neighbour with
  | none => exact twins
  | some node => exact twins.update (away node rfl) change

theorem Lists.remove_twins (lists : chain.Lists first (left ++ node :: right))
    (twins : Memory.Twins base block other first second) (foreign : base ∉ left ++ node :: right) {chain' : Chain}
    {changed : Memory} (removed : chain.remove first node = .ok (chain', changed)) :
    ∃ changed', chain.remove second node = .ok (chain', changed') ∧
      Memory.Twins base block other changed changed' := by
  have away : ∀ target ∈ left ++ node :: right, target ≠ base := fun target member same => foreign (same ▸ member)
  obtain ⟨prev, next⟩ := lists.segment.links
  rw [Option.or_none] at prev next
  have same : second.block node = first.block node := twins.block_eq (away node (by simp))
  have removal := Lists.remove_eq chain first node prev next
  have removal' := Lists.remove_eq chain second node (same ▸ prev) (same ▸ next)
  rw [removed] at removal
  cases counted : Size.sub chain.length 1 with
  | error fault =>
    rw [counted] at removal
    cases removal
  | ok length =>
    rw [counted] at removal removal'
    cases removal
    refine ⟨_, removal', relink_twins (relink_twins twins ?_ _) ?_ _⟩
    · intro target member
      exact away target (List.mem_append_left _ (List.mem_of_getLast? member))
    · intro target member
      exact away target (List.mem_append_right _ (List.mem_cons_of_mem _ (List.mem_of_head? member)))

theorem Lists.nodes_twins (lists : chain.Lists first nodes) (twins : Memory.Twins base block other first second)
    (foreign : base ∉ nodes) : chain.nodes second = .ok nodes :=
  (lists.congr fun node member => twins.elsewhere node fun same => foreign (same ▸ member)).nodes_ok

end Chain

namespace Arena

def withMemory (memory : Memory) (arena : Arena σ ω) : Arena σ ω :=
  { arena with machine := { arena.machine with memory } }

def Twins (base : Addr) (block other : Block) (first second : Arena σ ω) : Prop :=
  ∃ memory, second = first.withMemory memory ∧ Memory.Twins base block other first.machine.memory memory

variable [Host σ] [LawfulHost σ] {arena second : Arena σ (Books ω)} {locked : List Extent} {base addr size : Addr}
  {block other : Block}

omit [Host σ] [LawfulHost σ] in
theorem twins_withMemory {memory changed : Memory} (twins : Memory.Twins base block other memory changed) :
    Twins base block other (arena.withMemory memory) (arena.withMemory changed) :=
  ⟨changed, rfl, twins⟩

omit [LawfulHost σ] in
/-- Of the memory a release looks at nothing but the block that goes back. -/
private theorem release_ends (arena : Arena σ (Books ω)) {len blocks bytes : Nat} {host : σ}
    (measured : arena.blockLen size = .ok (some len)) (hosts : arena.machine.memory.hosts addr len = true)
    (ran : Host.giveBack addr len arena.machine.host = .ok () host)
    (counted : Size.sub arena.stats.liveBlocks 1 = .ok blocks)
    (summed : Size.sub arena.stats.mappedBytes len = .ok bytes) :
    (release size addr).Ends arena fun _ after => after = { arena with
      machine := ⟨host, arena.machine.memory.unmap addr, arena.machine.journal.note (.giveBack addr len true)⟩
      stats := { arena.stats with liveBlocks := blocks, mappedBytes := bytes } } := by
  simp only [release, Machine.giveBack, Machine.onHost, Machine.setMemory, Machine.note, recordUnmapped, setStats,
    Arena.onMachine, Run.meets_bind, Run.meets_get, Run.meets_lift measured, Run.meets_focus, hosts, if_true,
    Run.meets_modify]
  refine .ended ran ?_
  simp only [Run.meets_lift counted, Run.meets_lift summed]

/-- The block that goes back is the same in both, so the host is asked the same. -/
theorem Sound.release_mirrors (sound : Sound ((addr, pageBytes arena.pageSize size) :: locked) arena)
    (twins : Twins base block other arena second) (away : addr ≠ base) :
    (release size addr).Mirrors (Twins base block other) (release size addr) arena second := by
  obtain ⟨memory, rfl, twins⟩ := twins
  have member : (addr, pageBytes arena.pageSize size) ∈ (addr, pageBytes arena.pageSize size) :: locked ++
      arena.env.held.map (Holding.extent arena.pageSize) := by simp
  obtain ⟨gone, found, len⟩ := sound.find member
  have measured : arena.blockLen size = .ok (some (pageBytes arena.pageSize size)) := by
    rw [blockLen_eq sound.power, if_pos sound.short_head]
  have hosts := Machine.Sound.hosts_eq found (sound.machine.hosted addr gone found)
  rw [len] at hosts
  have hosts' : memory.hosts addr (pageBytes arena.pageSize size) = true := by
    rw [Memory.hosts, twins.block_eq away]
    exact hosts
  have live := Memory.live_unmap found
  rw [len] at live
  obtain ⟨⟨⟩, host, ran, -⟩ := (LawfulHost.giveBack (LawfulHost.perm sound.machine.holds live)
    (sound.machine.spread.perm live)).exists_ok
  have count := live.length_eq
  have total := Extent.total_perm live
  rw [List.length_cons] at count
  rw [Extent.total_cons] at total
  have counted : Size.sub arena.stats.liveBlocks 1 = .ok (arena.stats.liveBlocks - 1) := by
    rw [sound.liveBlocks, Size.sub_ok (by omega)]
  have summed : Size.sub arena.stats.mappedBytes (pageBytes arena.pageSize size) =
      .ok (arena.stats.mappedBytes - pageBytes arena.pageSize size) := by
    rw [sound.mappedBytes, Size.sub_ok (by omega)]
  have released := release_ends (arena.withMemory memory) measured hosts' ran counted summed
  refine (release_ends arena measured hosts ran counted summed).imp ?_
  rintro _ after rfl
  refine released.imp ?_
  rintro _ later rfl
  exact ⟨rfl, _, rfl, twins.unmap away⟩

end Arena

namespace Pool

def Twins (base : Addr) (block other : Block) (first second : Pool × Arena σ ω) : Prop :=
  ∃ memory, second = (first.1, first.2.withMemory memory) ∧
    Memory.Twins base block other first.2.machine.memory memory

variable [Host σ] [LawfulHost σ] {pool : Pool} {arena second : Arena σ (Books ω)} {locked : List Extent}
  {base frame addr : Addr}
  {block other : Block}

/-- No frame is told from its neighbours by a block that is not in the chain. -/
theorem Sound.dropFrame_mirrors (sound : Sound locked pool arena) (member : frame ∈ pool.owners)
    (foreign : base ∉ pool.owners) (twins : Arena.Twins base block other arena second) :
    (dropFrame frame).Mirrors (Twins base block other) (dropFrame frame) (pool, arena) (pool, second) := by
  obtain ⟨memory, rfl, twins⟩ := twins
  obtain ⟨chain, changed, removed, -, -, edited⟩ := sound.valid.unlink member
  obtain ⟨nodes, lists, order⟩ := sound.valid.lists
  obtain ⟨left, right, rfl⟩ := List.append_of_mem (order.mem_iff.mpr member)
  obtain ⟨changed', removed', twins'⟩ :=
    lists.remove_twins twins (fun inside => foreign (order.mem_iff.mp inside)) removed
  have split : (pool.extents arena.pageSize ++ locked).Perm ((frame, pageBytes arena.pageSize pool.frameLen) ::
      (extents arena.pageSize { pool with frames := chain, owners := pool.owners.erase frame } ++ locked)) :=
    ((List.perm_cons_erase member).map fun base =>
      (base, pageBytes arena.pageSize pool.frameLen)).append_right locked
  have accounts : Arena.Sound _ (arena.withMemory changed) := (sound.accounts.edit edited).perm split
  have released := accounts.release_mirrors (Arena.twins_withMemory twins') fun same => foreign (same ▸ member)
  simp only [Run.Mirrors, dropFrame, setFrames, put, onArena, Arena.memory, Arena.setMemory, Machine.setMemory,
    Arena.say, Arena.onMachine, Run.meets_bind, Run.meets_get, Run.meets_focus, Run.meets_pure,
    Run.meets_lift removed, Run.meets_modify]
  refine released.imp fun _ after inner => ?_
  have removed'' : pool.frames.remove (arena.withMemory memory).machine.memory frame = .ok (chain, changed') :=
    removed'
  rw [Run.meets_lift removed'']
  refine inner.imp ?_
  rintro _ later ⟨-, memory', rfl, twins''⟩
  exact ⟨trivial, memory', rfl, twins''⟩

omit [LawfulHost σ] in
private theorem dropWhileMany_le : ∀ (frames : List Addr) (state : Pool × Arena σ (Books ω)),
    (dropWhileMany frames).Meets state (fun count _ => count ≤ frames.length) fun _ _ => True
  | [], state => by
    rw [dropWhileMany, Run.meets_pure]
    exact Nat.le_refl 0
  | frame :: rest, state => by
    simp only [dropWhileMany, Run.meets_bind, Run.meets_get]
    split
    · rw [Run.meets_pure]
      exact Nat.zero_le _
    simp only [Run.meets_bind]
    refine .any fun _ middle => (dropWhileMany_le rest middle).imp fun count after few => ?_
    refine Run.meets_lift_any fun total added => ?_
    rw [(Size.add_eq_ok.mp added).2]
    exact Nat.succ_le_succ few

private theorem Sound.dropWhileMany_mirrors :
    ∀ (frames : List Addr) {pool : Pool} {arena second : Arena σ (Books ω)},
    Sound locked pool arena → frames.Nodup → frames.length < Size.bound →
    (∀ frame ∈ frames, frame ∈ pool.owners) →
    base ∉ pool.owners → Arena.Twins base block other arena second →
    (dropWhileMany frames).Mirrors (Twins base block other) (dropWhileMany frames) (pool, arena) (pool, second)
  | [], pool, arena, second, _, _, _, _, _, twins => by
    obtain ⟨memory, rfl, twins⟩ := twins
    rw [dropWhileMany]
    exact .pure ⟨memory, rfl, twins⟩ 0
  | frame :: rest, pool, arena, second, sound, nodup, small, owned, foreign, twins => by
    obtain ⟨fresh, nodup⟩ := List.nodup_cons.mp nodup
    have member := owned frame List.mem_cons_self
    rw [dropWhileMany]
    refine .congr ?_ (Run.get_bind _) (Run.get_bind _)
    by_cases last : pool.frameCount = 1
    · obtain ⟨memory, rfl, twins⟩ := twins
      simp only [if_pos last]
      exact .pure ⟨memory, rfl, twins⟩ 0
    simp only [if_neg last]
    refine .bind (sound.dropFrame_mirrors member foreign twins) (sound.dropFrame_spec member) ?_
    rintro _ middle _ ⟨sound', -, dropped, -⟩ ⟨memory, rfl, twins'⟩
    have owners : middle.1.owners = pool.owners.erase frame := dropped.owners
    have kept : ∀ other ∈ rest, other ∈ middle.1.owners := by
      intro other inside
      rw [owners]
      exact sound.valid.nodup.mem_erase_iff.mpr
        ⟨fun same => fresh (same ▸ inside), owned other (List.mem_cons_of_mem _ inside)⟩
    have foreign' : base ∉ middle.1.owners := by
      rw [owners]
      exact fun inside => foreign (List.mem_of_mem_erase inside)
    rw [List.length_cons] at small
    have onward := dropWhileMany_mirrors rest sound' nodup (by omega) kept foreign' ⟨memory, rfl, twins'⟩
    refine .bind onward (dropWhileMany_le rest _) ?_
    intro count after later few kin
    have added : Size.add count 1 = .ok (count + 1) := Size.add_ok (by omega)
    simp only [Run.Mirrors, Run.Ends, Run.meets_lift added]
    exact ⟨trivial, kin⟩

/-- What is left to do of a compaction when the frames have gone. -/
private def tell (released : Nat) : Action σ (Books ω) Nat := do
  let pool := (← get).1
  if 0 < released then onArena (Arena.say (.compacted pool.entitySize released pool.frameCount))
  return released

omit [LawfulHost σ] in
private theorem compact_eq (arena : Arena σ (Books ω)) {nodes : List Addr}
    (listed : pool.frames.nodes arena.machine.memory = .ok nodes) :
    compact (pool, arena) = (dropWhileMany
      (nodes.filter fun frame => Frame.isEmpty (arena.machine.memory.block frame)).reverse >>= tell)
    (pool, arena) := by
  apply Run.eq_of_meets
  intro post stop
  simp only [compact, tell, onArena, Arena.memory, Run.meets_bind, Run.meets_get, Run.meets_focus, Run.meets_pure,
    Run.meets_lift listed]

/-- The frames that are empty are so in both. -/
theorem Sound.compact_mirrors (sound : Sound locked pool arena) (foreign : base ∉ pool.owners)
    (twins : Arena.Twins base block other arena second) :
    compact.Mirrors (Twins base block other) compact (pool, arena) (pool, second) := by
  obtain ⟨nodes, lists, order⟩ := sound.valid.lists
  obtain ⟨memory, rfl, same⟩ := twins
  have away : ∀ node ∈ nodes, node ≠ base := fun node member same => foreign (same ▸ order.mem_iff.mp member)
  have listed : pool.frames.nodes (arena.withMemory memory).machine.memory = .ok nodes :=
    lists.nodes_twins same fun inside => away base inside rfl
  have empty : nodes.filter (fun frame => Frame.isEmpty (memory.block frame)) =
      nodes.filter fun frame => Frame.isEmpty (arena.machine.memory.block frame) :=
    List.filter_congr fun node member => by rw [same.block_eq (away node member)]
  have other_eq := compact_eq (arena.withMemory memory) listed
  rw [show (arena.withMemory memory).machine.memory = memory from rfl, empty] at other_eq
  have small := sound.length_owners_lt
  have few := List.length_filter_le (fun frame => Frame.isEmpty (arena.machine.memory.block frame)) nodes
  have length := order.length_eq
  refine .congr
    (.bind (sound.dropWhileMany_mirrors _ (List.nodup_reverse.mpr (lists.nodup.filter _)) ?_ ?_ foreign
    ⟨memory, rfl, same⟩) (.any fun _ _ => trivial) ?_) (compact_eq arena lists.nodes_ok) other_eq
  · rw [List.length_reverse]
    omega
  · intro frame member
    exact order.mem_iff.mp (List.mem_of_mem_filter (List.mem_reverse.mp member))
  · rintro count after _ - ⟨memory', rfl, same'⟩
    simp only [Run.Mirrors, Run.Ends, tell, onArena, Arena.say, Arena.onMachine, Run.meets_bind, Run.meets_get]
    split
    · simp only [Run.meets_bind, Run.meets_focus, Run.meets_modify, Run.meets_pure]
      exact ⟨trivial, memory', rfl, same'⟩
    · simp only [Run.meets_pure]
      exact ⟨trivial, memory', rfl, same'⟩

private theorem Sound.countRelease_mirrors (sound : Sound locked pool arena) (foreign : base ∉ pool.owners)
    (twins : Arena.Twins base block other arena second) :
    countRelease.Mirrors (Twins base block other) countRelease (pool, arena) (pool, second) := by
  obtain ⟨memory, rfl, same⟩ := twins
  obtain ⟨due, word⟩ := sound.valid.cadence
  have counted : Size.add pool.releases 1 = .ok (pool.releases + 1) := Size.add_ok (by omega)
  simp only [Run.Mirrors, Run.Ends, countRelease, put, Run.meets_bind, Run.meets_get, Run.meets_lift counted]
  split
  · have reset : Sound locked { pool with releases := 0 } arena :=
      ⟨sound.accounts, { sound.valid with cadence := ⟨Nat.zero_lt_of_lt due, word⟩ }⟩
    simp only [Run.meets_bind, Run.meets_modify]
    refine (reset.compact_mirrors foreign ⟨memory, rfl, same⟩).imp fun _ after inner => ?_
    rw [Run.meets_pure]
    refine inner.imp fun _ later kin => ?_
    rw [Run.meets_pure]
    exact ⟨trivial, kin.2⟩
  · simp only [Run.meets_modify]
    exact ⟨trivial, memory, rfl, same⟩

omit [LawfulHost σ] in
/-- Of the memory the first part of a release looks at nothing but the frame of the slot. -/
private theorem release_vacates {offset : Nat} {changed : Block} (owner : pool.owner? addr = some frame)
    (inside : Size.sub addr frame = .ok offset)
    (given : Frame.giveBack pool.geometry (arena.machine.memory.block frame) offset = .ok changed) :
    release addr (pool, arena) = countRelease
      (pool, arena.withMemory (arena.machine.memory.update frame fun _ => changed)) := by
  apply Run.eq_of_meets
  intro post stop
  simp only [release, countRelease, onArena, Arena.memory, Arena.setMemory, Machine.setMemory, Arena.onMachine,
    owner, Run.meets_bind, Run.meets_get, Run.meets_focus, Run.meets_pure, Run.meets_modify,
    Run.meets_lift inside,
    Run.meets_lift given, Arena.withMemory]

theorem Sound.release_mirrors (sound : Sound locked pool arena) (taken : addr ∈ pool.live arena.machine.memory)
    (foreign : base ∉ pool.owners) (twins : Arena.Twins base block other arena second) :
    (release addr).Mirrors (Twins base block other) (release addr) (pool, arena) (pool, second) := by
  obtain ⟨memory, rfl, same⟩ := twins
  obtain ⟨frame, member, index, used, rfl⟩ := mem_live.mp taken
  obtain ⟨block', found, valid⟩ := sound.valid.frames frame member
  have away : frame ≠ base := fun here => foreign (here ▸ member)
  have here : arena.machine.memory.block frame = block' := Memory.block_eq found
  have there : (arena.withMemory memory).machine.memory.block frame = block' := (same.block_eq away).trans here
  rw [here] at used
  obtain ⟨changed, given, valid', -, beside⟩ := Frame.giveBack_ok sound.valid.geometry valid used
  have owner := sound.valid.owner?_eq sound.spread member (Frame.mem_taken.mp used).1
  have inside : Size.sub (frame + pool.geometry.start index) frame = .ok (pool.geometry.start index) := by
    rw [Size.sub_ok (Nat.le_add_right ..), Nat.add_sub_cancel_left]
  have marked : Sound locked pool (arena.withMemory (arena.machine.memory.update frame fun _ => changed)) :=
    (sound.mark member found valid' beside).1
  refine (marked.countRelease_mirrors foreign (Arena.twins_withMemory (same.update away _))).congr ?_ ?_
  · exact release_vacates owner inside (here ▸ given)
  · exact release_vacates owner inside (there ▸ given)

end Pool
end SlabAllocator
