import SlabAllocator.Proofs.Resizing
import SlabAllocator.Proofs.Routing
import SlabAllocator.Proofs.Twins

/-! Sizes of one class. Whatever a client does with a block under another size of its class comes to what it would
have come to under the size that the block was obtained with, but for how many bytes a move copies. -/

namespace SlabAllocator

theorem pageBytes_eq {pageSize size : Nat} (positive : 0 < size) :
    pageBytes pageSize size = size ⌈/⌉ pageSize * pageSize := by
  rw [pageBytes, Nat.max_eq_left positive, Nat.ceilDiv_eq_add_pred_div]

namespace Arena

variable [Host σ] {arena : Arena σ ω} {size other : Nat}

theorem release_congr (same : arena.blockLen other = arena.blockLen size) (addr : Addr) :
    release other addr arena = release size addr arena := by
  apply Run.eq_of_meets
  intro post stop
  simp only [release, Run.meets_bind, Run.meets_get, same]

theorem protect_congr (same : arena.blockLen other = arena.blockLen size) (addr : Addr) (mode : Protection) :
    protect other addr mode arena = protect size addr mode arena := by
  apply Run.eq_of_meets
  intro post stop
  simp only [protect, Run.meets_bind, Run.meets_get, same]

theorem resizeInPlace_congr (same : arena.blockLen other = arena.blockLen size) (addr : Addr) (newSize : Nat) :
    resizeInPlace other addr newSize arena = resizeInPlace size addr newSize arena := by
  apply Run.eq_of_meets
  intro post stop
  simp only [resizeInPlace, Run.meets_bind, Run.meets_get, same]

end Arena

namespace Allocator

/-- The arena and the allocator count the pages of a block in one way. -/
structure Measured (allocator : Allocator σ ω) : Prop where
  pages : ∀ size, allocator.policy.cutoff ≤ size →
    allocator.sizeClass size = .ok (.arena (size ⌈/⌉ allocator.arena.pageSize)) ∧
      allocator.arena.blockLen size =
        .ok (if size ⌈/⌉ allocator.arena.pageSize * allocator.arena.pageSize ≤ Size.longest
        then some (size ⌈/⌉ allocator.arena.pageSize * allocator.arena.pageSize) else none)
  same : ∀ size other, allocator.policy.cutoff ≤ size → allocator.sizeClass size = allocator.sizeClass other →
    allocator.arena.blockLen size = allocator.arena.blockLen other
  only : ∀ size other len, allocator.policy.cutoff ≤ size → allocator.policy.cutoff ≤ other →
    allocator.arena.blockLen size = .ok (some len) → allocator.arena.blockLen other = .ok (some len) →
    allocator.sizeClass size = allocator.sizeClass other

/-- An accepted policy and a page size that is a power of two are all it takes. -/
theorem Measured.of_policy {allocator : Allocator σ ω} (policy : allocator.policy.Sound)
    (power : Size.isPowerOfTwo allocator.arena.pageSize = true) : allocator.Measured := by
  have positive := Size.pos_of_isPowerOfTwo power
  constructor
  case pages =>
    intro size above
    rw [sizeClass_arena positive (Policy.class?_eq_none above), Arena.blockLen_eq power,
      pageBytes_eq (Nat.lt_of_lt_of_le policy.cutoff above), Nat.ceilDiv_eq_add_pred_div]
    exact ⟨rfl, rfl⟩
  case same =>
    intro size other above same
    have lengths := (class?_of_sizeClass policy positive same.symm).2 (Policy.class?_eq_none above)
    rw [Arena.blockLen_eq power, Arena.blockLen_eq power, lengths]
  case only =>
    intro size other len above above' first second
    rw [Arena.blockLen_eq power] at first second
    obtain ⟨-, length⟩ := Option.ite_none_right_eq_some.mp (Except.ok.inj first)
    obtain ⟨-, length'⟩ := Option.ite_none_right_eq_some.mp (Except.ok.inj second)
    rw [sizeClass_eq_iff policy positive (Policy.class?_eq_none above') (Policy.class?_eq_none above)]
    exact Option.some.inj (length.trans length'.symm)

def withMemory (memory : Memory) (allocator : Allocator σ ω) : Allocator σ ω :=
  { allocator with arena := allocator.arena.withMemory memory }

def Twins (base : Addr) (block other : Block) (first second : Allocator σ ω) : Prop :=
  ∃ memory, second = first.withMemory memory ∧ Memory.Twins base block other first.arena.machine.memory memory

variable [Host σ] [LawfulHost σ] {allocator middle second : Allocator σ (Books ω)} {locked : List Extent}
  {kind target : Option Nat} {size other newSize addr fresh base : Nat} {block copy : Block}

/-- Two blocks of the client lie in different blocks of the memory, unless they are slots of one pool. -/
theorem Owns.apart
    (owns : Owns (lent allocator.arena.pageSize target fresh newSize ++ locked) kind size addr allocator)
    (housed : allocator.Houses target fresh base) (crossing : ∀ index, kind = some index → target ≠ some index) :
    ¬ allocator.Houses kind addr base := by
  have accounts := owns.sound.entries.accounts
  cases kind with
  | none =>
    rintro rfl
    have front : Arena.Sound ((base, pageBytes allocator.arena.pageSize size) :: _) allocator.arena :=
      accounts.perm List.perm_middle
    cases target with
    | none =>
      have listed : (fresh, pageBytes allocator.arena.pageSize newSize) ∈
          lent allocator.arena.pageSize none fresh newSize ++ locked := List.mem_cons_self
      exact front.apart_head (List.mem_append_left _ (List.mem_append_right _ listed)) housed.symm
    | some index =>
      obtain ⟨pool, here, owned⟩ := housed
      have listed := Entries.mem_extents here owned allocator.arena.pageSize
      exact front.apart_head (List.mem_append_left _ (List.mem_append_left _ listed)) rfl
  | some index =>
    rintro ⟨pool, here, owned⟩
    cases target with
    | none =>
      have listed : (fresh, pageBytes allocator.arena.pageSize newSize) ∈
          lent allocator.arena.pageSize none fresh newSize ++ locked := List.mem_cons_self
      have framed := Entries.mem_extents here owned allocator.arena.pageSize
      exact accounts.apart _ framed (List.mem_append_left _ listed) housed.symm
    | some index' =>
      obtain ⟨pool', here', owned'⟩ := housed
      exact crossing index rfl (congrArg some (owns.sound.entries.owner_unique here' here owned' owned))

/-- A block goes back without a look at any other. -/
theorem Owns.giveBack_mirrors (owns : Owns locked kind size addr allocator)
    (twins : Twins base block copy allocator second) (away : ¬ allocator.Houses kind addr base) :
    (giveBack kind size addr).Mirrors (Twins base block copy) (giveBack kind size addr) allocator second := by
  obtain ⟨memory, rfl, twins⟩ := twins
  cases kind with
  | none =>
    have accounts : Arena.Sound ((addr, pageBytes allocator.arena.pageSize size) :: _) allocator.arena :=
      owns.sound.entries.accounts.perm List.perm_middle
    have released := accounts.release_mirrors ⟨memory, rfl, twins⟩ fun same => away same.symm
    simp only [Run.Mirrors, Run.Ends, giveBack, Option.elim, onArena, Run.meets_focus]
    refine released.imp fun _ after inner => ?_
    refine inner.imp ?_
    rintro _ later ⟨rfl, memory', rfl, twins'⟩
    exact ⟨trivial, memory', rfl, twins'⟩
  | some index =>
    obtain ⟨pool, here, taken, -⟩ := owns.pool
    have released := (owns.sound.entries.focus here).release_mirrors taken (fun owned => away ⟨pool, here, owned⟩)
      ⟨memory, rfl, twins⟩
    have there : (withMemory memory allocator).pools[index]? = some (some pool) := here
    simp only [Run.Mirrors, Run.Ends, giveBack, takeBack, Option.elim, onEntry, Run.meets_bind, Run.meets_get,
      here, there, Option.join_some, Run.meets_focus]
    refine released.imp fun _ after inner => ?_
    refine inner.imp ?_
    rintro _ later ⟨rfl, memory', rfl, twins'⟩
    exact ⟨trivial, memory', rfl, twins'⟩

omit [LawfulHost σ] in
/-- A slot goes back whatever its size, and a block of the arena by its length. -/
theorem giveBack_congr (power : Size.isPowerOfTwo allocator.arena.pageSize = true) (pages : kind = none →
      pageBytes allocator.arena.pageSize other = pageBytes allocator.arena.pageSize size) (addr : Addr) :
    giveBack kind other addr allocator = giveBack kind size addr allocator := by
  cases kind with
  | none =>
    have same : allocator.arena.blockLen other = allocator.arena.blockLen size := by
      rw [Arena.blockLen_eq power, Arena.blockLen_eq power, pages rfl]
    apply Run.eq_of_meets
    intro post stop
    simp only [giveBack, Option.elim, onArena, Run.meets_focus]
    exact Run.meets_congr (Arena.release_congr same addr)
  | some index => rfl

/-- What is left of a move once there is a new block: its bytes, and the way back of the old one. -/
def handOver (kind : Option Nat) (size : Nat) (addr : Addr) (newSize : Nat) (fresh : Addr) :
    Run (Allocator σ ω) Outcome := do
  onArena do Arena.setMemory ((← Arena.memory).copy addr fresh (min size newSize))
  giveBack kind size addr
  return .ok fresh

omit [LawfulHost σ] in
theorem handOver_eq (kind : Option Nat) (size : Nat) (addr : Addr) (newSize : Nat) (fresh : Addr)
    (allocator : Allocator σ (Books ω)) : handOver kind size addr newSize fresh allocator =
      (do giveBack kind size addr; return .ok fresh : Run (Allocator σ (Books ω)) Outcome)
        (allocator.copied size addr newSize fresh) :=
  copied_eq size addr newSize fresh _ allocator

/-- Two moves of a block that differ in how many of its bytes they copy, and in nothing else. -/
inductive MovedAlike (old : Nat → List UInt8) (few many : Nat) :
    EStateM.Result Fault (Allocator σ ω) Outcome → EStateM.Result Fault (Allocator σ ω) Outcome → Prop
  | same (result : EStateM.Result Fault (Allocator σ ω) Outcome) : MovedAlike old few many result result
  | copied {fresh base : Addr} {block : Block} {after : Allocator σ ω} {memory : Memory} (different : few ≠ many)
      (inside : base ≤ fresh ∧ fresh + max few many ≤ base + block.len)
      (twins : Memory.Twins base (block.write (fresh - base) (old few)) (block.write (fresh - base) (old many))
        after.arena.machine.memory memory) :
      MovedAlike old few many (.ok (.ok fresh) after) (.ok (.ok fresh) (after.withMemory memory))

/-- Copies of different lengths differ in the block that the new one lies in. -/
private theorem Owns.copied_twins (owns : Owns locked target newSize fresh allocator)
    (found : allocator.arena.machine.memory.find? base = some block) (low : base ≤ fresh)
    (high : fresh < base + block.len) (size other : Nat) (addr : Addr) :
    Twins base (block.write (fresh - base) (allocator.arena.machine.memory.read addr (min size newSize)))
      (block.write (fresh - base) (allocator.arena.machine.memory.read addr (min other newSize)))
      (allocator.copied size addr newSize fresh) (allocator.copied other addr newSize fresh) := by
  have spread := owns.sound.entries.accounts.machine.spread
  have written : ∀ bytes, allocator.arena.machine.memory.write fresh bytes =
      allocator.arena.machine.memory.update base (·.write (fresh - base) bytes) :=
      Memory.write_eq spread found low high
  refine ⟨_, rfl, ?_⟩
  change Memory.Twins base _ _ (allocator.arena.machine.memory.write fresh _)
    (allocator.arena.machine.memory.write fresh _)
  rw [written, written]
  refine ⟨Memory.find?_update_self _ found, Memory.find?_update_self _ found, fun target away => ?_⟩
  rw [Memory.find?_update_of_ne _ away.symm, Memory.find?_update_of_ne _ away.symm]

/-- Once there is a new block, both moves hand over to it alike. -/
private theorem Owns.handOver_alike (owns : Owns locked kind size addr allocator)
    (owns' : Owns locked kind other addr allocator)
    (pages : kind = none → pageBytes allocator.arena.pageSize other = pageBytes allocator.arena.pageSize size)
    (crossing : ∀ index, kind = some index → target ≠ some index)
    (granted : Served (lent allocator.arena.pageSize kind addr size ++ locked) target newSize allocator
      (.ok fresh) middle) :
    MovedAlike (allocator.arena.machine.memory.read addr) (min size newSize) (min other newSize)
      (handOver kind size addr newSize fresh middle) (handOver kind other addr newSize fresh middle) := by
  have lent_eq : lent allocator.arena.pageSize kind addr other =
      lent allocator.arena.pageSize kind addr size := by
    cases kind with
    | none => rw [lent_none, lent_none, pages rfl]
    | some index => rfl
  obtain ⟨changes, gained, -⟩ := id granted
  have paged : middle.arena.pageSize = allocator.arena.pageSize := changes.paged
  obtain ⟨stays, leaves⟩ := owns.keeps granted
  obtain ⟨stays', leaves'⟩ := owns'.keeps (lent_eq ▸ granted)
  have handed : handOver kind other addr newSize fresh middle =
      (do giveBack kind size addr; return .ok fresh : Run (Allocator σ (Books ω)) Outcome)
        (middle.copied other addr newSize fresh) := by
    have power : Size.isPowerOfTwo (middle.copied other addr newSize fresh).arena.pageSize = true :=
      gained.sound.entries.accounts.power
    rw [← paged] at pages
    rw [handOver_eq]
    apply Run.bind_of_eq
    exact giveBack_congr power pages addr
  by_cases same : min size newSize = min other newSize
  · have copies : middle.copied other addr newSize fresh = middle.copied size addr newSize fresh := by
      rw [copied, copied, same]
    rw [handed, handOver_eq, copies]
    exact .same _
  · obtain ⟨base, block, housed, found, low, high⟩ := gained.housed
    have some : 0 < newSize := by
      apply Nat.pos_of_ne_zero
      rintro rfl
      exact same (by rw [Nat.min_zero, Nat.min_zero])
    have twins := gained.copied_twins found low (by omega) size other addr
    rw [owns.kept changes stays (Nat.min_le_left size newSize),
      owns'.kept (lent_eq ▸ changes) stays' (Nat.min_le_left other newSize)] at twins
    obtain ⟨_, after, ran, inner⟩ := (leaves.giveBack_mirrors twins (leaves.apart housed crossing)).exists_ok
    obtain ⟨_, later, ran', -, memory, rfl, twins'⟩ := inner.exists_ok
    have first : handOver kind size addr newSize fresh middle = .ok (.ok fresh) after :=
      (handOver_eq ..).trans (Run.bind_ok ran _)
    have second : handOver kind other addr newSize fresh middle = .ok (.ok fresh) (after.withMemory memory) :=
      handed.trans (Run.bind_ok ran' _)
    have inside : fresh + max (min size newSize) (min other newSize) ≤ base + block.len := by omega
    rw [first, second]
    exact .copied same ⟨low, inside⟩ twins'

/-- Both moves ask for the same block. -/
private theorem Owns.relocate_alike (owns : Owns locked kind size addr allocator)
    (owns' : Owns locked kind other addr allocator)
    (pages : kind = none → pageBytes allocator.arena.pageSize other = pageBytes allocator.arena.pageSize size)
    (routed : allocator.class? newSize = target) (crossing : ∀ index, kind = some index → target ≠ some index) :
    MovedAlike (allocator.arena.machine.memory.read addr) (min size newSize) (min other newSize)
      (relocate kind target size addr newSize allocator) (relocate kind target other addr newSize allocator) := by
  subst routed
  have positive := Size.pos_of_isPowerOfTwo owns.sound.entries.accounts.power
  have served := owns.sound.alloc_spec newSize
  rw [Run.meets_congr (alloc_eq owns.sound.policy positive newSize)] at served
  cases ran : request (allocator.class? newSize) newSize allocator with
  | error fault middle =>
    rw [relocate, relocate, Run.bind_error ran, Run.bind_error ran]
    exact .same _
  | ok outcome middle =>
    rw [relocate, relocate, Run.bind_ok ran, Run.bind_ok ran]
    cases outcome with
    | error error => exact .same _
    | ok fresh => exact owns.handOver_alike owns' pages crossing (served.of_ok ran)

omit [Host σ] [LawfulHost σ] in
private theorem onArena_bind (first : Run (Arena σ ω) α) (next : α → Run (Arena σ ω) β) :
    onArena (first >>= next) = (onArena first >>= fun a => onArena (next a)) := by
  funext allocator
  apply Run.eq_of_meets
  intro post stop
  simp only [onArena, Run.meets_focus, Run.meets_bind]

omit [Host σ] [LawfulHost σ] in
private theorem onArena_ok {allocator : Allocator σ ω} {action : Run (Arena σ ω) α} {a : α} {arena : Arena σ ω}
    (ran : action allocator.arena = .ok a arena) : onArena action allocator = .ok a { allocator with arena } :=
  Run.focus_ok ran _

omit [LawfulHost σ] in
/-- A block of the arena is replaced in the way in which blocks are moved between classes. -/
private theorem replaceWith_eq (size : Nat) (addr : Addr) (newSize : Nat) :
    onArena (Arena.replaceWith Arena.acquire size addr newSize) =
      (relocate none none size addr newSize : Run (Allocator σ (Books ω)) Outcome) := by
  rw [Arena.replaceWith, onArena_bind, relocate]
  apply bind_congr
  intro outcome
  cases outcome with
  | error error => rfl
  | ok fresh =>
    simp only [onArena_bind, bind_assoc]
    rfl

/-- The host moves the block from both sizes, or else it is replaced from both. -/
private theorem Owns.resize_alike (owns : Owns locked none size addr allocator)
    (pages : pageBytes allocator.arena.pageSize other = pageBytes allocator.arena.pageSize size)
    (routed : allocator.class? newSize = none)
    (different : pageBytes allocator.arena.pageSize newSize ≠ pageBytes allocator.arena.pageSize size) :
    MovedAlike (allocator.arena.machine.memory.read addr) (min size newSize) (min other newSize)
      (onArena (Arena.resize size addr newSize) allocator)
      (onArena (Arena.resize other addr newSize) allocator) := by
  have accounts : Arena.Sound ((addr, pageBytes allocator.arena.pageSize size) :: _) allocator.arena :=
    owns.sound.entries.accounts.perm List.perm_middle
  have sized : allocator.arena.blockLen other = allocator.arena.blockLen size := by
    rw [Arena.blockLen_eq accounts.power, Arena.blockLen_eq accounts.power, pages]
  obtain ⟨settled, arena, ran, placed⟩ := (accounts.resizeInPlace_spec different).exists_ok
  have ran' := (Arena.resizeInPlace_congr sized addr newSize).trans ran
  rw [Arena.resize, Arena.resize, Arena.resizeWith_eq, Arena.resizeWith_eq, onArena_bind, onArena_bind,
    Run.bind_ok (onArena_ok ran), Run.bind_ok (onArena_ok ran')]
  cases settled with
  | some outcome => exact .same _
  | none =>
    obtain ⟨accounts', unmoved⟩ := placed
    obtain ⟨host, journal, rfl⟩ := unmoved.inquired
    have steady : ∀ rest, Arena.Steady rest allocator.arena
        { allocator.arena with machine := ⟨host, allocator.arena.machine.memory, journal⟩ } :=
        fun _ => .of_memory rfl rfl rfl
    obtain ⟨sound, -⟩ := owns.sound.still (accounts'.perm List.perm_middle.symm) (steady (_ ++ locked)) rfl
    have stays : Owns locked none size addr
        { allocator with arena :=
          { allocator.arena with machine := ⟨host, allocator.arena.machine.memory, journal⟩ } } :=
      .of_block sound
    obtain ⟨stays', -⟩ := stays.rename (fun _ impossible => by cases impossible) fun _ => pages
    rw [replaceWith_eq, replaceWith_eq]
    exact stays.relocate_alike stays' (fun _ => pages) routed fun _ impossible => by cases impossible

/-- A block goes the same way to any size, whichever size of its class it comes from. -/
theorem Owns.realloc_alike (owns : Owns locked kind size addr allocator)
    (owns' : Owns locked kind other addr allocator) (routed : allocator.class? size = kind)
    (same : allocator.sizeClass other = allocator.sizeClass size) (newSize : Nat) :
    MovedAlike (allocator.arena.machine.memory.read addr) (min size newSize) (min other newSize)
      (realloc size addr newSize allocator) (realloc other addr newSize allocator) := by
  subst routed
  have policy := owns.sound.policy
  have positive := Size.pos_of_isPowerOfTwo owns.sound.entries.accounts.power
  obtain ⟨together, pages⟩ := class?_of_sizeClass policy positive same
  cases rerouted policy positive size addr newSize with
  | stays stays ran =>
    obtain ⟨sizeClass, class_eq⟩ := sizeClass_ok policy positive size
    rw [ran, realloc_same (same.trans class_eq) (stays.trans class_eq)]
    exact .same _
  | resized source target different ran =>
    rw [ran, realloc_arena positive (together.trans source) target (same ▸ different)]
    rw [source] at owns
    exact owns.resize_alike (pages source) target
      (mt (sizeClass_eq_iff policy positive source target).mpr different)
  | moved crossing ran =>
    rw [owns.sound.realloc_eq crossing, owns'.sound.realloc_eq (together ▸ crossing), together]
    exact owns.relocate_alike owns' pages rfl fun index chosen target => crossing (target.trans chosen.symm)

/-- What a block in the client's hands comes to under another size of its class. -/
structure Interchangeable (size other addr : Nat) (allocator : Allocator σ (Books ω)) : Prop where
  stays : realloc size addr other allocator = .ok (.ok addr) allocator
  frees : ∃ after, free size addr allocator = .ok () after ∧ free other addr allocator = .ok () after
  moves : ∀ newSize, MovedAlike (allocator.arena.machine.memory.read addr) (min size newSize) (min other newSize)
    (realloc size addr newSize allocator) (realloc other addr newSize allocator)

theorem Owns.interchangeable (owns : Owns locked kind size addr allocator) (routed : allocator.class? size = kind)
    (same : allocator.sizeClass other = allocator.sizeClass size) :
    allocator.Interchangeable size other addr := by
  have policy := owns.sound.policy
  have power := owns.sound.entries.accounts.power
  have positive := Size.pos_of_isPowerOfTwo power
  obtain ⟨together, pages⟩ := class?_of_sizeClass policy positive same
  obtain ⟨sizeClass, class_eq⟩ := sizeClass_ok policy positive size
  rw [routed] at together pages
  have room : ∀ index, kind = some index → other ≤ allocator.policy.entitySize index := by
    rintro index rfl
    exact (policy.class?_spec together).2.2.1
  obtain ⟨⟨⟩, after, freed, -⟩ := (owns.free_spec routed).exists_ok
  refine ⟨realloc_same class_eq (same.trans class_eq) addr, ⟨after, freed, ?_⟩, ?_⟩
  · rw [free_eq policy positive owns.sound.size, together, giveBack_congr power pages, ← routed,
      ← free_eq policy positive owns.sound.size]
    exact freed
  · exact owns.realloc_alike (owns.rename room pages).1 routed same

omit [LawfulHost σ] in
private theorem protect_eq (positive : 0 < allocator.arena.pageSize)
    (routed : allocator.class? size = none) (addr : Addr) (mode : Protection) :
    protect size addr mode allocator = onArena (Arena.protect size addr mode) allocator := by
  apply Run.eq_of_meets
  intro post stop
  simp only [protect, Run.meets_bind, Run.meets_get, Run.meets_lift (sizeClass_arena positive routed)]

/-- A block of the arena is protected alike under all sizes of its class. -/
theorem Sound.protect_alike (sound : Sound locked allocator)
    (held : ∃ block ∈ allocator.arena.env.held, block.addr = addr ∧ block.size = size)
    (routed : allocator.class? size = none) (same : allocator.sizeClass other = allocator.sizeClass size)
    (mode : Protection) :
    ∃ after, protect size addr mode allocator = .ok () after ∧
      protect other addr mode allocator = .ok () after := by
  have accounts := sound.entries.accounts
  have positive := Size.pos_of_isPowerOfTwo accounts.power
  obtain ⟨together, pages⟩ := class?_of_sizeClass sound.policy positive same
  obtain ⟨block, member, rfl, rfl⟩ := held
  have listed : block.extent allocator.arena.pageSize ∈
      Entries.extents allocator.arena.pageSize allocator.pools ++ locked ++
      allocator.arena.env.held.map (Holding.extent allocator.arena.pageSize) :=
    List.mem_append_right _ (List.mem_map_of_mem member)
  obtain ⟨⟨⟩, arena, ran, -⟩ := (accounts.protect_spec mode listed).exists_ok
  have sized : allocator.arena.blockLen other = allocator.arena.blockLen block.size := by
    rw [Arena.blockLen_eq accounts.power, Arena.blockLen_eq accounts.power, pages routed]
  rw [protect_eq positive routed, protect_eq positive (together.trans routed)]
  exact ⟨_, onArena_ok ran, onArena_ok ((Arena.protect_congr sized block.addr mode).trans ran)⟩

end Allocator

namespace Session

variable [Host σ] [LawfulHost σ]

/-- Under an accepted policy sizes of one class have blocks of one length, and in every session a block
answers to all the sizes of its class. While it is passed back it is out of the client's hands. -/
theorem interchanges :
    (∀ allocator : Allocator σ ω, allocator.policy.validate = .ok (.ok ()) →
      Size.isPowerOfTwo allocator.arena.pageSize = true → allocator.Measured) ∧
    ∀ session : Session σ ω, Attained session → ∀ size other addr grant,
      session.find? (session.allocator.class? size) size addr = some grant →
      session.allocator.sizeClass other = session.allocator.sizeClass size →
      (session.drop grant).allocator.Interchangeable size other addr ∧
        (session.allocator.policy.cutoff ≤ size → ∀ mode, ∃ after,
          session.allocator.protect size addr mode = .ok () after ∧
          session.allocator.protect other addr mode = .ok () after) := by
  constructor
  · intro allocator valid power
    exact .of_policy (Policy.validate_spec valid).1 power
  intro session attained size other addr grant found same
  have sound := attained.sound
  have pending := sound.drop found fun index kind => (sound.registry.policy.class?_spec kind).2.2.1
  have dropped : (session.drop grant).allocator.sizeClass other =
      (session.drop grant).allocator.sizeClass size := by
    cases grant <;> exact same
  refine ⟨pending.owns.interchangeable (class?_drop session grant size) dropped, fun above mode => ?_⟩
  have routed : session.allocator.class? size = none := Policy.class?_eq_none above
  rw [routed] at found
  obtain ⟨index, impossible, -⟩ | ⟨block, -, -, member, sized, here⟩ := find?_spec found
  · cases impossible
  · exact sound.registry.protect_alike ⟨block, member, here, sized⟩ routed same mode

/-- Sixteen bytes fill the slot that nine were asked for, and eight thousand the pages of five thousand. -/
theorem interchanges_in_fourPages : ∃ (session : Session (Quota Kernel) (Option Addr)) (slot block : Grant),
    replay fourPages .standard none [.alloc 9, .alloc 5000] = some session ∧ session.allocator.Measured ∧
      session.find? (some 1) 9 0x10000000050 = some slot ∧ session.find? none 5000 0x20000000000 = some block ∧
      (session.drop slot).allocator.Interchangeable 9 16 0x10000000050 ∧
      (session.drop block).allocator.Interchangeable 5000 8000 0x20000000000 ∧
      ∃ after, session.allocator.protect 5000 0x20000000000 .readOnly = .ok () after ∧
        session.allocator.protect 8000 0x20000000000 .readOnly = .ok () after := by
  have ended : ((replay fourPages .standard none [.alloc 9, .alloc 5000]).bind
      fun session : Session (Quota Kernel) (Option Addr) =>
        (session.find? (some 1) 9 0x10000000050).bind fun slot =>
        (session.find? none 5000 0x20000000000).map fun block =>
          (session.allocator.policy, session.arena.pageSize)) =
      some (.standard, 4096) := by decide +kernel
  obtain ⟨session, replayed, ended⟩ := Option.bind_eq_some_iff.mp ended
  obtain ⟨slot, found, ended⟩ := Option.bind_eq_some_iff.mp ended
  obtain ⟨block, found', ended⟩ := Option.map_eq_some_iff.mp ended
  rw [Prod.mk.injEq] at ended
  obtain ⟨policy, paged⟩ := ended
  have attained : Attained session :=
    (Reachable.of_replay fourPages_fresh (by decide) (by decide) replayed).attained
  have pooled : session.allocator.class? 9 = some 1 := by
    rw [Allocator.class?, policy]
    rfl
  have aside : session.allocator.class? 5000 = none := by
    rw [Allocator.class?, policy]
    rfl
  have slots : session.allocator.sizeClass 16 = session.allocator.sizeClass 9 := by
    rw [Allocator.sizeClass, Allocator.sizeClass, policy]
    rfl
  have pages : session.allocator.sizeClass 8000 = session.allocator.sizeClass 5000 := by
    rw [Allocator.sizeClass, Allocator.sizeClass, policy, show session.allocator.arena.pageSize = 4096 from paged]
    rfl
  have measured := interchanges.1 session.allocator (by rw [policy]; decide +kernel)
    (by rw [show session.allocator.arena.pageSize = 4096 from paged]; decide)
  have first := interchanges.2 session attained 9 16 0x10000000050 slot (by rw [pooled]; exact found) slots
  have second := interchanges.2 session attained 5000 8000 0x20000000000 block (by rw [aside]; exact found') pages
  have protects := second.2 (by rw [policy]; decide) .readOnly
  exact ⟨session, slot, block, replayed, measured, found, found', first.1, second.1, protects⟩

end Session
end SlabAllocator
