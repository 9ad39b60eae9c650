import SlabAllocator.Proofs.Placing

/-! What an allocation does whatever the recovery hooks do meanwhile. The hooks move blocks
between the host and the books, and the locked blocks stay out of their reach. The induction
is on how deep the hooks can nest, and inside it on the program of one hook. -/

namespace SlabAllocator.Arena

variable [Host σ] [LawfulHost σ]
variable {arena before middle after : Arena σ (Books ω)} {locked : List Extent} {depth addr size : Nat}
  {acquire : Nat → Run (Arena σ (Books ω)) Outcome}

/-- An operation stops only when a hook leaves, or when the runs of hooks can no longer be counted.
The blocks it was working on may be lost. -/
structure Stopped (locked : List Extent) (before : Arena σ (Books ω)) (fault : Fault)
    (after : Arena σ (Books ω)) : Prop where
  cause : fault = .unwound ∨ fault = .overflow ∧ Size.bound ≤ after.stats.hookInvocations + 1
  sound : ∃ lost, Sound (lost ++ locked) after
  steady : Steady locked before after

omit [LawfulHost σ] [Host σ] in
/-- A hook installed before can only be replaced by one that nests no deeper. -/
structure Settled (depth : Nat) (locked : List Extent) (before after : Arena σ (Books ω)) : Prop where
  steady : Steady locked before after
  errands : after.env.errands = before.env.errands
  depth : after.hookDepth ≤ depth

/-- A block that was acquired is out of the client's hands until it is entered. -/
def Acquired (depth : Nat) (locked : List Extent) (size : Nat) (before : Arena σ (Books ω)) (outcome : Outcome)
    (after : Arena σ (Books ω)) : Prop :=
  Settled depth locked before after ∧
    match outcome with
    | .ok addr => Sound ((addr, pageBytes before.pageSize size) :: locked) after
    | .error error => Sound locked after ∧ error = .outOfMemory size

def Acquires (depth : Nat) (acquire : Nat → Run (Arena σ (Books ω)) Outcome) : Prop :=
  ∀ (locked : List Extent) (arena : Arena σ (Books ω)) (size : Nat), Sound locked arena →
    arena.hookDepth ≤ depth →
    (acquire size).Meets arena (Acquired depth locked size arena) (Stopped locked arena)

def Resized (depth : Nat) (locked : List Extent) (oldSize addr newSize : Nat) (before : Arena σ (Books ω))
    (outcome : Outcome) (after : Arena σ (Books ω)) : Prop :=
  Settled depth locked before after ∧
    match outcome with
    | .ok moved => Sound ((moved, pageBytes before.pageSize newSize) :: locked) after ∧
        after.machine.memory.read moved (min oldSize newSize) =
          before.machine.memory.read addr (min oldSize newSize)
    | .error error =>
      Sound ((addr, pageBytes before.pageSize oldSize) :: locked) after ∧ error = .outOfMemory newSize ∧
        after.machine.memory.find? addr = before.machine.memory.find? addr

omit [LawfulHost σ] [Host σ] in
theorem Settled.trans (second : Settled depth locked middle after) (first : Steady locked before middle)
    (errands : middle.env.errands = before.env.errands) : Settled depth locked before after :=
  ⟨first.trans second.steady, second.errands.trans errands, second.depth⟩

theorem Stopped.prepend {fault : Fault} (first : Steady locked before middle)
    (stopped : Stopped locked middle fault after) : Stopped locked before fault after :=
  ⟨stopped.cause, stopped.sound, first.trans stopped.steady⟩

theorem Stopped.unlock {fault : Fault} (extra : List Extent)
    (stopped : Stopped (extra ++ locked) before fault after) : Stopped locked before fault after := by
  obtain ⟨lost, sound⟩ := stopped.sound
  refine ⟨stopped.cause, ⟨lost ++ extra, by rw [List.append_assoc]; exact sound⟩, ?_⟩
  exact stopped.steady.mono fun extent member => List.mem_append_right extra member

omit [LawfulHost σ] [Host σ] in
theorem hookDepth_congr (same : after.hook = before.hook) : after.hookDepth = before.hookDepth := by
  rw [hookDepth, hookDepth, same]

/-- The old block is locked while hooks may run, so its bytes are there to be copied. -/
theorem replaceWith_spec (acquires : Acquires depth acquire) (arena : Arena σ (Books ω)) {oldSize : Nat}
    (sound : Sound ((addr, pageBytes arena.pageSize oldSize) :: locked) arena) (nested : arena.hookDepth ≤ depth)
    (newSize : Nat) :
    (replaceWith acquire oldSize addr newSize).Meets arena (Resized depth locked oldSize addr newSize arena)
      (Stopped locked arena) := by
  refine replaceWith_rule locked ((acquires _ arena newSize sound nested).mono ?_ fun fault after stopped =>
    stopped.unlock [_])
  rintro outcome middle ⟨settled, acquired⟩
  have paged : middle.pageSize = arena.pageSize := settled.steady.paged
  have steady : Steady locked arena middle := settled.steady.mono fun extent => List.mem_cons_of_mem _
  have same := settled.steady.locked _ List.mem_cons_self
  cases outcome with
  | error error =>
    obtain ⟨kept, cause⟩ := acquired
    exact ⟨⟨steady, settled.errands, settled.depth⟩, kept, cause, same⟩
  | ok fresh =>
    have fewer := le_pageBytes sound.power oldSize
    have original : middle.machine.memory.read addr (min oldSize newSize) =
        arena.machine.memory.read addr (min oldSize newSize) :=
      sound.read acquired (addr, pageBytes arena.pageSize oldSize) (by simp) same ⟨Nat.le_refl _, by omega⟩
    rw [← paged] at acquired
    refine ⟨acquired, fun after shifted returned =>
      ⟨⟨steady.trans shifted.steady, ?_, ?_⟩, ?_, shifted.bytes.trans original⟩⟩
    · rw [returned.quiet.env]
      exact settled.errands
    · rw [hookDepth_congr returned.quiet.hook]
      exact settled.depth
    · rw [← paged]
      exact shifted.sound

theorem resizeWith_spec (acquires : Acquires depth acquire) (arena : Arena σ (Books ω)) {oldSize : Nat}
    (sound : Sound ((addr, pageBytes arena.pageSize oldSize) :: locked) arena) (nested : arena.hookDepth ≤ depth)
    (newSize : Nat) :
    (resizeWith acquire oldSize addr newSize).Meets arena (Resized depth locked oldSize addr newSize arena)
      (Stopped locked arena) := by
  by_cases same : pageBytes arena.pageSize newSize = pageBytes arena.pageSize oldSize
  · refine .ended (sound.resizeWith_same same) ⟨⟨.refl locked arena, rfl, nested⟩, ?_, rfl⟩
    rw [same]
    exact sound
  rw [resizeWith_eq, Run.meets_bind]
  refine Run.Ends.imp (sound.resizeInPlace_spec same) fun settled middle placed => ?_
  cases settled with
  | some outcome =>
    obtain ⟨moved, rfl, shifted, remapped⟩ := placed
    simp only [Run.meets_pure]
    refine ⟨⟨shifted.steady, by rw [remapped.quiet.env], ?_⟩, shifted.sound, shifted.bytes⟩
    rw [hookDepth_congr remapped.quiet.hook]
    exact nested
  | none =>
    obtain ⟨sound', unmoved⟩ := placed
    obtain ⟨host, journal, rfl⟩ := unmoved.inquired
    have still : Steady locked arena { arena with machine := ⟨host, arena.machine.memory, journal⟩ } :=
      .of_memory rfl rfl rfl
    have replaced := replaceWith_spec acquires { arena with machine := ⟨host, arena.machine.memory, journal⟩ }
      sound' nested newSize
    refine replaced.mono ?_ fun fault after stopped => stopped.prepend still
    rintro outcome after ⟨settled, result⟩
    exact ⟨settled.trans still rfl, result⟩

omit [LawfulHost σ] [Host σ] in
private theorem find?_spec {books : Books ω} {block : Holding} (found : books.find? size addr = some block) :
    block ∈ books.held ∧ block.size = size ∧ block.addr = addr := by
  have matched := List.find?_some found
  simp only [Bool.and_eq_true, beq_iff_eq] at matched
  exact ⟨List.mem_of_find?_eq_some found, matched⟩

private theorem deed_other (reply : Reply) (env : Books ω) (sound : Sound locked arena)
    (nested : arena.hookDepth ≤ depth) (held : env.held = arena.env.held)
    (tickets : env.tickets = arena.env.tickets) (errands : env.errands = .other :: arena.env.errands) :
    Sound locked { arena with env := env.finish reply } ∧
      Settled depth locked arena { arena with env := env.finish reply } := by
  have finished : env.finish reply = { env with errands := arena.env.errands } := by
    simp only [Books.finish, errands]
  rw [finished]
  exact ⟨sound.books (by rw [held]) (by rw [held, tickets]; exact sound.issued),
    .fewer locked tickets (fun block member => held ▸ member), rfl, nested⟩

private theorem deed_gain (env : Books ω) (held : ∀ block ∈ env.held, block ∈ arena.env.held)
    (tickets : env.tickets = arena.env.tickets) (settled : Settled depth locked { arena with env } after)
    (sound : Sound ((addr, pageBytes arena.pageSize size) :: locked) after) :
    Sound locked { after with env := { after.env with errands := arena.env.errands }.gain size addr } ∧
      Settled depth locked arena
        { after with env := { after.env with errands := arena.env.errands }.gain size addr } := by
  have paged : after.pageSize = arena.pageSize := settled.steady.paged
  rw [← paged] at sound
  exact ⟨sound.gain arena.env.errands,
    ((Steady.fewer locked tickets held).trans settled.steady).gain size addr arena.env.errands,
    rfl, settled.depth⟩

/-- A deed of a hook, from the books in which it was begun to those in which it is finished. -/
abbrev Does (depth : Nat) (locked : List Extent) (acquire : Nat → Run (Arena σ (Books ω)) Outcome)
    (arena : Arena σ (Books ω)) (env : Books ω) (deed : Deed) : Prop :=
  (carryOut acquire deed).Meets { arena with env }
    (fun reply after => Sound locked { after with env := after.env.finish reply } ∧
      Settled depth locked arena { after with env := after.env.finish reply })
    (Stopped locked arena)

private theorem deed_acquire (acquires : Acquires depth acquire) (sound : Sound locked arena)
    (nested : arena.hookDepth ≤ depth) (size : Nat) :
    Does depth locked acquire arena (arena.env.undertake (.acquire size) (.acquire size)) (.acquire size) := by
  have begun : Steady locked arena { arena with env := arena.env.undertake (.acquire size) (.acquire size) } :=
    .fewer locked rfl fun _ member => member
  simp only [Does, carryOut, Run.meets_bind]
  refine (acquires locked { arena with env := arena.env.undertake (.acquire size) (.acquire size) } size
    (sound.books (.refl _) sound.issued) nested).mono ?_ fun fault after stopped => stopped.prepend begun
  rintro outcome after ⟨settled, acquired⟩
  have errands : after.env.errands = .acquire size :: arena.env.errands := settled.errands
  have whole := begun.trans settled.steady
  simp only [Run.meets_pure, Books.finish, errands]
  cases outcome with
  | error error =>
    exact ⟨acquired.1.books (.refl _) acquired.1.issued, whole.books whole.tickets whole.held, rfl, settled.depth⟩
  | ok addr =>
    exact deed_gain (arena.env.undertake (.acquire size) (.acquire size)) (fun _ member => member)
      rfl settled acquired

/-- A block that a hook passes back is out of its books and locked. -/
private theorem deed_drop (sound : Sound locked arena) {block : Holding} (member : block ∈ arena.env.held)
    (errand : Errand) (intent : Deed) {env : Books ω}
    (begun : (arena.env.drop block).undertake errand intent = env) :
    Sound (block.extent arena.pageSize :: locked) { arena with env } ∧
    (∀ other ∈ env.held, other ∈ arena.env.held) ∧
      env.tickets = arena.env.tickets ∧ env.errands = errand :: arena.env.errands := by
  have dropped := sound.drop member
  subst begun
  exact ⟨dropped.books (.refl _) dropped.issued, fun _ => List.mem_of_mem_erase, rfl, rfl⟩

private theorem deed_resize (acquires : Acquires depth acquire) (sound : Sound locked arena)
    (nested : arena.hookDepth ≤ depth) {block : Holding} (member : block ∈ arena.env.held) (newSize : Nat) :
    Does depth locked acquire arena
      ((arena.env.drop block).undertake (.resize block newSize) (.resize block.size block.addr newSize))
      (.resize block.size block.addr newSize) := by
  generalize begun : (arena.env.drop block).undertake (.resize block newSize)
    (.resize block.size block.addr newSize) = env
  obtain ⟨sound', held, tickets, undertaken⟩ := deed_drop sound member _ _ begun
  simp only [Does, carryOut, Run.meets_bind]
  refine (resizeWith_spec acquires { arena with env } sound' nested newSize).mono ?_
    fun fault after stopped => stopped.prepend (.fewer locked tickets held)
  rintro outcome after ⟨settled, resized⟩
  have errands : after.env.errands = .resize block newSize :: arena.env.errands :=
    settled.errands.trans undertaken
  have paged : after.pageSize = arena.pageSize := settled.steady.paged
  simp only [Run.meets_pure, Books.finish, errands]
  cases outcome with
  | ok moved => exact deed_gain _ held tickets settled resized.1
  | error error =>
    obtain ⟨kept, -, same⟩ := resized
    have issued : block.ticket < after.env.tickets :=
      Nat.lt_of_lt_of_le (sound.issued block member) (by rw [← tickets]; exact settled.steady.tickets)
    refine ⟨(kept.perm ?_).restore issued arena.env.errands, ?_, rfl, settled.depth⟩
    · rw [Holding.extent, paged]
    · exact (settled.steady.cons (block.extent arena.pageSize) same).restore rfl tickets held member
        arena.env.errands

private theorem deed_release (sound : Sound locked arena) (nested : arena.hookDepth ≤ depth) {block : Holding}
    (member : block ∈ arena.env.held) :
    Does depth locked acquire arena ((arena.env.drop block).undertake .other (.release block.size block.addr))
      (.release block.size block.addr) := by
  generalize begun : (arena.env.drop block).undertake .other (.release block.size block.addr) = env
  obtain ⟨sound', held, tickets, undertaken⟩ := deed_drop sound member _ _ begun
  simp only [Does, carryOut, Run.meets_bind]
  refine sound'.release_spec.imp ?_
  rintro _ after ⟨⟨quiet, -⟩, freed, sound''⟩
  have errands : after.env.errands = .other :: arena.env.errands := by rw [quiet.env, undertaken]
  have whole := (Steady.fewer locked tickets held).trans freed
  simp only [Run.meets_pure, Books.finish, errands]
  exact ⟨sound''.books (.refl _) sound''.issued, whole.books whole.tickets whole.held, rfl,
    Nat.le_trans (Nat.le_of_eq (hookDepth_congr quiet.hook)) nested⟩

theorem deed_spec (acquires : Acquires depth acquire) (sound : Sound locked arena)
    (nested : arena.hookDepth ≤ depth) (deed : Deed) :
    Does depth locked acquire arena (arena.env.begin deed) (arena.env.begin deed).intent := by
  have left : ∀ env : Books ω, env.held = arena.env.held → env.tickets = arena.env.tickets →
      Stopped locked arena .unwound { arena with env } := fun env held tickets =>
    ⟨.inl rfl, ⟨[], sound.books (by rw [held]; rfl) (by rw [held, tickets]; exact sound.issued)⟩,
      .fewer locked tickets fun block member => held ▸ member⟩
  cases deed with
  | pass =>
    simp only [Does, Books.begin, Books.undertake, carryOut, Run.meets_pure]
    exact deed_other .done _ sound nested rfl rfl rfl
  | take =>
    simp only [Does, Books.begin, Books.undertake, carryOut, takeHook, setHook, Arena.note, Machine.note,
      onMachine, Run.meets_bind, Run.meets_get, Run.meets_modify, Run.meets_focus, Run.meets_pure]
    obtain ⟨sound', settled⟩ := deed_other (.attached arena.hook.isSome) (arena.env.undertake .other .take)
      (sound.unhook.note (.hookTaken arena.hook.isSome) trivial trivial) (Nat.zero_le depth) rfl rfl rfl
    exact ⟨sound', settled.trans (.of_memory rfl rfl rfl) rfl⟩
  | probe =>
    simp only [Does, Books.begin, Books.undertake, carryOut, Arena.note, Machine.note, onMachine,
      Run.meets_bind, Run.meets_get, Run.meets_modify, Run.meets_focus, Run.meets_pure]
    obtain ⟨sound', settled⟩ := deed_other (.attached arena.hasHook) (arena.env.undertake .other .probe)
      (sound.note (.hookProbed arena.hasHook) trivial trivial) nested rfl rfl rfl
    exact ⟨sound', settled.trans (.of_memory rfl rfl rfl) rfl⟩
  | supply base len =>
    simp only [Does, Books.begin, Books.intend, carryOut, Run.meets_throw]
    exact left _ rfl rfl
  | unwind =>
    simp only [Does, Books.begin, Books.intend, carryOut, Run.meets_throw]
    exact left _ rfl rfl
  | acquire size => exact deed_acquire acquires sound nested size
  | resize oldSize addr newSize =>
    simp only [Books.begin]
    cases found : arena.env.find? oldSize addr with
    | none =>
      simp only [Does, Books.intend, carryOut, Run.meets_throw]
      exact left _ rfl rfl
    | some block =>
      obtain ⟨member, rfl, rfl⟩ := find?_spec found
      exact deed_resize acquires sound nested member newSize
  | release size addr =>
    simp only [Books.begin]
    cases found : arena.env.find? size addr with
    | none =>
      simp only [Does, Books.intend, carryOut, Run.meets_throw]
      exact left _ rfl rfl
    | some block =>
      obtain ⟨member, rfl, rfl⟩ := find?_spec found
      exact deed_release sound nested member

/-- What a hook passes on is locked for whoever asked, and is as long as what was denied. -/
def Answered (depth : Nat) (locked : List Extent) (requested : Nat) (before : Arena σ (Books ω))
    (answer : Option Addr) (after : Arena σ (Books ω)) : Prop :=
  Settled depth locked before after ∧
    match answer with
    | some addr => Sound ((addr, pageBytes before.pageSize requested) :: locked) after
    | none => Sound locked after

omit [LawfulHost σ] [Host σ] in
theorem Settled.refl (locked : List Extent) (nested : arena.hookDepth ≤ depth) :
    Settled depth locked arena arena :=
  ⟨.refl locked arena, rfl, nested⟩

private theorem Answered.prepend {requested : Nat} {answer : Option Nat}
    (settled : Settled depth locked before middle)
    (answered : Answered depth locked requested middle answer after) :
    Answered depth locked requested before answer after := by
  obtain ⟨rest, result⟩ := answered
  refine ⟨rest.trans settled.steady settled.errands, ?_⟩
  cases answer with
  | none => exact result
  | some addr => simpa only [settled.steady.paged] using result

private theorem conclude_spec (sound : Sound locked arena)
    (nested : arena.hookDepth ≤ depth) (requested : Nat) (answer : Option Addr) :
    (carryOut acquire (arena.env.conclude arena.pageSize requested answer).intent).Meets
      { arena with env := arena.env.conclude arena.pageSize requested answer }
      (fun _ after => Answered depth locked requested arena after.env.answer after) (Stopped locked arena) := by
  cases answer with
  | none =>
    simp only [Books.conclude, carryOut, Run.meets_pure]
    exact ⟨⟨.fewer locked rfl fun _ member => member, rfl, nested⟩, sound.books (.refl _) sound.issued⟩
  | some addr =>
    simp only [Books.conclude]
    split
    next block found =>
      have matched := List.find?_some found
      simp only [Bool.and_eq_true, beq_iff_eq] at matched
      have dropped := sound.drop (List.mem_of_find?_eq_some found)
      simp only [carryOut, Run.meets_pure]
      refine ⟨⟨.fewer locked rfl fun _ => List.mem_of_mem_erase, rfl, nested⟩, ?_⟩
      have extent : block.extent arena.pageSize = (addr, pageBytes arena.pageSize requested) := by
        rw [Holding.extent, matched.1, matched.2]
      rw [extent] at dropped
      exact dropped.books (.refl _) dropped.issued
    next =>
      simp only [Books.intend, carryOut, Run.meets_throw]
      exact ⟨.inl rfl, ⟨[], sound.books (.refl _) sound.issued⟩, .fewer locked rfl fun _ member => member⟩

omit [LawfulHost σ] [Host σ] in
/-- A change of what the client shares with its hooks is no change of the books. -/
private theorem Settled.change (settled : Settled depth locked before after) (f : ω → ω) :
    Settled depth locked before { after with env := after.env.change f } :=
  ⟨settled.steady.books settled.steady.tickets settled.steady.held, settled.errands, settled.depth⟩

private theorem Sound.change (sound : Sound locked arena) (f : ω → ω) :
    Sound locked { arena with env := arena.env.change f } :=
  sound.books (.refl _) sound.issued

theorem runProgram_spec (acquires : Acquires depth acquire) (requested : Nat) : ∀ (program : Program ω)
    (arena : Arena σ (Books ω)), Sound locked arena → arena.hookDepth ≤ depth →
    (program.audited arena.pageSize).depth ≤ depth →
    (runProgram acquire requested (program.audited arena.pageSize)).Meets arena
      (Answered depth locked requested arena)
      (Stopped locked arena)
  | .answer choose, arena, sound, nested, _ => by
    simp only [Program.audited, runProgram, Run.meets_bind, Run.meets_get, Run.meets_modify, Run.meets_pure]
    exact conclude_spec sound nested requested (choose arena.env.env)
  | .perform choose learn next, arena, sound, nested, shallow => by
    simp only [Program.audited, Program.depth] at shallow
    simp only [Program.audited, runProgram, Run.meets_bind, Run.meets_get, Run.meets_modify]
    refine (deed_spec acquires sound nested (choose requested arena.env.env)).imp ?_
    rintro reply after ⟨sound', settled⟩
    have paged : after.pageSize = arena.pageSize := settled.steady.paged
    have learnt := settled.change (learn reply)
    rw [← paged] at shallow ⊢
    exact (runProgram_spec acquires requested next _ (sound'.change (learn reply)) settled.depth shallow).mono
      (fun answer final => .prepend learnt) fun fault final stopped => stopped.prepend learnt.steady
  | .record change next, arena, sound, nested, shallow => by
    simp only [Program.audited, Program.depth] at shallow
    simp only [Program.audited, runProgram, Run.meets_bind, Run.meets_modify]
    have changed := (Settled.refl locked nested).change (change requested)
    exact (runProgram_spec acquires requested next _ (sound.change (change requested)) nested shallow).mono
      (fun answer after => .prepend changed) fun fault after stopped => stopped.prepend changed.steady
  | .branch test yes no, arena, sound, nested, shallow => by
    simp only [Program.audited, Program.depth, Nat.max_le] at shallow
    simp only [Program.audited, runProgram, Run.meets_bind, Run.meets_get]
    split
    · exact runProgram_spec acquires requested yes arena sound nested shallow.1
    · exact runProgram_spec acquires requested no arena sound nested shallow.2
  | .install programs next, arena, sound, nested, shallow => by
    simp only [Program.audited, Program.depth, Nat.max_le] at shallow
    simp only [Program.audited, runProgram, setHook, Run.meets_bind, Run.meets_modify]
    have installed : Sound locked { arena with hook := some ⟨Program.auditedAll arena.pageSize programs⟩ } :=
      sound.hook _ fun hook same => ⟨programs, by cases same; rfl⟩
    have settled : Settled depth locked arena
        { arena with hook := some ⟨Program.auditedAll arena.pageSize programs⟩ } :=
      ⟨.of_memory rfl rfl rfl, rfl, shallow.1⟩
    exact (runProgram_spec acquires requested next _ installed shallow.1 shallow.2).mono
      (fun answer after => .prepend settled) fun fault after stopped => stopped.prepend settled.steady

/-- One run of an installed hook, whatever program is its next. -/
theorem hook_spec (acquires : Acquires depth acquire) (requested : Nat) (sound : Sound locked arena)
    (nested : arena.hookDepth ≤ depth) {hook : Hook (Books ω)} {programs : List (Program ω)}
    (audited : hook.programs = Program.auditedAll arena.pageSize programs) (shallow : hook.depth ≤ depth + 1) :
    (runProgram acquire requested hook.program).Meets arena (Answered depth locked requested arena)
      (Stopped locked arena) := by
  cases programs with
  | nil =>
    have idle : hook.program = .answer fun _ => none := by rw [Hook.program, audited]; rfl
    simp only [idle, runProgram, Run.meets_bind, Run.meets_get, Run.meets_pure]
    exact ⟨.refl locked nested, sound⟩
  | cons program rest =>
    have first : hook.program = program.audited arena.pageSize := by rw [Hook.program, audited]; rfl
    have bounded : Program.depthAll hook.programs + 1 ≤ depth + 1 := shallow
    rw [audited, Program.auditedAll, Program.depthAll] at bounded
    rw [first]
    exact runProgram_spec acquires requested program arena sound nested (by omega)

omit [LawfulHost σ] [Host σ] in
private theorem afterRun_audited {pageSize : Nat} {hook : Hook (Books ω)} {programs : List (Program ω)}
    (audited : hook.programs = Program.auditedAll pageSize programs) :
    ∃ rest, hook.afterRun.programs = Program.auditedAll pageSize rest := by
  refine ⟨programs.tail, ?_⟩
  rw [Hook.afterRun, audited]
  cases programs <;> rfl

omit [LawfulHost σ] [Host σ] in
private theorem afterRun_depth (hook : Hook ω) : hook.afterRun.depth ≤ hook.depth := by
  obtain ⟨programs⟩ := hook
  cases programs with
  | nil => exact Nat.le_refl _
  | cons program rest => exact Nat.succ_le_succ (Nat.le_max_right _ _)

/-- The hook that ran stays installed unless another one took its place. -/
theorem escalateWith_spec (acquires : Acquires depth acquire) (sound : Sound locked arena) {hook : Hook (Books ω)}
    (installed : arena.hook = some hook) (nested : arena.hookDepth ≤ depth + 1) (size : Nat) :
    (escalateWith acquire hook size).Meets arena (Acquired (depth + 1) locked size arena)
      (Stopped locked arena) := by
  obtain ⟨programs, audited⟩ := sound.audited hook installed
  have shallow : hook.depth ≤ depth + 1 := by rwa [hookDepth, installed] at nested
  have detached : Sound locked { arena with hook := none } := sound.unhook
  simp only [escalateWith, setHook, setStats, Run.meets_bind, Run.meets_get, Run.meets_modify]
  by_cases counted : arena.stats.hookInvocations + 1 < Size.bound
  case neg =>
    have uncounted : Size.add arena.stats.hookInvocations 1 = .error .overflow := if_neg counted
    simp only [Run.meets_lift_error uncounted]
    exact ⟨.inr ⟨rfl, Nat.le_of_not_lt counted⟩, ⟨[], detached⟩, .of_memory rfl rfl rfl⟩
  simp only [Run.meets_lift (Size.add_ok counted), Arena.note, Machine.note, onMachine, Run.meets_focus,
    Run.meets_modify]
  generalize started : ({ arena with
    hook := none
    stats := { arena.stats with hookInvocations := arena.stats.hookInvocations + 1 }
    machine := { arena.machine with journal := arena.machine.journal.note (.hookStarted size) } } :
      Arena σ (Books ω)) = middle
  have sound' : Sound locked middle := by
    rw [← started]
    exact { detached.note (.hookStarted size) trivial trivial with }
  have begun : Settled depth locked arena middle := by
    rw [← started]; exact ⟨.of_memory rfl rfl rfl, rfl, Nat.zero_le depth⟩
  have paged : middle.pageSize = arena.pageSize := begun.steady.paged
  rw [← paged] at audited
  refine (hook_spec acquires size sound' begun.depth audited shallow).mono (fun answer after answered => ?_)
    fun fault after stopped => stopped.prepend begun.steady
  obtain ⟨settled, result⟩ := answered.prepend begun
  have noted : ∀ more, Sound more after → Sound more { after with
      machine := { after.machine with journal := after.machine.journal.note (.hookFinished answer) } } :=
    fun more sound => sound.note (.hookFinished answer) trivial trivial
  -- Both ways to leave the hook slot keep what was reached.
  have ended : ∀ final : Arena σ (Books ω), Settled (depth + 1) locked arena final →
      (∀ more, Sound more after → Sound more final) →
      Run.Meets (match answer with
        | some block => return .ok block
        | none => do
          Arena.say (.hookGaveUp size)
          return .error (.outOfMemory size)) final (Acquired (depth + 1) locked size arena)
            (Stopped locked arena) := by
    intro final settled kept
    cases answer with
    | some block =>
      simp only [Run.meets_pure]
      exact ⟨settled, kept _ result⟩
    | none =>
      simp only [Arena.say, onMachine, Run.meets_bind, Run.meets_focus, Run.meets_modify, Run.meets_pure]
      exact ⟨⟨settled.steady.trans (.of_memory rfl rfl rfl), settled.errands, settled.depth⟩,
        (kept _ result).say _, rfl⟩
  have steady : Steady locked arena { after with
      machine := { after.machine with journal := after.machine.journal.note (.hookFinished answer) } } :=
    settled.steady.trans (.of_memory rfl rfl rfl)
  split
  next =>
    simp only [Run.meets_bind, Run.meets_modify]
    obtain ⟨rest, left⟩ := afterRun_audited audited
    refine ended _ ⟨steady.trans (.of_memory rfl rfl rfl), settled.errands, ?_⟩ fun more sound =>
      (noted more sound).hook _ fun kept same => ⟨rest, ?_⟩
    · exact Nat.le_trans (afterRun_depth hook) shallow
    · cases same
      rw [left]
      exact congrArg (Program.auditedAll · rest) (begun.steady.paged.trans settled.steady.paged.symm)
  next => exact ended _ ⟨steady, settled.errands, Nat.le_succ_of_le settled.depth⟩ noted

/-- Asking the host first, with any way to recover from a denial. -/
private theorem acquireOr_spec {recover : Hook (Books ω) → Run (Arena σ (Books ω)) Outcome}
    (sound : Sound locked arena) (nested : arena.hookDepth ≤ depth) (size : Nat)
    (recovers : ∀ (middle : Arena σ (Books ω)) (hook : Hook (Books ω)), Sound locked middle →
      middle.hook = some hook →
      middle.hookDepth ≤ depth → (recover hook).Meets middle (Acquired depth locked size middle)
        (Stopped locked middle)) :
    (acquireOr recover size).Meets arena (Acquired depth locked size arena) (Stopped locked arena) := by
  simp only [acquireOr, Run.meets_bind]
  refine Run.Ends.imp (sound.request_spec size) ?_
  rintro granted middle ⟨quiet, steady, result⟩
  have errands : middle.env.errands = arena.env.errands := by rw [quiet.env]
  have nested' : middle.hookDepth ≤ depth := Nat.le_trans (Nat.le_of_eq (hookDepth_congr quiet.hook)) nested
  cases granted with
  | some base =>
    simp only [Run.meets_pure]
    exact ⟨⟨steady, errands, nested'⟩, result⟩
  | none =>
    simp only [Arena.say, onMachine, Run.meets_bind, Run.meets_focus, Run.meets_modify, Run.meets_get]
    have denied := result.say (.denied size)
    generalize told : ({ middle with machine := { middle.machine with
      journal := middle.machine.journal.say (.denied size) } } : Arena σ (Books ω)) = later at denied
    have calm : Settled depth locked arena later := by
      rw [← told]
      exact ⟨steady.trans (.of_memory rfl rfl rfl), errands, nested'⟩
    split
    next hook installed =>
      refine (recovers later hook denied (by rw [← told]; exact installed) calm.depth).mono ?_
        fun fault after stopped => stopped.prepend calm.steady
      rintro outcome after ⟨settled, acquired⟩
      refine ⟨settled.trans calm.steady calm.errands, ?_⟩
      cases outcome with
      | error error => exact acquired
      | ok addr => simpa only [calm.steady.paged] using acquired
    next =>
      simp only [Run.meets_bind, Run.meets_focus, Run.meets_modify, Run.meets_pure]
      exact ⟨⟨calm.steady.trans (.of_memory rfl rfl rfl), calm.errands, calm.depth⟩, denied.say _, rfl⟩

/-- Allocation, for hooks that nest at most this deep. -/
theorem acquireWithin_spec (depth : Nat) : Acquires depth (acquireWithin (σ := σ) (ω := Books ω) depth) := by
  induction depth with
  | zero =>
    intro locked arena size sound nested
    refine acquireOr_spec sound nested size fun middle hook _ installed shallow => ?_
    -- A hook that is installed can run, so it is at least one deep.
    rw [hookDepth, installed] at shallow
    cases shallow
  | succ depth ih =>
    intro locked arena size sound nested
    exact acquireOr_spec sound nested size fun middle hook sound' installed shallow =>
      escalateWith_spec ih sound' installed shallow size

theorem acquires (depth : Nat) : Acquires depth (Arena.acquire (σ := σ) (ω := Books ω)) := by
  intro locked arena size sound nested
  simp only [Arena.acquire, Run.meets_bind, Run.meets_get]
  refine (acquireWithin_spec arena.hookDepth locked arena size sound (Nat.le_refl _)).imp ?_
  rintro outcome after ⟨settled, result⟩
  exact ⟨⟨settled.steady, settled.errands, Nat.le_trans settled.depth nested⟩, result⟩

theorem resize_spec {oldSize : Nat} (sound : Sound ((addr, pageBytes arena.pageSize oldSize) :: locked) arena)
    (newSize : Nat) :
    (resize oldSize addr newSize).Meets arena (Resized arena.hookDepth locked oldSize addr newSize arena)
      (Stopped locked arena) :=
  resizeWith_spec (acquires arena.hookDepth) arena sound (Nat.le_refl _) newSize

end SlabAllocator.Arena
