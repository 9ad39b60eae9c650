import SlabAllocator.Proofs.Nesting

/-! When hooks run. -/

namespace SlabAllocator.Arena

variable [Host σ] {arena : Arena σ ω} {size oldSize addr newSize : Nat}

/-- The call turns to a hook once, or not at all. One whose run can no longer be counted is lost. -/
def Once (run : Run (Arena σ ω) Outcome) (turns : Turns ω) (arena : Arena σ ω) : Prop :=
  turns = .done ∨ (∃ hook inside, arena.hook = some hook ∧ turns = .ran hook inside .done) ∨
    turns = .taken .done ∧ Size.bound ≤ arena.stats.hookInvocations + 1 ∧ ∃ after,
      run arena = .error .overflow after

/-- What every call keeps to, whatever its hooks do. -/
structure Disciplined (run : Run (Arena σ ω) Outcome) (turns : Turns ω) (arena : Arena σ ω) : Prop where
  once : Once run turns arena
  orderly : turns.Orderly arena.hook
  fresh : turns.Fresh
  terminates : ∀ after, run arena ≠ .error .nesting after
  counted : run.Meets arena (fun _ => Counted turns.started arena) fun _ => Counted turns.started arena
  settles : ∀ outcome after, run arena = .ok outcome after →
    after.hook = turns.settle arena.hook ∧ after.hook.isSome = arena.hook.isSome

structure Recorded (after : Arena σ ω) (len : Nat) (granted : Option Addr) (host : σ)
    (arena : Arena σ ω) : Prop where
  host : after.machine.host = host
  events : after.machine.journal.events = arena.machine.journal.events.push (.request len granted)

/-- What becomes of a request, by what the host says to it. -/
structure Decided (size : Nat) (arena : Arena σ ω) : Prop where
  granted : ∀ block after, request size arena = .ok (some block) after →
    acquire size arena = .ok (.ok block) after ∧ turns size arena = .done
  /-- A block that the host grants goes to the caller, unless a counter is full. -/
  served : ∀ len block host, arena.blockLen size = .ok (some len) →
    Host.request len arena.machine.host = .ok (some block) host →
    arena.stats.liveBlocks + 1 < Size.bound → arena.stats.mappedBytes + len < Size.bound →
    ∃ after, acquire size arena = .ok (.ok block) after ∧ turns size arena = .done ∧ after.hook = arena.hook ∧
      after.Recorded len (some block) host arena
  refused : ∀ len host, arena.blockLen size = .ok (some len) →
    Host.request len arena.machine.host = .ok none host →
    ∃ denied, request size arena = .ok none denied ∧ denied.Recorded len none host arena
  unrepresentable : arena.blockLen size = .ok none → request size arena = .ok none arena
  unaided : ∀ denied, request size arena = .ok none denied → arena.hook = none →
    (∃ after, acquire size arena = .ok (.error (.outOfMemory size)) after) ∧ turns size arena = .done
  aided : ∀ denied hook, request size arena = .ok none denied → arena.hook = some hook →
    (∃ begun, begun.hook = none ∧ Counted 1 arena begun ∧
      acquire size arena = (do reattach hook size (← runProgram acquire size hook.program)) begun ∧
      turns size arena = .ran hook (programTurns acquire turns size hook.program begun) .done) ∨
    turns size arena = .taken .done ∧ Size.bound ≤ arena.stats.hookInvocations + 1 ∧
      ∃ after, acquire size arena = .error .overflow after

/-- A block that the host will not move is moved by a request for a new one. -/
structure Moved (oldSize : Nat) (addr : Addr) (newSize : Nat) (arena : Arena σ ω) : Prop where
  settled : ∀ outcome after, resizeInPlace oldSize addr newSize arena = .ok (some outcome) after →
    resize oldSize addr newSize arena = .ok outcome after ∧ resizeTurns turns oldSize addr newSize arena = .done
  denied : ∀ middle, resizeInPlace oldSize addr newSize arena = .ok none middle →
    resize oldSize addr newSize arena = replaceWith acquire oldSize addr newSize middle ∧
      resizeTurns turns oldSize addr newSize arena = turns newSize middle ∧
      middle.hook = arena.hook ∧ Counted 0 arena middle

section Answers

variable {len : Nat} {host : σ} (rounded : arena.blockLen size = .ok (some len))
include rounded

theorem request_of_granted {block : Addr} (answered : Host.request len arena.machine.host = .ok (some block) host)
    (few : arena.stats.liveBlocks + 1 < Size.bound) (small : arena.stats.mappedBytes + len < Size.bound) :
    ∃ after, request size arena = .ok (some block) after ∧ after.hook = arena.hook ∧
      after.Recorded len (some block) host arena := by
  have ends : (request size).Ends arena fun granted after => granted = some block ∧ after.hook = arena.hook ∧
      after.Recorded len (some block) host arena := by
    simp only [request, onMachine, Machine.request, Machine.onHost, Run.meets_bind, Run.meets_get,
      Run.meets_lift rounded, Run.meets_focus]
    refine .ended answered ?_
    simp only [Machine.setMemory, Machine.note, recordMapped, setStats, Run.meets_bind, Run.meets_get,
      Run.meets_modify, Run.meets_lift (Size.add_ok few), Run.meets_lift (Size.add_ok small), Run.meets_pure]
    exact ⟨trivial, trivial, rfl, rfl⟩
  obtain ⟨_, after, ran, rfl, kept, answered⟩ := ends.exists_ok
  exact ⟨after, ran, kept, answered⟩

theorem request_of_denied (answered : Host.request len arena.machine.host = .ok none host) :
    ∃ denied, request size arena = .ok none denied ∧ denied.Recorded len none host arena := by
  have ends : (request size).Ends arena fun granted denied => granted = none ∧
      denied.Recorded len none host arena := by
    simp only [request, onMachine, Machine.request, Machine.onHost, Run.meets_bind, Run.meets_get,
      Run.meets_lift rounded, Run.meets_focus]
    refine .ended answered ?_
    simp only [Machine.note, Run.meets_bind, Run.meets_modify, Run.meets_pure]
    exact ⟨trivial, rfl, rfl⟩
  obtain ⟨_, denied, ran, rfl, answered⟩ := ends.exists_ok
  exact ⟨denied, ran, answered⟩

end Answers

theorem ask_granted {block : Addr} {after : Arena σ ω} (granted : request size arena = .ok (some block) after) :
    ask size arena = .ok (some block) after :=
  (Run.bind_ok granted _).trans rfl

theorem ask_denied (calm : Host.Calm σ) {denied : Arena σ ω} (refused : request size arena = .ok none denied) :
    ∃ told, ask size arena = .ok none told ∧ told.hook = arena.hook ∧ Counted 0 arena told := by
  have asked : ask size arena = .ok none _ := (Run.bind_ok refused _).trans rfl
  exact ⟨_, asked, watch_eq ((keeps_ask calm size arena).of_ok asked)⟩

omit [Host σ] in
/-- The run of a hook starts with an empty slot, unless it can no longer be counted. -/
theorem detach_cases (size : Nat) (arena : Arena σ ω) :
    (∃ begun, detach size arena = .ok () begun ∧ begun.hook = none ∧ Counted 1 arena begun) ∨
      Size.bound ≤ arena.stats.hookInvocations + 1 ∧ ∃ after, detach size arena = .error .overflow after := by
  have spec := detach_spec size arena
  cases ran : detach size arena with
  | ok _ begun =>
    obtain ⟨bare, counted, -⟩ := spec.of_ok ran
    exact .inl ⟨begun, rfl, bare, counted⟩
  | error fault after =>
    obtain ⟨rfl, full, -⟩ := spec.of_error ran
    exact .inr ⟨full, after, rfl⟩

theorem decided (calm : Host.Calm σ) (size : Nat) (arena : Arena σ ω) : Decided size arena := by
  obtain ⟨unfolded, unfolded'⟩ := acquire_unfold calm size arena
  rw [acquireOr_eq] at unfolded
  have granted : ∀ block after, request size arena = .ok (some block) after →
      acquire size arena = .ok (.ok block) after ∧ turns size arena = .done := by
    intro block after granted
    have asked := ask_granted granted
    rw [unfolded, unfolded', acquireTurns, following_ok asked, Run.bind_ok asked]
    exact ⟨rfl, rfl⟩
  refine ⟨granted, fun len block host rounded answered few small => ?_, fun len host => request_of_denied,
    fun unrepresentable => ?_, fun denied refused bare => ?_, fun denied hook refused installed => ?_⟩
  · obtain ⟨after, ran, kept, answered⟩ := request_of_granted rounded answered few small
    obtain ⟨served, calm⟩ := granted block after ran
    exact ⟨after, served, calm, kept, answered⟩
  · rw [request, Run.get_bind, unrepresentable]
    rfl
  · obtain ⟨told, asked, slot, -⟩ := ask_denied calm refused
    rw [unfolded, unfolded', acquireTurns, following_ok asked, Run.bind_ok asked]
    dsimp only
    rw [Run.get_bind, slot, bare]
    exact ⟨⟨_, rfl⟩, rfl⟩
  · obtain ⟨told, asked, slot, counted⟩ := ask_denied calm refused
    rw [unfolded, unfolded', acquireTurns, following_ok asked, Run.bind_ok asked]
    dsimp only
    rw [Run.get_bind, slot, installed]
    dsimp only
    rw [escalateWith_eq, hookTurns]
    rcases detach_cases size told with ⟨begun, ran, bare, counted'⟩ | ⟨full, after, failed⟩
    · rw [Run.bind_ok ran, ran]
      exact .inl ⟨begun, bare, counted.trans counted', rfl, rfl⟩
    · rw [Run.bind_error failed, failed]
      rw [counted.invocations] at full
      exact .inr ⟨rfl, full, after, rfl⟩

theorem moved (calm : Host.Calm σ) (oldSize : Nat) (addr : Addr) (newSize : Nat) (arena : Arena σ ω) :
    Moved oldSize addr newSize arena := by
  refine ⟨fun outcome after settled => ?_, fun middle denied => ?_⟩
  · rw [resize, resizeWith_eq, resizeTurns, following_ok settled, Run.bind_ok settled]
    exact ⟨rfl, rfl⟩
  · rw [resize, resizeWith_eq, resizeTurns, following_ok denied, Run.bind_ok denied]
    exact ⟨rfl, rfl, watch_eq ((keeps_resizeInPlace calm oldSize addr newSize arena).of_ok denied)⟩

omit [Host σ] in
theorem Follows.toDisciplined {run : Run (Arena σ ω) Outcome} {turns : Turns ω} {depth : Nat}
    (follows : Follows depth run arena turns) (once : Once run turns arena) : Disciplined run turns arena := by
  refine ⟨once, follows.orderly, follows.orderly.fresh follows.below, ?_, ?_, ?_⟩
  · exact fun after failed => (follows.meets.of_error failed).1 rfl
  · exact follows.meets.mono (fun _ _ ended => ended.2) fun _ _ stopped => stopped.2
  · intro outcome after ran
    have settled := (follows.meets.of_ok ran).1
    refine ⟨settled, ?_⟩
    rcases once with rfl | ⟨hook, inside, installed, rfl⟩ | ⟨-, -, after', failed⟩
    · rw [settled, Turns.settle]
    · rw [settled, installed, Turns.settle, Turns.settle, Option.isSome_or]
      exact Bool.or_true _
    · rw [failed] at ran
      cases ran

theorem acquire_once (calm : Host.Calm σ) (size : Nat) (arena : Arena σ ω) :
    Once (acquire size) (turns size arena) arena := by
  have decided := decided calm size arena
  cases asked : request size arena with
  | error fault after =>
    have failed : ask size arena = .error fault after := Run.bind_error asked _
    left
    rw [(acquire_unfold calm size arena).2, acquireTurns, following_error failed]
  | ok granted after =>
    cases granted with
    | some block => exact .inl (decided.granted block after asked).2
    | none =>
      cases installed : arena.hook with
      | none => exact .inl (decided.unaided after asked installed).2
      | some hook =>
        refine .inr ((decided.aided after hook asked installed).imp_left ?_)
        rintro ⟨begun, -, -, -, ran⟩
        exact ⟨hook, _, installed, ran⟩

theorem resize_once (calm : Host.Calm σ) (oldSize : Nat) (addr : Addr) (newSize : Nat) (arena : Arena σ ω) :
    Once (resize oldSize addr newSize) (resizeTurns turns oldSize addr newSize arena) arena := by
  have moved := moved calm oldSize addr newSize arena
  cases placed : resizeInPlace oldSize addr newSize arena with
  | error fault after =>
    left
    rw [resizeTurns, following_error placed]
  | ok settled middle =>
    cases settled with
    | some outcome => exact .inl (moved.settled outcome middle placed).2
    | none =>
      obtain ⟨same, same', slot, counted⟩ := moved.denied middle placed
      rw [Once, same', same, ← slot]
      refine (acquire_once calm newSize middle).imp_right (.imp_right ?_)
      rintro ⟨lost, full, after, failed⟩
      rw [counted.invocations] at full
      exact ⟨lost, full, after, Run.bind_error failed _⟩

/-- Escalation goes by these rules in any state of an arena and with any hooks. -/
theorem disciplined (calm : Host.Calm σ) (arena : Arena σ ω) :
    (∀ size, Disciplined (acquire size) (turns size arena) arena ∧ Decided size arena) ∧
    (∀ oldSize addr newSize,
      Disciplined (resize oldSize addr newSize) (resizeTurns turns oldSize addr newSize arena) arena ∧
        Moved oldSize addr newSize arena) ∧
    ∀ size, acquire size arena = acquireOr (fun hook => escalateWith acquire hook size) size arena := by
  refine ⟨fun size => ⟨?_, decided calm size arena⟩,
    fun oldSize addr newSize => ⟨?_, moved calm oldSize addr newSize arena⟩,
      fun size => (acquire_unfold calm size arena).1⟩
  · exact (acquire_follows calm _ size arena (Nat.le_refl _)).toDisciplined (acquire_once calm size arena)
  · exact (resize_follows calm oldSize addr newSize arena).toDisciplined
      (resize_once calm oldSize addr newSize arena)

def fallback : Hook Unit :=
  ⟨[.answer fun _ => some 64]⟩

/-- A hook that puts another one in its place and asks again. -/
def delegating : Hook Unit :=
  ⟨[.install fallback.programs (.perform (fun requested _ => .acquire requested) (fun _ _ => ())
    (.answer fun _ => none))]⟩

def cramped : Arena (Quota Kernel) Unit :=
  { Arena.new (Machine.new (.new .new 4096)) () with hook := some delegating }

theorem disciplined_of_cramped :
    Host.Calm (Quota Kernel) ∧
    turns 8192 cramped = .ran delegating (.installed fallback (.ran fallback .done .done)) .done ∧
      Disciplined (acquire 8192) (.ran delegating (.installed fallback (.ran fallback .done .done)) .done)
        cramped := by
  have taken : turns 8192 cramped = .ran delegating (.installed fallback (.ran fallback .done .done)) .done := by
    rfl
  exact ⟨Quota.calm Kernel.calm, taken, taken ▸ ((disciplined (Quota.calm Kernel.calm) cramped).1 8192).1⟩

end SlabAllocator.Arena
