import SlabAllocator.Client.Session
import SlabAllocator.Proofs.Conservation

/-! Pools, the allocator and its client reach the counters through the arena alone, so they keep in step with
the calls however these layers are stacked, and in sessions of any length. -/

namespace SlabAllocator

namespace Pool

/-- An action of a pool that leaves the counters of its arena in step with the calls. -/
abbrev Conserves (action : Action σ ω α) : Prop :=
  Run.Conserves (·.2.footing) action

theorem conserves_onArena {action : Run (Arena σ ω) α} (kept : Arena.Conserves action) :
    Conserves (onArena action) :=
  kept.focus fun _ _ same => same

theorem conserves_put (pool : Pool) : Conserves (put pool : Action σ ω Unit) :=
  .modify fun _ => rfl

theorem conserves_create (entitySize pageSize interval : Nat) :
    Arena.Conserves (create entitySize pageSize interval : Run (Arena σ ω) _) := by
  refine .bind Run.Conserves.lift fun geometry? => ?_
  cases geometry? with
  | none => exact .pure _
  | some geometry => exact .bind (Arena.conserves_say _) fun _ => .pure _

theorem conserves_memory : Conserves (onArena Arena.memory : Action σ ω Memory) :=
  conserves_onArena Arena.conserves_memory

theorem conserves_setMemory (memory : Memory) : Conserves (onArena (Arena.setMemory memory) : Action σ ω Unit) :=
  conserves_onArena (Arena.conserves_setMemory memory)

theorem conserves_say (message : Message) : Conserves (onArena (Arena.say message) : Action σ ω Unit) :=
  conserves_onArena (Arena.conserves_say message)

theorem conserves_setFrames (changed : Chain × Memory) : Conserves (setFrames changed : Action σ ω Unit) :=
  .bind (conserves_setMemory _) fun _ => .bind .get fun _ => conserves_put _

variable [Host σ]

theorem conserves_grow : Conserves (grow : Action σ ω Outcome) := by
  refine .bind .get fun state => .bind (conserves_onArena (Arena.conserves_acquire _)) fun outcome => ?_
  cases outcome with
  | error error => exact .pure _
  | ok base =>
    refine .bind conserves_memory fun _ => .bind .get fun _ => .bind Run.Conserves.lift fun changed => ?_
    refine .bind (conserves_setFrames changed) fun _ => .bind conserves_memory
      fun _ => .bind (conserves_setMemory _) fun _ => ?_
    exact .bind .get fun _ => .bind (conserves_put _) fun _ => .bind (conserves_say _) fun _ => .pure _

theorem conserves_acquire : Conserves (acquire : Action σ ω Outcome) := by
  refine .bind .get fun state => .bind conserves_memory fun memory => .bind Run.Conserves.lift fun first? => ?_
  cases first? with
  | some first => exact .bind (conserves_setMemory _) fun _ => .pure _
  | none =>
    refine .bind conserves_grow fun outcome => ?_
    cases outcome with
    | error error => exact .pure _
    | ok frame =>
      refine .bind conserves_memory fun memory => .bind ?_ fun slot? => ?_
      · apply Run.Conserves.lift
      cases slot? with
      | none => exact .pure _
      | some slot =>
        refine .bind ?_ fun placed => ?_
        · apply Run.Conserves.lift
        · exact .bind (conserves_setMemory _) fun _ => .pure _

theorem conserves_dropFrame (frame : Addr) : Conserves (dropFrame frame : Action σ ω Unit) := by
  refine .bind .get fun state => .bind conserves_memory fun memory => .bind ?_ fun changed => ?_
  · apply Run.Conserves.lift
  refine .bind (conserves_setFrames changed)
    fun _ => .bind (conserves_onArena (Arena.conserves_release _ _)) fun _ => ?_
  exact .bind .get fun _ => .bind (conserves_put _) fun _ => conserves_say _

theorem conserves_dropWhileMany : ∀ frames : List Addr, Conserves (dropWhileMany frames : Action σ ω Nat)
  | [] => .pure _
  | frame :: rest => by
    refine .bind .get fun state => ?_
    split
    · exact .pure _
    · exact .bind (conserves_dropFrame frame) fun _ => .bind (conserves_dropWhileMany rest)
        fun _ => Run.Conserves.lift

theorem conserves_compact : Conserves (compact : Action σ ω Nat) := by
  refine .bind conserves_memory fun memory => .bind .get fun state => .bind Run.Conserves.lift fun frames => ?_
  refine .bind (conserves_dropWhileMany _) fun released => .bind .get fun state => ?_
  dsimp only
  split
  · exact .bind (conserves_say _) fun _ => .pure _
  · exact .pure _

theorem conserves_release (addr : Addr) : Conserves (release addr : Action σ ω Unit) := by
  refine .bind .get fun state => ?_
  dsimp only
  cases state.1.owner? addr with
  | none => exact Run.Conserves.throw
  | some frame =>
    refine .bind conserves_memory fun memory => .bind Run.Conserves.lift fun offset => .bind ?_ fun changed => ?_
    · apply Run.Conserves.lift
    refine .bind (conserves_setMemory _) fun _ => .bind Run.Conserves.lift fun releases => ?_
    split
    · exact .bind (conserves_put _) fun _ => .bind conserves_compact fun _ => .pure _
    · exact conserves_put _

theorem conserves_dropAll : ∀ frames : List Addr, Conserves (dropAll frames : Action σ ω Unit)
  | [] => .pure _
  | frame :: rest => .bind (conserves_dropFrame frame) fun _ => conserves_dropAll rest

theorem conserves_destroy : Conserves (destroy : Action σ ω Unit) := by
  refine .bind .get fun state => .bind conserves_memory fun memory => .bind Run.Conserves.lift fun frames => ?_
  refine .bind (conserves_dropAll frames) fun _ => .bind .get fun state => conserves_onArena ?_
  unfold farewell
  split
  · exact Arena.conserves_say _
  · exact .pure _

end Pool

namespace Allocator

abbrev Conserves (run : Run (Allocator σ ω) α) : Prop :=
  run.Conserves (·.arena.footing)

theorem conserves_onArena {action : Run (Arena σ ω) α} (kept : Arena.Conserves action) :
    Conserves (onArena action) :=
  kept.focus fun _ _ same => same

theorem conserves_onEntry (index : Nat) (pool : Pool) {action : Pool.Action σ ω α}
    (kept : Pool.Conserves action) : Conserves (onEntry index pool action) :=
  kept.focus fun _ _ same => same

theorem conserves_openPool (index entitySize : Nat) :
    Conserves (openPool index entitySize : Run (Allocator σ ω) _) := by
  refine .bind .get fun allocator => .bind Run.Conserves.lift fun entry => ?_
  cases entry with
  | some pool => exact .pure _
  | none =>
    refine .bind (conserves_onArena (Pool.conserves_create _ _ _)) fun outcome => ?_
    cases outcome with
    | error error => exact .pure _
    | ok pool => exact .bind (.modify fun _ => rfl) fun _ => .pure _

variable [Host σ]

theorem conserves_alloc (size : Nat) : Conserves (alloc size : Run (Allocator σ ω) Outcome) := by
  refine .bind .get fun allocator => .bind Run.Conserves.lift fun kind => ?_
  cases kind with
  | pool entitySize =>
    refine .bind .get fun allocator => .bind Run.Conserves.lift fun index => .bind (conserves_openPool _ _)
      fun outcome => ?_
    cases outcome with
    | error error => exact .pure _
    | ok pool => exact conserves_onEntry index pool Pool.conserves_acquire
  | arena pages => exact conserves_onArena (Arena.conserves_acquire size)

theorem conserves_free (size : Nat) (addr : Addr) : Conserves (free size addr : Run (Allocator σ ω) Unit) := by
  refine .bind .get fun allocator => .bind Run.Conserves.lift fun kind => ?_
  cases kind with
  | pool entitySize =>
    refine .bind .get fun allocator => .bind Run.Conserves.lift fun index => .bind .get fun allocator => ?_
    refine .bind Run.Conserves.lift fun entry => ?_
    cases entry with
    | none => exact Run.Conserves.throw
    | some pool => exact conserves_onEntry index pool (Pool.conserves_release addr)
  | arena pages => exact conserves_onArena (Arena.conserves_release size addr)

theorem conserves_realloc (size : Nat) (addr : Addr) (newSize : Nat) :
    Conserves (realloc size addr newSize : Run (Allocator σ ω) Outcome) := by
  refine .bind .get fun allocator => .bind Run.Conserves.lift fun source => .bind .get fun allocator => ?_
  refine .bind Run.Conserves.lift fun target => ?_
  split
  · exact .pure _
  split
  · exact conserves_onArena (Arena.conserves_resize size addr newSize)
  · refine .bind (conserves_alloc newSize) fun outcome => ?_
    cases outcome with
    | error error => exact .pure _
    | ok fresh =>
      refine .bind (conserves_onArena (.bind Arena.conserves_memory fun _ => Arena.conserves_setMemory _))
        fun _ => ?_
      exact .bind (conserves_free size addr) fun _ => .pure _

theorem conserves_releaseSlot (addr : Addr) : Conserves (releaseSlot addr : Run (Allocator σ ω) Unit) := by
  refine .bind .get fun allocator => ?_
  dsimp only
  split
  · refine .bind Run.Conserves.lift fun entry => ?_
    cases entry with
    | none => exact Run.Conserves.throw
    | some pool => exact conserves_onEntry _ pool (Pool.conserves_release addr)
  · exact Run.Conserves.throw

theorem conserves_protect (size : Nat) (addr : Addr) (mode : Protection) :
    Conserves (protect size addr mode : Run (Allocator σ ω) Unit) := by
  refine .bind .get fun allocator => .bind Run.Conserves.lift fun kind => ?_
  cases kind with
  | pool entitySize => exact Run.Conserves.throw
  | arena pages => exact conserves_onArena (Arena.conserves_protect size addr mode)

theorem conserves_compactFrom (index count : Nat) :
    Conserves (compactFrom index count : Run (Allocator σ ω) Nat) := by
  induction count generalizing index with
  | zero => exact .pure _
  | succ count ih =>
    refine .bind .get fun allocator => ?_
    split
    next pool _ =>
      refine .bind (conserves_onEntry index pool Pool.conserves_compact) fun released => ?_
      exact .bind (ih (index + 1)) fun _ => Run.Conserves.lift
    next => exact ih (index + 1)

theorem conserves_compactAll : Conserves (compactAll : Run (Allocator σ ω) Nat) :=
  .bind .get fun _ => conserves_compactFrom 0 _

omit [Host σ] in
theorem conserves_createPool (entitySize : Nat) : Conserves (createPool entitySize : Run (Allocator σ ω) _) :=
  .bind .get fun _ => conserves_onArena (Pool.conserves_create _ _ _)

theorem conserves_destroyFrom (index count : Nat) :
    Conserves (destroyFrom index count : Run (Allocator σ ω) Unit) := by
  induction count generalizing index with
  | zero => exact .pure _
  | succ count ih =>
    refine .bind .get fun allocator => ?_
    dsimp only
    split
    next pool _ =>
      refine .bind (conserves_onEntry index pool Pool.conserves_destroy) fun _ => ?_
      exact .bind (.modify fun _ => rfl) fun _ => ih (index + 1)
    next => exact ih (index + 1)

theorem conserves_teardown : Conserves (teardown : Run (Allocator σ ω) Unit) :=
  .bind .get fun _ => conserves_destroyFrom 0 _

end Allocator

namespace Session

abbrev Conserves (run : Run (Session σ ω) α) : Prop :=
  run.Conserves (·.arena.footing)

theorem conserves_onAllocator {action : Run (Allocator σ (Books ω)) α} (kept : Allocator.Conserves action) :
    Conserves (onAllocator action) :=
  kept.focus fun _ _ same => same

theorem conserves_onArena {action : Run (Arena σ (Books ω)) α} (kept : Arena.Conserves action) :
    Conserves (onArena action) :=
  conserves_onAllocator (Allocator.conserves_onArena kept)

/-- A pool of the client at work: both ways around it, the arena is the same one. -/
theorem conserves_onDedicated (number : Nat) (pool : Pool) {action : Pool.Action σ (Books ω) α}
    (kept : Pool.Conserves action) :
    Conserves (onDedicated number pool (Allocator.onDedicated action)) := by
  have around : Run.Conserves (fun state : Pool × Allocator σ (Books ω) => state.2.arena.footing)
      (Allocator.onDedicated action) :=
    kept.focus fun _ _ same => same
  exact around.focus fun _ _ same => same

theorem conserves_gain (entry : Option Nat) (size addr : Nat) :
    Conserves (modify fun session : Session σ ω => session.gain entry size addr) :=
  .modify fun session => by cases entry <;> rfl

theorem conserves_drop (grant : Grant) : Conserves (modify fun session : Session σ ω => session.drop grant) :=
  .modify fun session => by cases grant <;> rfl

theorem conserves_restore (grant : Grant) :
    Conserves (modify fun session : Session σ ω => session.restore grant) :=
  .modify fun session => by cases grant <;> rfl

theorem conserves_createPool (entitySize : Nat) : Conserves (createPool entitySize : Run (Session σ ω) Unit) := by
  refine .bind (conserves_onAllocator (Allocator.conserves_createPool entitySize)) fun outcome => ?_
  cases outcome with
  | ok pool => exact .modify fun _ => rfl
  | error error => exact .pure _

theorem conserves_write (addr : Addr) (offset : Nat) (bytes : List UInt8) :
    Conserves (write addr offset bytes : Run (Session σ ω) Unit) := by
  refine .bind .get fun session => ?_
  dsimp only
  split
  · exact conserves_onArena (Arena.conserves_setMemory _)
  · exact .pure _

variable [Host σ]

theorem conserves_alloc (size : Nat) : Conserves (alloc size : Run (Session σ ω) Outcome) := by
  refine .bind (conserves_onAllocator (Allocator.conserves_alloc size)) fun outcome => ?_
  cases outcome with
  | error error => exact .pure _
  | ok addr =>
    exact .bind .get fun _ => .bind Run.Conserves.lift fun entry =>
      .bind (conserves_gain entry size addr) fun _ => .pure _

theorem conserves_free (size : Nat) (addr : Addr) : Conserves (free size addr : Run (Session σ ω) Unit) := by
  refine .bind .get fun session => .bind Run.Conserves.lift fun entry => .bind .get fun session => ?_
  split
  · exact .bind (conserves_drop _) fun _ => conserves_onAllocator (Allocator.conserves_free size addr)
  · exact .pure _

theorem conserves_realloc (size : Nat) (addr : Addr) (newSize : Nat) :
    Conserves (realloc size addr newSize : Run (Session σ ω) (Option Outcome)) := by
  refine .bind .get fun session => .bind Run.Conserves.lift fun entry => .bind .get fun session => ?_
  refine .bind Run.Conserves.lift fun target => .bind .get fun session => ?_
  split
  · refine .bind (conserves_drop _) fun _ => ?_
    refine .bind (conserves_onAllocator (Allocator.conserves_realloc size addr newSize)) fun outcome => ?_
    cases outcome with
    | ok moved => exact .bind (conserves_gain target newSize moved) fun _ => .pure _
    | error error => exact .bind (conserves_restore _) fun _ => .pure _
  · exact .pure _

theorem conserves_releaseSlot (addr : Addr) : Conserves (releaseSlot addr : Run (Session σ ω) Unit) := by
  refine .bind .get fun session => ?_
  split
  · exact .bind (conserves_drop _) fun _ => conserves_onAllocator (Allocator.conserves_releaseSlot addr)
  · exact .pure _

theorem conserves_protect (size : Nat) (addr : Addr) (mode : Protection) :
    Conserves (protect size addr mode : Run (Session σ ω) Unit) := by
  refine .bind .get fun session => .bind Run.Conserves.lift fun entry => .bind .get fun session => ?_
  split
  · exact conserves_onAllocator (Allocator.conserves_protect size addr mode)
  · exact .pure _

theorem conserves_poolAcquire (number : Nat) : Conserves (poolAcquire number : Run (Session σ ω) Unit) := by
  refine .bind .get fun session => ?_
  split
  next pool _ =>
    refine .bind (conserves_onDedicated number pool Pool.conserves_acquire) fun outcome => ?_
    cases outcome with
    | ok addr => exact .modify fun _ => rfl
    | error error => exact .pure _
  next => exact .pure _

theorem conserves_poolRelease (number : Nat) (addr : Addr) :
    Conserves (poolRelease number addr : Run (Session σ ω) Unit) := by
  refine .bind .get fun session => ?_
  split
  next pool _ =>
    refine .bind .get fun session => ?_
    split
    · exact .bind (conserves_drop _) fun _ => conserves_onDedicated number pool (Pool.conserves_release addr)
    · exact .pure _
  next => exact .pure _

theorem conserves_compactPool (number : Nat) : Conserves (compactPool number : Run (Session σ ω) Unit) := by
  refine .bind .get fun session => ?_
  split
  next pool _ => exact .bind (conserves_onDedicated number pool Pool.conserves_compact) fun _ => .pure _
  next => exact .pure _

theorem conserves_destroyPool (number : Nat) : Conserves (destroyPool number : Run (Session σ ω) Unit) := by
  refine .bind .get fun session => ?_
  split
  next pool _ =>
    exact .bind (conserves_onDedicated number pool Pool.conserves_destroy) fun _ => .modify fun _ => rfl
  next => exact .pure _

theorem conserves_acquire (size : Nat) : Conserves (acquire size : Run (Session σ ω) Outcome) := by
  refine .bind (conserves_onArena (Arena.conserves_acquire size)) fun outcome => ?_
  cases outcome with
  | error error => exact .pure _
  | ok addr => exact .bind (conserves_gain none size addr) fun _ => .pure _

theorem conserves_resize (size : Nat) (addr : Addr) (newSize : Nat) :
    Conserves (resize size addr newSize : Run (Session σ ω) (Option Outcome)) := by
  refine .bind .get fun session => ?_
  split
  · refine .bind (conserves_drop _) fun _ => ?_
    refine .bind (conserves_onArena (Arena.conserves_resize size addr newSize)) fun outcome => ?_
    cases outcome with
    | ok moved => exact .bind (conserves_gain none newSize moved) fun _ => .pure _
    | error error => exact .bind (conserves_restore _) fun _ => .pure _
  · exact .pure _

theorem conserves_release (size : Nat) (addr : Addr) :
    Conserves (release size addr : Run (Session σ ω) Unit) := by
  refine .bind .get fun session => ?_
  split
  · exact .bind (conserves_drop _) fun _ => conserves_onArena (Arena.conserves_release size addr)
  · exact .pure _

theorem conserves_protectBlock (size : Nat) (addr : Addr) (mode : Protection) :
    Conserves (protectBlock size addr mode : Run (Session σ ω) Unit) := by
  refine .bind .get fun session => ?_
  split
  · exact conserves_onArena (Arena.conserves_protect size addr mode)
  · exact .pure _

theorem conserves_step (op : Op ω) : Conserves (step op : Run (Session σ ω) Unit) := by
  cases op with
  | alloc size => exact .bind (conserves_alloc size) fun _ => .pure _
  | free size addr => exact conserves_free size addr
  | realloc size addr newSize => exact .bind (conserves_realloc size addr newSize) fun _ => .pure _
  | releaseSlot addr => exact conserves_releaseSlot addr
  | protect size addr mode => exact conserves_protect size addr mode
  | compactAll => exact .bind (conserves_onAllocator Allocator.conserves_compactAll) fun _ => .pure _
  | createPool entitySize => exact conserves_createPool entitySize
  | poolAcquire number => exact conserves_poolAcquire number
  | poolRelease number addr => exact conserves_poolRelease number addr
  | compactPool number => exact conserves_compactPool number
  | destroyPool number => exact conserves_destroyPool number
  | acquire size => exact .bind (conserves_acquire size) fun _ => .pure _
  | resize size addr newSize => exact .bind (conserves_resize size addr newSize) fun _ => .pure _
  | release size addr => exact conserves_release size addr
  | protectBlock size addr mode => exact conserves_protectBlock size addr mode
  | setHook programs => exact .bind .get fun _ => conserves_onArena (Arena.conserves_setHook _)
  | write addr offset bytes => exact conserves_write addr offset bytes
  | change f => exact .modify fun _ => rfl
  | teardown => exact .bind (conserves_onAllocator Allocator.conserves_teardown) fun _ => .modify fun _ => rfl

/-- However long the client goes on, and whatever the hooks do meanwhile. -/
theorem conserves_run : ∀ ops : List (Op ω), Conserves (run ops : Run (Session σ ω) Unit)
  | [] => .pure _
  | op :: rest => .bind (conserves_step op) fun _ => conserves_run rest

end Session

end SlabAllocator
