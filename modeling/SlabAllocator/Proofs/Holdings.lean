import SlabAllocator.Client.Session
import SlabAllocator.Proofs.Run

/-! What an operation does to the client's side of a session. Whatever the allocator does meanwhile, the slots
in the hands of the client and the pools that it created change in a few ways only, so that what survives each
of them survives the operation. An operation lets go of the slots that it names, for one thing, and all the
others stay. -/

namespace SlabAllocator

def Op.LetsGo (slot : Slot) : Op ω → Prop
  | .free size addr | .realloc size addr _ => slot.source.isRegistry = true ∧ slot.addr = addr ∧ slot.size = size
  | .releaseSlot addr => slot.source.isRegistry = true ∧ slot.addr = addr
  | .poolRelease number addr => slot.source = .dedicated number ∧ slot.addr = addr
  | .destroyPool number => slot.source = .dedicated number
  | .teardown => slot.source.isRegistry = true
  | _ => False

namespace Session

variable {start session : Session σ ω} {grant : Grant} {slot : Slot} {op : Op ω} {size addr newSize number : Nat}

/-- One of the changes that make up an operation, in a session that was `start` when the operation began. -/
inductive Edit (start : Session σ ω) : Op ω → Session σ ω → Session σ ω → Prop
  | work {op : Op ω} {before : Session σ ω} (allocator : Allocator σ (Books ω)) :
    Edit start op before { before with allocator }
  | drop {op : Op ω} {before : Session σ ω} {grant : Grant}
    (named : ∀ slot, grant = .slot slot → op.LetsGo slot) :
    Edit start op before (before.drop grant)
  | restore {op : Op ω} {before : Session σ ω} {entry : Option Nat} {size addr : Nat} {grant : Grant}
    (found : start.find? entry size addr = some grant) : Edit start op before (before.restore grant)
  | gain {op : Op ω} {before : Session σ ω} {entry : Option Nat} {size : Nat} (addr : Addr)
    (routed : start.route size = .ok entry ∨ entry = none) : Edit start op before (before.gain entry size addr)
  /-- What the allocator has served is entered where its size belongs by then. -/
  | enter {size : Nat} {before : Session σ ω} (entry : Option Nat) (addr : Addr) :
    Edit start (.alloc size) before (before.gain entry size addr)
  | aside {op : Op ω} {before : Session σ ω} {number : Nat} {pool : Pool}
    (allocator : Allocator σ (Books ω)) (after : Pool)
    (here : start.dedicated[number]?.join = some pool) :
    Edit start op before
      { before with allocator, dedicated := before.dedicated.setIfInBounds number (some after) }
  | take {op : Op ω} {before : Session σ ω} (number : Nat) (addr : Addr) (size : Nat) :
    Edit start op before { before with slots := ⟨.dedicated number, addr, size⟩ :: before.slots }
  | push {op : Op ω} {before : Session σ ω} {pool : Pool} (empty : pool.frames = .empty) :
    Edit start op before { before with dedicated := before.dedicated.push (some pool) }
  | retire {before : Session σ ω} (number : Nat) : Edit start (.destroyPool number) before { before with
      dedicated := before.dedicated.setIfInBounds number none
      slots := before.slots.filter (·.source != .dedicated number) }
  | close {before : Session σ ω} :
    Edit start .teardown before { before with slots := before.slots.filter fun slot => !slot.source.isRegistry }

abbrev Survives (start : Session σ ω) (op : Op ω) (holds : Session σ ω → Prop) : Prop :=
  ∀ before after, Edit start op before after → holds before → holds after

abbrev Retains (holds : Session σ ω → Prop) (run : Run (Session σ ω) α) (session : Session σ ω) : Prop :=
  run.Meets session (fun _ after => holds after) fun _ _ => True

section Rule

variable {holds : Session σ ω → Prop}

private theorem retains_allocator (survives : Survives start op holds) (action : Run (Allocator σ (Books ω)) α)
    (held : holds session) : Retains holds (onAllocator action) session := by
  simp only [Retains, onAllocator, Run.meets_focus]
  exact .any fun _ allocator => survives _ _ (.work allocator) held

private theorem retains_dedicated (survives : Survives start op holds) {pool : Pool}
    (here : start.dedicated[number]?.join = some pool) (action : Run (Pool × Allocator σ (Books ω)) α)
    (held : holds session) : Retains holds (onDedicated number pool action) session := by
  simp only [Retains, onDedicated, Run.meets_focus]
  exact .any fun _ after => survives _ _ (.aside after.2 after.1 here) held

private theorem retains_createPool (survives : Survives start op holds) (held : holds session)
    (entitySize : Nat) : Retains holds (createPool entitySize) session := by
  simp only [Retains, createPool, onAllocator, Allocator.createPool, Allocator.onArena, Pool.create,
    Run.meets_bind, Run.meets_focus, Run.meets_get]
  refine Run.meets_lift_any fun geometry? _ => ?_
  cases geometry? with
  | none =>
    simp only [Run.meets_pure]
    exact survives _ _ (.work _) held
  | some geometry =>
    simp only [Arena.say, Arena.onMachine, Run.meets_bind, Run.meets_focus, Run.meets_modify, Run.meets_pure]
    exact survives _ _ (.push rfl) (survives _ _ (.work _) held)

/-- A block that is found by its size and address. If it is a slot, then it is one of the registry. -/
private theorem find?_named {entry : Option Nat}
    (found : session.find? entry size addr = some grant) (slot : Slot)
    (same : grant = .slot slot) : slot.source.isRegistry = true ∧ slot.addr = addr ∧ slot.size = size := by
  subst same
  cases entry with
  | some index =>
    obtain ⟨_, inside, same⟩ := Option.map_eq_some_iff.mp found
    cases same
    have matched := List.find?_some inside
    simp only [beq_iff_eq] at matched
    subst matched
    exact ⟨rfl, rfl, rfl⟩
  | none =>
    obtain ⟨_, -, same⟩ := Option.map_eq_some_iff.mp found
    cases same

private theorem find?_block (found : session.find? none size addr = some grant) (slot : Slot) :
    grant ≠ .slot slot := by
  obtain ⟨block, -, rfl⟩ := Option.map_eq_some_iff.mp found
  rintro ⟨⟩

/-- A block is out of the client's hands while it moves. -/
private theorem retains_moving (survives : Survives start op holds) {entry target : Option Nat}
    (found : start.find? entry size addr = some grant) (named : ∀ slot, grant = .slot slot → op.LetsGo slot)
    (routed : start.route newSize = .ok target ∨ target = none) (moves : Run (Allocator σ (Books ω)) Outcome)
    (held : holds session) : Retains holds (do
      modify (·.drop grant)
      let outcome ← onAllocator moves
      match outcome with
      | .ok moved => modify (·.gain target newSize moved)
      | .error _ => modify (·.restore grant)
      return some outcome) session := by
  simp only [Retains, Run.meets_bind, Run.meets_modify]
  refine (retains_allocator survives moves (survives _ _ (.drop named) held)).imp fun outcome middle held => ?_
  cases outcome with
  | ok moved =>
    simp only [Run.meets_bind, Run.meets_modify, Run.meets_pure]
    exact survives _ _ (.gain moved routed) held
  | error error =>
    simp only [Run.meets_bind, Run.meets_modify, Run.meets_pure]
    exact survives _ _ (.restore found) held

private theorem retains_freeing (survives : Survives start op holds)
    (named : ∀ slot, grant = .slot slot → op.LetsGo slot) (frees : Run (Allocator σ (Books ω)) Unit)
    (held : holds session) : Retains holds (do
      modify (·.drop grant)
      onAllocator frees) session := by
  simp only [Retains, Run.meets_bind, Run.meets_modify]
  exact retains_allocator survives frees (survives _ _ (.drop named) held)

end Rule

variable [Host σ] {holds : Session σ ω → Prop}

private theorem retains_alloc (survives : Survives session (.alloc size) holds) (held : holds session) :
    Retains holds (alloc size) session := by
  simp only [Retains, alloc, Run.meets_bind]
  refine (retains_allocator survives _ held).imp fun outcome middle held => ?_
  cases outcome with
  | error error => simpa only [Run.meets_pure] using held
  | ok addr =>
    simp only [Run.meets_bind, Run.meets_get, Run.meets_modify, Run.meets_pure]
    exact Run.meets_lift_any fun entry _ => survives _ _ (.enter entry addr) held

private theorem retains_acquire (survives : Survives session op holds) (held : holds session) (size : Nat) :
    Retains holds (acquire size) session := by
  simp only [Retains, acquire, onArena, Run.meets_bind]
  refine (retains_allocator survives _ held).imp fun outcome middle held => ?_
  cases outcome with
  | error error => simpa only [Run.meets_pure] using held
  | ok addr =>
    simp only [Run.meets_bind, Run.meets_modify, Run.meets_pure]
    exact survives _ _ (.gain addr (.inr rfl)) held

private theorem retains_realloc (survives : Survives session (.realloc size addr newSize) holds)
    (held : holds session) : Retains holds (realloc size addr newSize) session := by
  simp only [Retains, realloc, Run.meets_bind, Run.meets_get]
  refine Run.meets_lift_any fun entry _ => Run.meets_lift_any fun target routed => ?_
  cases found : session.find? entry size addr with
  | none => simpa only [Run.meets_pure] using held
  | some grant => exact retains_moving survives found (find?_named found) (.inl routed) _ held

private theorem retains_resize (survives : Survives session op holds) (held : holds session)
    (size addr newSize : Nat) : Retains holds (resize size addr newSize) session := by
  simp only [Retains, resize, onArena, Run.meets_bind, Run.meets_get]
  cases found : session.find? none size addr with
  | none => simpa only [Run.meets_pure] using held
  | some grant =>
    exact retains_moving survives found (fun slot same => absurd same (find?_block found slot)) (.inr rfl) _ held

private theorem retains_poolAcquire (survives : Survives session op holds) (held : holds session) (number : Nat) :
    Retains holds (poolAcquire number) session := by
  simp only [Retains, poolAcquire, Run.meets_bind, Run.meets_get]
  cases here : session.dedicated[number]?.join with
  | none => simpa only [Run.meets_pure] using held
  | some pool =>
    simp only [Run.meets_bind]
    refine (retains_dedicated survives here _ held).imp fun outcome middle held => ?_
    cases outcome with
    | error error => simpa only [Run.meets_pure] using held
    | ok addr =>
      simp only [Run.meets_modify]
      exact survives _ _ (.take number addr pool.entitySize) held

private theorem retains_poolRelease (survives : Survives session (.poolRelease number addr) holds)
    (held : holds session) : Retains holds (poolRelease number addr) session := by
  simp only [Retains, poolRelease, Run.meets_bind, Run.meets_get]
  cases here : session.dedicated[number]?.join with
  | none => simpa only [Run.meets_pure] using held
  | some pool =>
    simp only [Run.meets_bind, Run.meets_get]
    split
    · simp only [Run.meets_bind, Run.meets_modify]
      refine retains_dedicated survives here _ (survives _ _ (.drop ?_) held)
      rintro _ ⟨⟩
      exact ⟨rfl, rfl⟩
    · simpa only [Run.meets_pure] using held

private theorem retains_destroyPool (survives : Survives session (.destroyPool number) holds)
    (held : holds session) : Retains holds (destroyPool number) session := by
  simp only [Retains, destroyPool, Run.meets_bind, Run.meets_get]
  cases here : session.dedicated[number]?.join with
  | none => simpa only [Run.meets_pure] using held
  | some pool =>
    simp only [Run.meets_bind, Run.meets_modify]
    exact (retains_dedicated survives here _ held).imp fun _ middle held => survives _ _ (.retire number) held

/-- What survives every change that an operation makes holds afterwards. -/
theorem step_rule (survives : Survives session op holds) (held : holds session) :
    Retains holds (step op) session := by
  cases op with
  | alloc size => simpa only [Retains, step, Run.meets_bind, Run.meets_pure] using retains_alloc survives held
  | free size addr =>
    simp only [Retains, step, free, Run.meets_bind, Run.meets_get]
    refine Run.meets_lift_any fun entry _ => ?_
    cases found : session.find? entry size addr with
    | none => simpa only [Run.meets_pure] using held
    | some grant => exact retains_freeing survives (find?_named found) _ held
  | realloc size addr newSize =>
    simpa only [Retains, step, Run.meets_bind, Run.meets_pure] using retains_realloc survives held
  | releaseSlot addr =>
    simp only [Retains, step, releaseSlot, Run.meets_bind, Run.meets_get]
    cases found : session.slots.find? fun slot => slot.source.isRegistry && slot.addr == addr with
    | none => simpa only [Run.meets_pure] using held
    | some slot =>
      have matched := List.find?_some found
      simp only [Bool.and_eq_true, beq_iff_eq] at matched
      refine retains_freeing survives ?_ _ held
      rintro _ ⟨⟩
      exact matched
  | protect size addr mode =>
    simp only [Retains, step, protect, Run.meets_bind, Run.meets_get]
    refine Run.meets_lift_any fun entry _ => ?_
    split
    · exact retains_allocator survives _ held
    · simpa only [Run.meets_pure] using held
  | compactAll =>
    simpa only [Retains, step, Run.meets_bind, Run.meets_pure] using retains_allocator survives _ held
  | createPool entitySize => exact retains_createPool survives held entitySize
  | poolAcquire number => exact retains_poolAcquire survives held number
  | poolRelease number addr => exact retains_poolRelease survives held
  | compactPool number =>
    simp only [Retains, step, compactPool, Run.meets_bind, Run.meets_get]
    cases here : session.dedicated[number]?.join with
    | none => simpa only [Run.meets_pure] using held
    | some pool => simpa only [Run.meets_bind, Run.meets_pure] using retains_dedicated survives here _ held
  | destroyPool number => exact retains_destroyPool survives held
  | acquire size =>
    simpa only [Retains, step, Run.meets_bind, Run.meets_pure] using retains_acquire survives held size
  | resize size addr newSize =>
    simpa only [Retains, step, Run.meets_bind, Run.meets_pure] using
      retains_resize survives held size addr newSize
  | release size addr =>
    simp only [Retains, step, release, onArena, Run.meets_bind, Run.meets_get]
    cases found : session.find? none size addr with
    | none => simpa only [Run.meets_pure] using held
    | some grant => exact retains_freeing survives (fun slot same => absurd same (find?_block found slot)) _ held
  | protectBlock size addr mode =>
    simp only [Retains, step, protectBlock, onArena, Run.meets_bind, Run.meets_get]
    split
    · exact retains_allocator survives _ held
    · simpa only [Run.meets_pure] using held
  | setHook programs =>
    simp only [Retains, step, setHook, onArena, Run.meets_bind, Run.meets_get]
    exact retains_allocator survives _ held
  | write addr offset bytes =>
    simp only [Retains, step, write, onArena, Run.meets_bind, Run.meets_get]
    split
    · exact retains_allocator survives _ held
    · simpa only [Run.meets_pure] using held
  | change f =>
    simp only [Retains, step, Run.meets_modify]
    exact survives _ _ (.work _) held
  | teardown =>
    simp only [Retains, step, teardown, Run.meets_bind, Run.meets_modify]
    exact (retains_allocator survives _ held).imp fun _ middle held => survives _ _ .close held

section Slots

omit [Host σ]

private theorem mem_gain (entry : Option Nat) (size addr : Nat) (member : slot ∈ session.slots) :
    slot ∈ (session.gain entry size addr).slots := by
  cases entry with
  | some index => exact List.mem_cons_of_mem _ member
  | none => exact member

private theorem mem_restore (member : slot ∈ session.slots) : slot ∈ (session.restore grant).slots := by
  cases grant with
  | slot other => exact List.mem_cons_of_mem _ member
  | block block => exact member

private theorem mem_drop (member : slot ∈ session.slots) (different : grant ≠ .slot slot) :
    slot ∈ (session.drop grant).slots := by
  cases grant with
  | slot other => exact (List.mem_erase_of_ne fun same => different (congrArg Grant.slot same.symm)).mpr member
  | block block => exact member

end Slots

/-- No operation lets go of a slot that it does not name. -/
theorem step_leaves (member : slot ∈ session.slots) (op : Op ω) (other : ¬ op.LetsGo slot) :
    Retains (slot ∈ ·.slots) (step op) session := by
  refine step_rule (fun before after edit kept => ?_) member
  cases edit with
  | work | aside | push => exact kept
  | drop named => exact mem_drop kept fun same => other (named slot same)
  | restore => exact mem_restore kept
  | gain | enter => exact mem_gain _ _ _ kept
  | take => exact List.mem_cons_of_mem _ kept
  | retire number => exact List.mem_filter.mpr ⟨kept, by simpa [Op.LetsGo] using other⟩
  | close => exact List.mem_filter.mpr ⟨kept, by simpa [Op.LetsGo] using other⟩

end Session
end SlabAllocator
