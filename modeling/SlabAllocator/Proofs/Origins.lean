import SlabAllocator.Proofs.Visits

/-! Where the geometry of a pool comes from. It is settled when the pool is created and no action
changes it, so whatever holds of the geometries that an allocator creates holds of all its pools. -/

namespace SlabAllocator

/-- A geometry for slots of some size, in frames of whole pages. -/
def Geometry.Made (pageSize : Nat) (geometry : Geometry) : Prop :=
  ∃ entitySize, ofEntity entitySize pageSize = .ok (some geometry)

theorem Geometry.Made.dvd {pageSize : Nat} {geometry : Geometry} (made : geometry.Made pageSize)
    (power : Size.isPowerOfTwo pageSize = true) : pageSize ∣ geometry.frameLen :=
  dvd_frameLen power made.choose_spec

variable {fits aside : Geometry → Prop}

namespace Pool

abbrev Fits (fits : Geometry → Prop) (action : Action σ ω α) (state : Pool × Arena σ ω) : Prop :=
  action.Meets state (fun _ after => fits after.1.geometry) fun _ _ => True

variable {state : Pool × Arena σ ω}

private theorem fits_arena (action : Run (Arena σ ω) α) (fit : fits state.1.geometry) :
    Fits fits (onArena action) state := by
  simp only [Fits, onArena, Run.meets_focus]
  exact .any fun _ _ => fit

private theorem fits_setFrames (changed : Chain × Memory) (fit : fits state.1.geometry) :
    Fits fits (setFrames changed) state := by
  simp only [Fits, setFrames, put, Run.meets_bind, Run.meets_get, Run.meets_modify]
  exact fits_arena _ fit

theorem fits_create {entitySize pageSize : Nat}
    (made : ∀ geometry, Geometry.ofEntity entitySize pageSize = .ok (some geometry) → fits geometry)
    (interval : Nat) (arena : Arena σ ω) : (create entitySize pageSize interval).Meets arena
      (fun outcome _ => ∀ pool, outcome = .ok pool → fits pool.geometry) fun _ _ => True := by
  simp only [create, Run.meets_bind]
  refine Run.meets_lift_any fun geometry? found => ?_
  cases geometry? with
  | none =>
    simp only [Run.meets_pure]
    rintro _ ⟨⟩
  | some geometry =>
    simp only [Arena.say, Arena.onMachine, Run.meets_bind, Run.meets_focus, Run.meets_modify, Run.meets_pure]
    rintro _ ⟨⟩
    exact made geometry found

variable [Host σ]

theorem fits_grow (fit : fits state.1.geometry) : Fits fits grow state := by
  simp only [Fits, grow, put, Run.meets_bind, Run.meets_get]
  refine (fits_arena _ fit).imp fun outcome middle fit => ?_
  cases outcome with
  | error error => simpa only [Run.meets_pure] using fit
  | ok base =>
    simp only [Run.meets_bind, Run.meets_get, Run.meets_modify, Run.meets_pure]
    refine (fits_arena _ fit).imp fun memory middle fit => Run.meets_lift_any fun changed _ => ?_
    refine (fits_setFrames changed fit).imp fun _ middle fit => (fits_arena _ fit).imp fun memory middle fit => ?_
    refine (fits_arena _ fit).imp fun _ middle fit => fits_arena _ ?_
    exact fit

theorem fits_acquire (fit : fits state.1.geometry) : Fits fits acquire state := by
  simp only [Fits, acquire, Run.meets_bind, Run.meets_get]
  refine (fits_arena _ fit).imp fun memory middle fit => Run.meets_lift_any fun first? _ => ?_
  cases first? with
  | some first =>
    simp only [Run.meets_bind, Run.meets_pure]
    exact fits_arena _ fit
  | none =>
    simp only [Run.meets_bind]
    refine (fits_grow fit).imp fun outcome middle fit => ?_
    cases outcome with
    | error error => simpa only [Run.meets_pure] using fit
    | ok frame =>
      simp only [Run.meets_bind]
      refine (fits_arena _ fit).imp fun memory middle fit => ?_
      apply Run.meets_lift_any
      intro slot? _
      cases slot? with
      | none => simpa only [Run.meets_pure] using fit
      | some slot =>
        simp only [Run.meets_bind, Run.meets_pure]
        apply Run.meets_lift_any
        rintro ⟨addr, changed⟩ _
        exact fits_arena _ fit

private theorem fits_dropFrame (frame : Addr) (fit : fits state.1.geometry) :
    Fits fits (dropFrame frame) state := by
  simp only [Fits, dropFrame, put, Run.meets_bind, Run.meets_get, Run.meets_modify]
  refine (fits_arena _ fit).imp fun memory middle fit => ?_
  apply Run.meets_lift_any
  intro changed _
  refine (fits_setFrames changed fit).imp fun _ middle fit => (fits_arena _ fit).imp
    fun _ middle fit => fits_arena _ ?_
  exact fit

private theorem fits_dropWhileMany : ∀ (frames : List Addr) {state : Pool × Arena σ ω}, fits state.1.geometry →
    Fits fits (dropWhileMany frames) state
  | [], _, fit => by simpa only [Fits, dropWhileMany, Run.meets_pure] using fit
  | frame :: rest, _, fit => by
    simp only [Fits, dropWhileMany, Run.meets_bind, Run.meets_get]
    split
    · simpa only [Run.meets_pure] using fit
    · simp only [Run.meets_bind]
      refine (fits_dropFrame frame fit).imp fun _ middle fit => (fits_dropWhileMany rest fit).imp
        fun count after fit => ?_
      exact Run.meets_lift_any fun _ _ => fit

theorem fits_compact (fit : fits state.1.geometry) : Fits fits compact state := by
  simp only [Fits, compact, Run.meets_bind, Run.meets_get]
  refine (fits_arena _ fit).imp fun memory middle fit => Run.meets_lift_any fun frames _ => ?_
  refine (fits_dropWhileMany _ fit).imp fun count after fit => ?_
  split
  · simp only [Run.meets_bind, Run.meets_pure]
    exact fits_arena _ fit
  · simpa only [Run.meets_pure] using fit

theorem fits_release (addr : Addr) (fit : fits state.1.geometry) : Fits fits (release addr) state := by
  simp only [Fits, release, put, Run.meets_bind, Run.meets_get]
  cases state.1.owner? addr with
  | none => simp only [Run.meets_throw]
  | some frame =>
    simp only [Run.meets_bind]
    refine (fits_arena _ fit).imp fun memory middle kept => Run.meets_lift_any fun offset _ => ?_
    apply Run.meets_lift_any
    intro changed _
    refine (fits_arena _ kept).imp fun _ middle _ => Run.meets_lift_any fun releases _ => ?_
    split
    · simp only [Run.meets_bind, Run.meets_modify, Run.meets_pure]
      refine (fits_compact ?_).imp fun _ _ fit => fit
      exact fit
    · simp only [Run.meets_modify]
      exact fit

end Pool

namespace Entries

def Fits (fits : Geometry → Prop) (entries : Entries) : Prop :=
  ∀ (index : Nat) pool, entries[index]? = some (some pool) → fits pool.geometry

variable {entries : Entries}

theorem Fits.set (fit : Fits fits entries) {entry : Option Pool}
    (new : ∀ pool, entry = some pool → fits pool.geometry) (index : Nat) :
    Fits fits (entries.setIfInBounds index entry) := by
  intro other pool here
  rw [Array.getElem?_setIfInBounds] at here
  split at here
  · split at here
    · exact new pool (Option.some.inj here)
    · cases here
  · exact fit other pool here

theorem Fits.push (fit : Fits fits entries) {pool : Pool} (new : fits pool.geometry) :
    Fits fits (entries.push (some pool)) := by
  intro index other here
  rw [Array.getElem?_push] at here
  split at here
  · cases here
    exact new
  · exact fit index other here

end Entries

namespace Allocator

variable {allocator : Allocator σ ω}

abbrev Keeps (fits : Geometry → Prop) (run : Run (Allocator σ ω) α) (allocator : Allocator σ ω) : Prop :=
  run.Meets allocator (fun _ after => Entries.Fits fits after.pools) fun _ _ => True

private theorem keeps_arena (action : Run (Arena σ ω) α) (fit : Entries.Fits fits allocator.pools) :
    Keeps fits (onArena action) allocator := by
  simp only [Keeps, onArena, Run.meets_focus]
  exact .any fun _ _ => fit

private theorem keeps_entry {pool : Pool} {action : Pool.Action σ ω α} (index : Nat)
    (acts : Pool.Fits fits action (pool, allocator.arena)) (fit : Entries.Fits fits allocator.pools) :
    Keeps fits (onEntry index pool action) allocator := by
  simp only [Keeps, onEntry, Run.meets_focus]
  refine acts.imp fun a after new => fit.set ?_ index
  rintro pool ⟨⟩
  exact new

private theorem keeps_openPool {entitySize : Nat}
    (made : ∀ geometry, Geometry.ofEntity entitySize allocator.arena.pageSize = .ok
      (some geometry) → fits geometry)
    (index : Nat) (fit : Entries.Fits fits allocator.pools) : (openPool index entitySize).Meets allocator
      (fun outcome after => Entries.Fits fits after.pools ∧ ∀ pool, outcome = .ok pool → fits pool.geometry)
        fun _ _ => True := by
  simp only [openPool, Run.meets_bind, Run.meets_get]
  apply Run.meets_lift_any
  intro entry found
  cases entry with
  | some pool =>
    simp only [Run.meets_pure]
    refine ⟨fit, ?_⟩
    rintro _ ⟨⟩
    exact fit index pool (inRange_eq_ok.mp found)
  | none =>
    simp only [onArena, Run.meets_bind, Run.meets_focus]
    refine (Pool.fits_create made _ _).imp fun outcome arena created => ?_
    cases outcome with
    | error error =>
      simp only [Run.meets_pure]
      refine ⟨fit, ?_⟩
      rintro _ ⟨⟩
    | ok pool =>
      simp only [Run.meets_bind, Run.meets_modify, Run.meets_pure]
      refine ⟨fit.set ?_ index, created⟩
      rintro _ ⟨⟩
      exact created pool rfl

variable [Host σ]

theorem keeps_alloc (made : ∀ entitySize geometry,
      Geometry.ofEntity entitySize allocator.arena.pageSize = .ok (some geometry) → fits geometry)
    (fit : Entries.Fits fits allocator.pools) (size : Nat) : Keeps fits (alloc size) allocator := by
  simp only [Keeps, alloc, Run.meets_bind, Run.meets_get]
  refine Run.meets_lift_any fun kind _ => ?_
  cases kind with
  | arena pages => exact keeps_arena _ fit
  | pool entitySize =>
    simp only [Run.meets_bind, Run.meets_get]
    refine Run.meets_lift_any fun index _ => (keeps_openPool (made entitySize) index fit).imp ?_
    rintro outcome middle ⟨kept, opened⟩
    cases outcome with
    | error error => simpa only [Run.meets_pure] using kept
    | ok pool => exact keeps_entry index (Pool.fits_acquire (opened pool rfl)) kept

private theorem keeps_release (fit : Entries.Fits fits allocator.pools) {index : Nat} {pool : Pool}
    (found : inRange allocator.pools[index]? = .ok (some pool)) (addr : Addr) :
    Keeps fits (onEntry index pool (Pool.release addr)) allocator :=
  keeps_entry index (Pool.fits_release addr (fit index pool (inRange_eq_ok.mp found))) fit

theorem keeps_free (fit : Entries.Fits fits allocator.pools) (size : Nat) (addr : Addr) :
    Keeps fits (free size addr) allocator := by
  simp only [Keeps, free, Run.meets_bind, Run.meets_get]
  refine Run.meets_lift_any fun kind _ => ?_
  cases kind with
  | arena pages => exact keeps_arena _ fit
  | pool entitySize =>
    simp only [Run.meets_bind, Run.meets_get]
    refine Run.meets_lift_any fun index _ => Run.meets_lift_any fun entry found => ?_
    cases entry with
    | none => simp only [Run.meets_throw]
    | some pool => exact keeps_release fit found addr

theorem keeps_realloc (made : ∀ entitySize geometry,
      Geometry.ofEntity entitySize allocator.arena.pageSize = .ok (some geometry) → fits geometry)
    (fit : Entries.Fits fits allocator.pools) (size : Nat) (addr : Addr) (newSize : Nat) :
    Keeps fits (realloc size addr newSize) allocator := by
  have moves : Keeps fits (move size addr newSize) allocator := by
    simp only [Keeps, move, Run.meets_bind]
    refine (keeps_alloc made fit newSize).imp fun outcome middle kept => ?_
    cases outcome with
    | error error => simpa only [Run.meets_pure] using kept
    | ok fresh =>
      simp only [settle, Run.meets_bind, Run.meets_pure]
      exact (keeps_arena _ kept).imp fun _ middle kept => keeps_free kept size addr
  simp only [Keeps, realloc, Run.meets_bind, Run.meets_get]
  refine Run.meets_lift_any fun source _ => Run.meets_lift_any fun target _ => ?_
  split
  · simpa only [Run.meets_pure] using fit
  · cases source with
    | pool entitySize => exact moves
    | arena pages =>
      cases target with
      | pool entitySize => exact moves
      | arena pages => exact keeps_arena _ fit

theorem keeps_releaseSlot (fit : Entries.Fits fits allocator.pools) (addr : Addr) :
    Keeps fits (releaseSlot addr) allocator := by
  simp only [Keeps, releaseSlot, Run.meets_bind, Run.meets_get]
  cases allocator.pools.findIdx? fun entry => entry.any (·.owns addr) with
  | none => simp only [Run.meets_throw]
  | some index =>
    simp only [Run.meets_bind]
    refine Run.meets_lift_any fun entry found => ?_
    cases entry with
    | none => simp only [Run.meets_throw]
    | some pool => exact keeps_release fit found addr

theorem keeps_protect (fit : Entries.Fits fits allocator.pools) (size : Nat) (addr : Addr) (mode : Protection) :
    Keeps fits (protect size addr mode) allocator := by
  simp only [Keeps, protect, Run.meets_bind, Run.meets_get]
  refine Run.meets_lift_any fun kind _ => ?_
  cases kind with
  | pool entitySize => simp only [Run.meets_throw]
  | arena pages => exact keeps_arena _ fit

private theorem keeps_compactFrom : ∀ (count index : Nat) {allocator : Allocator σ ω},
    Entries.Fits fits allocator.pools →
    Keeps fits (compactFrom index count) allocator
  | 0, _, _, fit => by simpa only [Keeps, compactFrom, Run.meets_pure] using fit
  | count + 1, index, allocator, fit => by
    simp only [Keeps, compactFrom, Run.meets_bind, Run.meets_get]
    cases found : allocator.pools[index]?.join with
    | none => exact keeps_compactFrom count (index + 1) fit
    | some pool =>
      simp only [Run.meets_bind]
      refine (keeps_entry index (Pool.fits_compact (fit index pool (Option.join_eq_some_iff.mp found))) fit).imp
        fun released middle kept => (keeps_compactFrom count (index + 1) kept).imp fun more after kept => ?_
      exact Run.meets_lift_any fun _ _ => kept

theorem keeps_compactAll (fit : Entries.Fits fits allocator.pools) : Keeps fits compactAll allocator := by
  simp only [Keeps, compactAll, Run.meets_bind, Run.meets_get]
  exact keeps_compactFrom _ _ fit

private theorem keeps_destroyFrom : ∀ (count index : Nat) {allocator : Allocator σ ω},
    Entries.Fits fits allocator.pools →
    Keeps fits (destroyFrom index count) allocator
  | 0, _, _, fit => by simpa only [Keeps, destroyFrom, Run.meets_pure] using fit
  | count + 1, index, allocator, fit => by
    simp only [Keeps, destroyFrom, Run.meets_bind, Run.meets_get]
    cases found : allocator.pools[index]?.join with
    | none => exact keeps_destroyFrom count (index + 1) fit
    | some pool =>
      simp only [onEntry, Run.meets_bind, Run.meets_focus, Run.meets_modify, Array.setIfInBounds_setIfInBounds]
      exact .any fun _ middle => keeps_destroyFrom count (index + 1) (fit.set (by rintro _ ⟨⟩) index)

theorem keeps_teardown (fit : Entries.Fits fits allocator.pools) : Keeps fits teardown allocator := by
  simp only [Keeps, teardown, Run.meets_bind, Run.meets_get]
  exact keeps_destroyFrom _ _ fit

end Allocator

namespace Session

/-- The pools in the registry have fitting geometries, and so have those that the client created. -/
structure Fits (fits aside : Geometry → Prop) (session : Session σ ω) : Prop where
  registry : Entries.Fits fits session.allocator.pools
  dedicated : Entries.Fits aside session.dedicated

variable {session : Session σ ω}

abbrev Keeps (fits aside : Geometry → Prop) (run : Run (Session σ ω) α) (session : Session σ ω) : Prop :=
  run.Meets session (fun _ after => after.Fits fits aside) fun _ _ => True

private theorem keeps_allocator {action : Run (Allocator σ (Books ω)) α}
    (keeps : Allocator.Keeps fits action session.allocator) (fit : session.Fits fits aside) :
    Keeps fits aside (onAllocator action) session := by
  simp only [Keeps, onAllocator, Run.meets_focus]
  exact keeps.imp fun _ _ kept => ⟨kept, fit.dedicated⟩

private theorem keeps_arena (action : Run (Arena σ (Books ω)) α) (fit : session.Fits fits aside) :
    Keeps fits aside (onArena action) session :=
  keeps_allocator (Allocator.keeps_arena action fit.registry) fit

private theorem keeps_dedicated {pool : Pool} {action : Pool.Action σ (Books ω) α} (number : Nat)
    (acts : Pool.Fits aside action (pool, session.arena)) (fit : session.Fits fits aside) :
    Keeps fits aside (onDedicated number pool (Allocator.onDedicated action)) session := by
  simp only [Keeps, onDedicated, Allocator.onDedicated, Run.meets_focus]
  refine acts.imp fun a after new => ⟨fit.registry, fit.dedicated.set ?_ number⟩
  rintro _ ⟨⟩
  exact new

private theorem Fits.gain (fit : session.Fits fits aside) (entry : Option Nat) (size : Nat) (addr : Addr) :
    (session.gain entry size addr).Fits fits aside := by
  cases entry <;> exact ⟨fit.registry, fit.dedicated⟩

private theorem Fits.drop (fit : session.Fits fits aside) (grant : Grant) :
    (session.drop grant).Fits fits aside := by
  cases grant <;> exact ⟨fit.registry, fit.dedicated⟩

private theorem Fits.restore (fit : session.Fits fits aside) (grant : Grant) :
    (session.restore grant).Fits fits aside := by
  cases grant <;> exact ⟨fit.registry, fit.dedicated⟩

private theorem Fits.pool (fit : session.Fits fits aside) {number : Nat} {pool : Pool}
    (here : session.dedicated[number]?.join = some pool) : aside pool.geometry :=
  fit.dedicated number pool (Option.join_eq_some_iff.mp here)

/-- A block is out of the books while it moves. -/
private theorem keeps_moving {moves : Run (Session σ ω) Outcome} {grant : Grant} (target : Option Nat)
    (newSize : Nat) (keeps : Keeps fits aside moves (session.drop grant)) : Keeps fits aside (do
      modify (·.drop grant)
      let outcome ← moves
      match outcome with
      | .ok moved => modify (·.gain target newSize moved)
      | .error _ => modify (·.restore grant)
      return some outcome) session := by
  simp only [Keeps, Run.meets_bind, Run.meets_modify]
  refine keeps.imp fun outcome middle kept => ?_
  cases outcome with
  | ok moved => simpa only [Run.meets_bind, Run.meets_modify, Run.meets_pure] using kept.gain target newSize moved
  | error error => simpa only [Run.meets_bind, Run.meets_modify, Run.meets_pure] using kept.restore grant

private theorem keeps_createPool (made : ∀ entitySize geometry,
      Geometry.ofEntity entitySize session.arena.pageSize = .ok (some geometry) → aside geometry)
    (fit : session.Fits fits aside) (entitySize : Nat) : Keeps fits aside (createPool entitySize) session := by
  simp only [Keeps, createPool, onAllocator, Allocator.createPool, Allocator.onArena, Run.meets_bind,
    Run.meets_get, Run.meets_focus]
  refine (Pool.fits_create (made entitySize) _ _).imp fun outcome arena created => ?_
  cases outcome with
  | error error =>
    simp only [Run.meets_pure]
    exact ⟨fit.registry, fit.dedicated⟩
  | ok pool =>
    simp only [Run.meets_modify]
    exact ⟨fit.registry, fit.dedicated.push (created pool rfl)⟩

variable [Host σ]

private theorem keeps_alloc (made : ∀ entitySize geometry,
      Geometry.ofEntity entitySize session.arena.pageSize = .ok (some geometry) → fits geometry)
    (fit : session.Fits fits aside) (size : Nat) : Keeps fits aside (alloc size) session := by
  simp only [Keeps, alloc, Run.meets_bind]
  refine (keeps_allocator (Allocator.keeps_alloc made fit.registry size) fit).imp fun outcome middle kept => ?_
  cases outcome with
  | error error => simpa only [Run.meets_pure] using kept
  | ok addr =>
    simp only [Run.meets_bind, Run.meets_get, Run.meets_modify, Run.meets_pure]
    exact Run.meets_lift_any fun entry _ => kept.gain entry size addr

private theorem keeps_free (fit : session.Fits fits aside) (size : Nat) (addr : Addr) :
    Keeps fits aside (free size addr) session := by
  simp only [Keeps, free, Run.meets_bind, Run.meets_get]
  refine Run.meets_lift_any fun entry _ => ?_
  cases session.find? entry size addr with
  | none => simpa only [Run.meets_pure] using fit
  | some grant =>
    simp only [Run.meets_bind, Run.meets_modify]
    exact keeps_allocator (Allocator.keeps_free (fit.drop grant).registry size addr) (fit.drop grant)

private theorem keeps_realloc (made : ∀ entitySize geometry,
      Geometry.ofEntity entitySize session.arena.pageSize = .ok (some geometry) → fits geometry)
    (fit : session.Fits fits aside) (size : Nat) (addr : Addr) (newSize : Nat) :
    Keeps fits aside (realloc size addr newSize) session := by
  simp only [Keeps, realloc, Run.meets_bind, Run.meets_get]
  refine Run.meets_lift_any fun entry _ => Run.meets_lift_any fun target _ => ?_
  cases session.find? entry size addr with
  | none => simpa only [Run.meets_pure] using fit
  | some grant =>
    have paged : (session.drop grant).arena.pageSize = session.arena.pageSize := by cases grant <;> rfl
    rw [← paged] at made
    exact keeps_moving target newSize
      (keeps_allocator (Allocator.keeps_realloc made (fit.drop grant).registry size addr newSize)
      (fit.drop grant))

private theorem keeps_resize (fit : session.Fits fits aside) (size : Nat) (addr : Addr) (newSize : Nat) :
    Keeps fits aside (resize size addr newSize) session := by
  simp only [Keeps, resize, Run.meets_bind, Run.meets_get]
  cases session.find? none size addr with
  | none => simpa only [Run.meets_pure] using fit
  | some grant => exact keeps_moving none newSize (keeps_arena _ (fit.drop grant))

private theorem keeps_poolAcquire (fit : session.Fits fits aside) (number : Nat) :
    Keeps fits aside (poolAcquire number) session := by
  simp only [Keeps, poolAcquire, Run.meets_bind, Run.meets_get]
  cases here : session.dedicated[number]?.join with
  | none => simpa only [Run.meets_pure] using fit
  | some pool =>
    simp only [Run.meets_bind]
    refine (keeps_dedicated number (Pool.fits_acquire (fit.pool here)) fit).imp fun outcome middle kept => ?_
    cases outcome with
    | error error => simpa only [Run.meets_pure] using kept
    | ok addr =>
      simp only [Run.meets_modify]
      exact ⟨kept.registry, kept.dedicated⟩

private theorem keeps_poolRelease (fit : session.Fits fits aside) (number : Nat) (addr : Addr) :
    Keeps fits aside (poolRelease number addr) session := by
  simp only [Keeps, poolRelease, Run.meets_bind, Run.meets_get]
  cases here : session.dedicated[number]?.join with
  | none => simpa only [Run.meets_pure] using fit
  | some pool =>
    simp only [Run.meets_bind, Run.meets_get]
    split
    · simp only [Run.meets_bind, Run.meets_modify]
      exact keeps_dedicated number (Pool.fits_release addr (fit.pool here)) (fit.drop _)
    · simpa only [Run.meets_pure] using fit

private theorem keeps_compactPool (fit : session.Fits fits aside) (number : Nat) :
    Keeps fits aside (compactPool number) session := by
  simp only [Keeps, compactPool, Run.meets_bind, Run.meets_get]
  cases here : session.dedicated[number]?.join with
  | none => simpa only [Run.meets_pure] using fit
  | some pool =>
    simp only [Run.meets_bind, Run.meets_pure]
    exact keeps_dedicated number (Pool.fits_compact (fit.pool here)) fit

private theorem keeps_destroyPool (fit : session.Fits fits aside) (number : Nat) :
    Keeps fits aside (destroyPool number) session := by
  simp only [Keeps, destroyPool, Run.meets_bind, Run.meets_get]
  cases here : session.dedicated[number]?.join with
  | none => simpa only [Run.meets_pure] using fit
  | some pool =>
    simp only [onDedicated, Allocator.destroyPool, Allocator.onDedicated, Run.meets_bind, Run.meets_focus,
      Run.meets_modify, Array.setIfInBounds_setIfInBounds]
    exact .any fun _ after => ⟨fit.registry, fit.dedicated.set (by rintro _ ⟨⟩) number⟩

/-- No operation changes the geometry of a pool, and every pool that it creates counts in the pages of the arena. -/
theorem keeps_step (made : ∀ entitySize geometry,
      Geometry.ofEntity entitySize session.arena.pageSize = .ok (some geometry) → fits geometry ∧ aside geometry)
    (fit : session.Fits fits aside) (op : Op ω) : Keeps fits aside (step op) session := by
  have registered := fun entitySize geometry found => (made entitySize geometry found).1
  cases op with
  | alloc size => simpa only [Keeps, step, Run.meets_bind, Run.meets_pure] using keeps_alloc registered fit size
  | free size addr => exact keeps_free fit size addr
  | realloc size addr newSize =>
    simpa only [Keeps, step, Run.meets_bind, Run.meets_pure] using keeps_realloc registered fit size addr newSize
  | releaseSlot addr =>
    simp only [Keeps, step, releaseSlot, Run.meets_bind, Run.meets_get]
    cases session.slots.find? fun slot => slot.source.isRegistry && slot.addr == addr with
    | none => simpa only [Run.meets_pure] using fit
    | some slot =>
      simp only [Run.meets_bind, Run.meets_modify]
      exact keeps_allocator (Allocator.keeps_releaseSlot (fit.drop (.slot slot)).registry addr) (fit.drop _)
  | protect size addr mode =>
    simp only [Keeps, step, protect, Run.meets_bind, Run.meets_get]
    refine Run.meets_lift_any fun entry _ => ?_
    split
    · exact keeps_allocator (Allocator.keeps_protect fit.registry size addr mode) fit
    · simpa only [Run.meets_pure] using fit
  | compactAll =>
    simpa only [Keeps, step, Run.meets_bind, Run.meets_pure] using
      keeps_allocator (Allocator.keeps_compactAll fit.registry) fit
  | createPool entitySize =>
    exact keeps_createPool (fun entitySize geometry found => (made entitySize geometry found).2) fit entitySize
  | poolAcquire number => exact keeps_poolAcquire fit number
  | poolRelease number addr => exact keeps_poolRelease fit number addr
  | compactPool number => exact keeps_compactPool fit number
  | destroyPool number => exact keeps_destroyPool fit number
  | acquire size =>
    simp only [Keeps, step, acquire, Run.meets_bind, Run.meets_pure]
    refine (keeps_arena _ fit).imp fun outcome middle kept => ?_
    cases outcome with
    | error error => simpa only [Run.meets_pure] using kept
    | ok addr => simpa only [Run.meets_bind, Run.meets_modify, Run.meets_pure] using kept.gain none size addr
  | resize size addr newSize =>
    simpa only [Keeps, step, Run.meets_bind, Run.meets_pure] using keeps_resize fit size addr newSize
  | release size addr =>
    simp only [Keeps, step, release, Run.meets_bind, Run.meets_get]
    cases session.find? none size addr with
    | none => simpa only [Run.meets_pure] using fit
    | some grant =>
      simp only [Run.meets_bind, Run.meets_modify]
      exact keeps_arena _ (fit.drop grant)
  | protectBlock size addr mode =>
    simp only [Keeps, step, protectBlock, Run.meets_bind, Run.meets_get]
    split
    · exact keeps_arena _ fit
    · simpa only [Run.meets_pure] using fit
  | setHook programs =>
    simp only [Keeps, step, setHook, Run.meets_bind, Run.meets_get]
    exact keeps_arena _ fit
  | write addr offset bytes =>
    simp only [Keeps, step, write, Run.meets_bind, Run.meets_get]
    split
    · exact keeps_arena _ fit
    · simpa only [Run.meets_pure] using fit
  | change f =>
    simp only [Keeps, step, Run.meets_modify]
    exact ⟨fit.registry, fit.dedicated⟩
  | teardown =>
    simp only [Keeps, step, teardown, Run.meets_bind, Run.meets_modify]
    exact (keeps_allocator (Allocator.keeps_teardown fit.registry) fit).imp fun _ middle kept =>
      ⟨kept.registry, kept.dedicated⟩

variable [LawfulHost σ]

private theorem Starts.fit {host : σ} {policy : Policy} {env : ω} (starts : Starts host policy env session) :
    session.Fits fits aside := by
  constructor
  · intro index pool here
    have vacant := starts.vacant (.registry index)
    rw [pool?, here] at vacant
    cases vacant
  · intro number pool here
    have vacant := starts.vacant (.dedicated number)
    rw [pool?, here] at vacant
    cases vacant

private theorem Sound.step_fit {after : Session σ ω} {op : Op ω} (sound : Sound session)
    (made : ∀ geometry, geometry.Made session.arena.pageSize → aside geometry)
    (fit : session.Fits (Geometry.Made session.arena.pageSize) aside) (stepped : step op session = .ok () after) :
    after.arena.pageSize = session.arena.pageSize ∧ after.Fits (Geometry.Made session.arena.pageSize) aside := by
  obtain ⟨-, kept, -⟩ := (sound.step_spec op).of_ok stepped
  refine ⟨kept.paged, (keeps_step ?_ fit op).of_ok stepped⟩
  intro entitySize geometry found
  exact ⟨⟨entitySize, found⟩, made geometry ⟨entitySize, found⟩⟩

/-- The pools that an allocator creates count in the pages of its arena, whatever those made by hand count in. -/
theorem Attained.made (attained : Attained session) :
    session.Fits (Geometry.Made session.arena.pageSize) fun _ => True := by
  induction attained with
  | start starts => exact starts.fit
  | step attained stepped fit =>
    obtain ⟨paged, kept⟩ := attained.sound.step_fit (fun _ _ => trivial) fit stepped
    rwa [paged]
  | adopt attained word adopted fit =>
    obtain ⟨paged, -⟩ := attained.sound.adopt_kept word adopted
    rw [paged]
    obtain ⟨fresh, arena, -, rfl⟩ := adopt_spec adopted
    exact ⟨fit.registry, fun _ _ _ => trivial⟩

theorem Reachable.made (reachable : Reachable session) :
    session.Fits (Geometry.Made session.arena.pageSize) (Geometry.Made session.arena.pageSize) := by
  induction reachable with
  | start starts => exact starts.fit
  | step reachable stepped fit =>
    obtain ⟨paged, kept⟩ := reachable.sound.step_fit (fun _ => id) fit stepped
    rwa [paged]

/-- The allocator has made the pool for its client, whatever the client makes by hand before and after. -/
inductive Created (source : Source) : Session σ ω → Prop
  | create {before after : Session σ ω} {entitySize : Nat} (attained : Attained before)
    (stepped : Session.step (.createPool entitySize) before = .ok () after)
    (number : source = .dedicated before.dedicated.size) (present : (after.pool? source).isSome) :
    Created source after
  | step {before after : Session σ ω} {op : Op ω} (created : Created source before)
    (spares : op.spares source = true)
    (stepped : Session.step op before = .ok () after) : Created source after
  | beside {before after : Session σ ω} {entitySize pageSize interval : Nat} (created : Created source before)
    (word : interval < Size.bound) (adopted : before.adopt entitySize pageSize interval = some after) :
    Created source after

variable {source : Source}

theorem Created.attained (created : Created source session) : Attained session := by
  induction created with
  | create attained stepped => exact attained.step stepped
  | step _ _ stepped attained => exact attained.step stepped
  | beside _ word adopted attained => exact attained.adopt word adopted

omit [LawfulHost σ] [Host σ] in
/-- What holds of every pool that is made holds of the one that the client gets. -/
theorem createPool_new {fresh : Pool → Prop} (entitySize : Nat)
    (makes : (Pool.create entitySize session.arena.pageSize session.allocator.policy.compactInterval).Meets
      session.arena (fun outcome _ => ∀ pool, outcome = .ok pool → fresh pool) fun _ _ => True) :
    (createPool entitySize).Meets session
      (fun _ after => ∀ pool, after.pool? (.dedicated session.dedicated.size) = some pool → fresh pool)
      fun _ _ => True := by
  simp only [createPool, onAllocator, Allocator.createPool, Allocator.onArena, Run.meets_bind, Run.meets_focus,
    Run.meets_get]
  refine makes.imp fun outcome arena made => ?_
  cases outcome with
  | error error =>
    simp only [Run.meets_pure, pool?]
    rw [Array.getElem?_eq_none (Nat.le_refl _)]
    rintro _ ⟨⟩
  | ok pool =>
    simp only [Run.meets_modify, pool?, Array.getElem?_push_size, Option.join_some]
    rintro _ ⟨⟩
    exact made pool rfl

/-- Its geometry stays the one that it was created with. -/
theorem Created.makes (created : Created source session) :
    ∃ make, session.make? source = some make ∧ make.geometry.Made session.arena.pageSize := by
  induction created with
  | create attained stepped number present =>
    obtain ⟨pool, here⟩ := Option.isSome_iff_exists.mp present
    obtain ⟨-, kept, -⟩ := (attained.sound.step_spec _).of_ok stepped
    subst number
    refine ⟨_, make?_of_pool pool here, ?_⟩
    rw [kept.paged]
    exact (createPool_new _ (Pool.fits_create (fun geometry found => ⟨_, found⟩) _ _)).of_ok stepped pool here
  | step created spares stepped ih =>
    obtain ⟨make, makes, made⟩ := ih
    have sound := created.attained.sound
    obtain ⟨-, kept, -⟩ := (sound.step_spec _).of_ok stepped
    exact ⟨make, sound.make?_step makes spares stepped, by rwa [kept.paged]⟩
  | beside created word adopted ih =>
    obtain ⟨make, makes, made⟩ := ih
    have sound := created.attained.sound
    obtain ⟨paged, -⟩ := sound.adopt_kept word adopted
    exact ⟨make, sound.make?_adopt word adopted makes, by rwa [paged]⟩

theorem Created.made (created : Created source session) {pool : Pool} (here : session.pool? source = some pool) :
    pool.geometry.Made session.arena.pageSize := by
  obtain ⟨make, makes, made⟩ := created.makes
  rw [make?_of_pool pool here] at makes
  cases makes
  exact made

end Session
end SlabAllocator
