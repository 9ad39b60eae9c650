import Mathlib.Order.Bounds.Basic
import Mathlib.Order.Interval.Set.Defs
import SlabAllocator.Proofs.Attained

/-! The size classes are counted when an allocator is built, and computed anew for each request. Both
agree for every policy that is accepted: the sizes below the cutoff fill the registry, in order and
without gaps, and whatever is asked for a size concerns the pool of one entry. -/

namespace SlabAllocator

namespace Policy

def entry (policy : Policy) (size : Nat) : Nat :=
  (max size 1 + policy.alignment - 1) / policy.alignment - 1

variable {policy : Policy} {size index : Nat}

theorem class?_eq (below : size < policy.cutoff) : policy.class? size = some (policy.entry size) :=
  if_pos below

theorem class?_eq_none (above : policy.cutoff ≤ size) : policy.class? size = none :=
  if_neg (Nat.not_lt.mpr above)

theorem entry_mono (policy : Policy) : Monotone policy.entry := by
  intro size larger le
  apply Nat.sub_le_sub_right
  apply Nat.div_le_div_right
  omega

namespace Sound

/-- An entry serves the sizes that its slots have room for and those of the entry before have not. -/
theorem entry_eq_iff (sound : policy.Sound) :
    policy.entry size = index ↔ index * policy.alignment < max size 1 ∧ max size 1 ≤ policy.entitySize index := by
  have positive := sound.positive
  obtain ⟨above, near⟩ := Size.ceil_bounds (n := max size 1) positive
  unfold entry entitySize
  generalize (max size 1 + policy.alignment - 1) / policy.alignment = units at above near ⊢
  have some : units ≠ 0 := by
    intro none
    rw [none, Nat.zero_mul] at above
    omega
  constructor
  · intro same
    obtain rfl : units = index + 1 := by omega
    refine ⟨?_, above⟩
    rw [Nat.succ_mul] at near
    exact Nat.lt_of_add_lt_add_right near
  · rintro ⟨more, room⟩
    have least : index < units := Nat.lt_of_mul_lt_mul_right (Nat.lt_of_lt_of_le more above)
    have most : units < index + 2 := by
      apply Nat.lt_of_mul_lt_mul_right (a := policy.alignment)
      rw [Nat.succ_mul]
      omega
    omega

theorem isLeast_entitySize (sound : policy.Sound) (size : Nat) :
    IsLeast {entitySize | 0 < entitySize ∧ policy.alignment ∣ entitySize ∧ size ≤ entitySize}
      (policy.entitySize (policy.entry size)) := by
  obtain ⟨more, room⟩ := sound.entry_eq_iff.mp (Eq.refl (policy.entry size))
  constructor
  · exact ⟨by omega, Nat.dvd_mul_left .., by omega⟩
  · rintro other ⟨positive, ⟨units, rfl⟩, fits⟩
    rw [entitySize, Nat.mul_comm policy.alignment]
    apply Nat.mul_le_mul_right
    have enough : policy.entry size * policy.alignment < units * policy.alignment := by
      rw [Nat.mul_comm units]
      omega
    exact Nat.lt_of_mul_lt_mul_right enough

theorem entry_lt (sound : policy.Sound) (below : size < policy.cutoff) :
    policy.entry size < max policy.classes 1 :=
  (sound.class?_spec (class?_eq below)).2.1

/-- The smallest size of a class. -/
theorem exists_entry_eq (sound : policy.Sound) (inside : index < max policy.classes 1) :
    ∃ size < policy.cutoff, policy.entry size = index := by
  have cutoff := sound.cutoff
  have positive := sound.positive
  cases index with
  | zero => exact ⟨0, cutoff, sound.entry_eq_iff.mpr ⟨by omega, by unfold entitySize; omega⟩⟩
  | succ index =>
    refine ⟨(index + 1) * policy.alignment + 1, ?_, ?_⟩
    · have counted : index + 1 < policy.classes := by omega
      have units : index + 2 ≤ policy.classes := counted
      have room := (Nat.le_div_iff_mul_le positive).mp units
      rw [Nat.succ_mul] at room
      omega
    · apply sound.entry_eq_iff.mpr
      unfold entitySize
      rw [Nat.succ_mul (index + 1)]
      omega

end Sound
end Policy

namespace Allocator

/-- A slot of the pool of an entry, which is created when it is first asked for one. -/
def serve [Host σ] (index : Nat) : Run (Allocator σ ω) Outcome := do
  match ← openPool index ((← get).policy.entitySize index) with
  | .error error => return .error error
  | .ok pool => onEntry index pool Pool.acquire

def takeBack [Host σ] (index : Nat) (addr : Addr) : Run (Allocator σ ω) Unit := do
  let some pool := (← get).pools[index]?.join | throw .violated
  onEntry index pool (Pool.release addr)

def request [Host σ] (target : Option Nat) (size : Nat) : Run (Allocator σ ω) Outcome :=
  target.elim (onArena (Arena.acquire size)) serve

def giveBack [Host σ] (source : Option Nat) (size : Nat) (addr : Addr) : Run (Allocator σ ω) Unit :=
  source.elim (onArena (Arena.release size addr)) (takeBack · addr)

def relocate [Host σ] (source target : Option Nat) (size : Nat) (addr : Addr) (newSize : Nat) :
    Run (Allocator σ ω) Outcome := do
  match ← request target newSize with
  | .error error => return .error error
  | .ok fresh =>
    onArena do Arena.setMemory ((← Arena.memory).copy addr fresh (min size newSize))
    giveBack source size addr
    return .ok fresh

/-- The sizes below the cutoff fill the registry: each goes to the least class with room for it, and
they take up the entries in order, all of them. -/
structure Exact (allocator : Allocator σ ω) : Prop where
  least : ∀ size < allocator.policy.cutoff, ∃ entitySize, allocator.sizeClass size = .ok (.pool entitySize) ∧
    allocator.classIndex entitySize = .ok (allocator.policy.entry size) ∧
    IsLeast {entitySize | 0 < entitySize ∧ allocator.policy.alignment ∣ entitySize ∧ size ≤ entitySize} entitySize
  ordered : MonotoneOn allocator.policy.entry (Set.Iio allocator.policy.cutoff)
  onto : allocator.policy.entry '' Set.Iio allocator.policy.cutoff = Set.Iio allocator.pools.size

/-- Whatever is asked for a size below the cutoff concerns the pool of its entry. -/
structure Consistent [Host σ] (allocator : Allocator σ ω) : Prop where
  entitySize : ∀ (index : Nat) pool, allocator.pools[index]? = some (some pool) →
    pool.entitySize = (index + 1) * allocator.policy.alignment
  alloc : ∀ size < allocator.policy.cutoff,
    Allocator.alloc size allocator = serve (allocator.policy.entry size) allocator
  free : ∀ size < allocator.policy.cutoff, ∀ addr,
    Allocator.free size addr allocator = takeBack (allocator.policy.entry size) addr allocator
  pool? : ∀ size < allocator.policy.cutoff, ∀ entitySize, allocator.sizeClass size = .ok (.pool entitySize) →
    allocator.pool? entitySize = .ok allocator.pools[allocator.policy.entry size]?.join
  stays : ∀ size < allocator.policy.cutoff, ∀ newSize < allocator.policy.cutoff,
    allocator.policy.entry newSize = allocator.policy.entry size →
      ∀ addr, realloc size addr newSize allocator = .ok (.ok addr) allocator
  aside : ∀ size, allocator.policy.cutoff ≤ size →
    allocator.sizeClass size = .ok (.arena (size ⌈/⌉ allocator.arena.pageSize))
  moves : ∀ size newSize, allocator.class? newSize ≠ allocator.class? size →
    ∀ addr, realloc size addr newSize allocator =
      relocate (allocator.class? size) (allocator.class? newSize) size addr newSize allocator

variable {allocator : Allocator σ (Books ω)} {locked : List Extent} {size : Nat}

theorem exact_of_size {allocator : Allocator σ ω} (policy : allocator.policy.Sound)
    (size : allocator.pools.size = max allocator.policy.classes 1) : allocator.Exact where
  least := by
    intro size below
    refine ⟨_, sizeClass_pool policy (Policy.class?_eq below), classIndex_eq policy _,
      policy.isLeast_entitySize size⟩
  ordered := allocator.policy.entry_mono.monotoneOn _
  onto := by
    ext index
    rw [size]
    constructor
    · rintro ⟨size, below, rfl⟩
      exact policy.entry_lt below
    · exact policy.exists_entry_eq

variable [Host σ]

theorem alloc_eq (policy : allocator.policy.Sound) (positive : 0 < allocator.arena.pageSize) (size : Nat) :
    alloc size allocator = request (allocator.class? size) size allocator := by
  apply Run.eq_of_meets
  intro post stop
  cases kind : allocator.class? size with
  | none =>
    simp only [alloc, request, Option.elim, Run.meets_bind, Run.meets_get,
      Run.meets_lift (sizeClass_arena positive kind)]
  | some index =>
    simp only [alloc, Run.meets_bind, Run.meets_get, Run.meets_lift (sizeClass_pool policy kind),
      Run.meets_lift (classIndex_eq policy index)]
    rw [request, Option.elim_some]
    -- Each side has a match of its own on the pool that is opened, so only unfolding shows that they agree.
    exact ((Run.meets_bind _ _).trans (Run.meets_get.trans (Run.meets_bind _ _))).symm

theorem free_eq (policy : allocator.policy.Sound) (positive : 0 < allocator.arena.pageSize)
    (filled : allocator.pools.size = max allocator.policy.classes 1) (size : Nat) (addr : Addr) :
    free size addr allocator = giveBack (allocator.class? size) size addr allocator := by
  apply Run.eq_of_meets
  intro post stop
  cases kind : allocator.class? size with
  | none =>
    simp only [free, giveBack, Option.elim, Run.meets_bind, Run.meets_get,
      Run.meets_lift (sizeClass_arena positive kind)]
  | some index =>
    have inside : index < allocator.pools.size := by
      rw [filled]
      exact (policy.class?_spec kind).2.1
    obtain ⟨entry, here⟩ : ∃ entry, allocator.pools[index]? = some entry := ⟨_, Array.getElem?_eq_getElem inside⟩
    have found : inRange allocator.pools[index]? = .ok entry := inRange_eq_ok.mpr here
    simp only [free, Run.meets_bind, Run.meets_get, Run.meets_lift (sizeClass_pool policy kind),
      Run.meets_lift (classIndex_eq policy index), Run.meets_lift found]
    cases entry <;> simp only [giveBack, takeBack, Option.elim, Run.meets_bind, Run.meets_get, here,
      Option.join_some]

/-- The allocator is in order in between, so that the block goes back to where it came from. -/
theorem Sound.realloc_eq [LawfulHost σ] (sound : Sound locked allocator) {newSize : Nat}
    (crossing : allocator.class? newSize ≠ allocator.class? size) (addr : Addr) :
    realloc size addr newSize allocator =
      relocate (allocator.class? size) (allocator.class? newSize) size addr newSize allocator := by
  have positive := Size.pos_of_isPowerOfTwo sound.entries.accounts.power
  have served := sound.alloc_spec newSize
  rw [Run.meets_congr (alloc_eq sound.policy positive newSize)] at served
  rw [realloc_crossing sound.policy positive crossing, move, relocate,
    Run.bind_of_eq (alloc_eq sound.policy positive newSize)]
  apply Run.bind_congr served
  intro outcome middle granted
  cases outcome with
  | error error => rfl
  | ok fresh =>
    obtain ⟨changes, gained, -⟩ := granted
    have policy : middle.policy = allocator.policy := changes.policy
    have paged : 0 < middle.arena.pageSize := Size.pos_of_isPowerOfTwo gained.sound.entries.accounts.power
    have freed : ∀ later : Allocator σ (Books ω), later.policy = middle.policy → later.pools = middle.pools →
        later.arena.pageSize = middle.arena.pageSize →
        free size addr later = giveBack (allocator.class? size) size addr later := by
      intro later same pools pages
      rw [← class?_congr (same.trans policy) size]
      apply free_eq
      · rw [same]
        exact gained.sound.policy
      · rw [pages]
        exact paged
      · rw [pools, same]
        exact gained.sound.size
    apply Run.eq_of_meets
    intro post stop
    simp only [settle, onArena, Arena.memory, Arena.setMemory, Arena.onMachine, Machine.setMemory, Run.meets_bind,
      Run.meets_focus, Run.meets_get, Run.meets_modify, Run.meets_pure]
    exact Run.meets_congr (freed _ rfl rfl rfl)

theorem Sound.exact [LawfulHost σ] (sound : Sound locked allocator) : allocator.Exact :=
  exact_of_size sound.policy sound.size

theorem Sound.toConsistent [LawfulHost σ] (sound : Sound locked allocator) : allocator.Consistent := by
  have positive := Size.pos_of_isPowerOfTwo sound.entries.accounts.power
  have pooled : ∀ size < allocator.policy.cutoff, allocator.class? size = some (allocator.policy.entry size) :=
    fun _ => Policy.class?_eq
  constructor
  case entitySize => exact sound.entitySize
  case alloc =>
    intro size below
    rw [alloc_eq sound.policy positive, pooled size below]
    rfl
  case free =>
    intro size below addr
    rw [free_eq sound.policy positive sound.size, pooled size below]
    rfl
  case pool? =>
    intro size below entitySize routed
    rw [sizeClass_pool sound.policy (pooled size below)] at routed
    cases routed
    exact pool?_entitySize sound.policy _
  case stays =>
    intro size below newSize below' same addr
    have class_eq := sizeClass_pool sound.policy (pooled size below)
    have newClass_eq := sizeClass_pool sound.policy (pooled newSize below')
    rw [same] at newClass_eq
    change _ = (pure (.ok addr) : Run (Allocator σ (Books ω)) Outcome) allocator
    apply Run.eq_of_meets
    intro post stop
    simp only [realloc, Run.meets_bind, Run.meets_get, Run.meets_lift class_eq, Run.meets_lift newClass_eq,
      if_true, Run.meets_pure]
  case aside =>
    intro size above
    rw [sizeClass_arena positive (Policy.class?_eq_none above), Nat.ceilDiv_eq_add_pred_div]
  case moves =>
    intro size newSize crossing addr
    exact sound.realloc_eq crossing addr

end Allocator

namespace Session

variable [Host σ] [LawfulHost σ] {session : Session σ ω}

/-- A policy is accepted exactly when it meets the four demands, and is otherwise refused for the first
that it fails. An accepted policy builds an allocator that routes every size below the cutoff to the
least class with room for it, and in every session that follows the entry of the class is where it is served from. -/
theorem routes_consistently (policy : Policy) :
    policy.validate = .ok policy.verdict ∧
      (policy.verdict = .ok () ↔ 1 ≤ policy.cutoff ∧ 1 ≤ policy.compactInterval ∧
        policy.alignment ∈ [1, 2, 4, 8, 16] ∧ (policy.cutoff - 1) ⌈/⌉ policy.alignment ≤ 65536) ∧
      (policy.validate = .ok (.ok ()) →
        (∀ arena : Arena σ ω, ∃ allocator, Allocator.withPolicy arena policy = .ok (.ok allocator) ∧
          allocator.policy = policy ∧ allocator.Exact) ∧
        ∀ session : Session σ ω, Attained session → session.allocator.policy = policy →
          session.allocator.Exact ∧ session.allocator.Consistent) := by
  refine ⟨policy.validate_eq, Policy.verdict_eq_ok_iff, ?_⟩
  intro valid
  obtain ⟨sound, classes⟩ := Policy.validate_spec valid
  constructor
  · intro arena
    refine ⟨⟨arena, policy, Array.replicate (max policy.classes 1) none⟩, ?_, rfl, ?_⟩
    · rw [Allocator.withPolicy, valid, checked_bind, Allocator.build, classes]
      rfl
    · exact Allocator.exact_of_size sound Array.size_replicate
  · rintro session attained rfl
    exact ⟨attained.sound.registry.exact, attained.sound.registry.toConsistent⟩

/-- Requests of nine and of sixteen bytes share the pool that one of twelve bytes has opened. -/
theorem routes_consistently_opened : ∃ session : Session (Quota Kernel) (Option Addr),
    replay fourPages .standard none [.alloc 12] = some session ∧ Policy.standard.validate = .ok (.ok ()) ∧
      Attained session ∧ session.allocator.policy = .standard ∧
      (session.pool? (.registry 1)).map Pool.entitySize = some 16 ∧
      session.allocator.Exact ∧ session.allocator.Consistent := by
  have ended : (replay fourPages .standard none [.alloc 12]).map
      (fun session : Session (Quota Kernel) (Option Addr) =>
      (session.allocator.policy, (session.pool? (.registry 1)).map Pool.entitySize)) =
        some (.standard, some 16) := by
    decide +kernel
  obtain ⟨session, replayed, shown⟩ := Option.map_eq_some_iff.mp ended
  obtain ⟨same, opened⟩ := Prod.ext_iff.mp shown
  have valid : Policy.standard.validate = .ok (.ok ()) := by decide +kernel
  have attained : Attained session :=
    (Reachable.of_replay fourPages_fresh (by decide) (by decide) replayed).attained
  exact ⟨session, replayed, valid, attained, same, opened,
    ((routes_consistently Policy.standard).2.2 valid).2 session attained same⟩

end Session
end SlabAllocator
