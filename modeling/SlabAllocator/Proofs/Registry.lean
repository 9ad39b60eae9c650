import SlabAllocator.Proofs.Classes
import SlabAllocator.Proofs.Entries

/-! An allocator whose registry and arena are in order. What a client owns of it is a slot of the
pool that its size is routed to, or else a block of the arena. Blocks that somebody else accounts for are locked. -/

namespace SlabAllocator.Allocator

variable [Host σ] [LawfulHost σ]
variable {allocator before middle after : Allocator σ (Books ω)} {locked more rest : List Extent}
  {size newSize addr index : Nat}

def live (allocator : Allocator σ ω) (index : Nat) : List Nat :=
  Entries.live allocator.pools allocator.arena.machine.memory index

/-- The size class of a request, unless the arena serves it. -/
def class? (allocator : Allocator σ ω) (size : Nat) : Option Nat :=
  allocator.policy.class? size

structure Sound (locked : List Extent) (allocator : Allocator σ (Books ω)) : Prop where
  entries : Entries.Sound locked allocator.pools allocator.arena
  policy : allocator.policy.Sound
  word : allocator.policy.compactInterval < Size.bound
  size : allocator.pools.size = max allocator.policy.classes 1
  entitySize : ∀ (index : Nat) pool, allocator.pools[index]? = some (some pool) →
    pool.entitySize = allocator.policy.entitySize index

structure Changes (locked : List Extent) (before after : Allocator σ (Books ω)) : Prop where
  policy : after.policy = before.policy
  entries : Entries.Changes locked (before.pools, before.arena) (after.pools, after.arena)

def lent (pageSize : Nat) (kind : Option Nat) (addr size : Nat) : List Extent :=
  if kind = none then [(addr, pageBytes pageSize size)] else []

def pooled (kind : Option Nat) (addr index : Nat) : List Nat :=
  if kind = some index then [addr] else []

/-- A block is in the hands of the client, with this size. -/
structure Owns (locked : List Extent) (kind : Option Nat) (size addr : Nat)
    (allocator : Allocator σ (Books ω)) : Prop where
  sound : Sound (lent allocator.arena.pageSize kind addr size ++ locked) allocator
  slot : ∀ index, kind = some index → addr ∈ allocator.live index ∧ size ≤ allocator.policy.entitySize index

@[simp] theorem lent_none (pageSize addr size : Nat) :
    lent pageSize none addr size = [(addr, pageBytes pageSize size)] := rfl

@[simp] theorem lent_some (pageSize index addr size : Nat) : lent pageSize (some index) addr size = [] := rfl

@[simp] theorem pooled_none (addr index : Nat) : pooled none addr index = [] := rfl

@[simp] theorem pooled_self (addr index : Nat) : pooled (some index) addr index = [addr] := if_pos rfl

theorem pooled_of_ne {other : Nat} (different : index ≠ other) (addr : Nat) :
    pooled (some index) addr other = [] :=
  if_neg fun same => different (Option.some.inj same)

theorem Owns.of_block (sound : Sound ((addr, pageBytes allocator.arena.pageSize size) :: locked) allocator) :
    Owns locked none size addr allocator :=
  ⟨sound, nofun⟩

theorem Owns.of_slot (sound : Sound locked allocator) (kind : allocator.class? size = some index)
    (taken : addr ∈ allocator.live index) : Owns locked (some index) size addr allocator :=
  ⟨sound, fun other same => by cases same; exact ⟨taken, (sound.policy.class?_spec kind).2.2.1⟩⟩

omit [LawfulHost σ] [Host σ] in
theorem Changes.trans (first : Changes locked before middle) (second : Changes locked middle after)
    (through : ∀ index addr, addr ∈ before.live index → addr ∈ after.live index → addr ∈ middle.live index) :
    Changes locked before after :=
  ⟨second.policy.trans first.policy, first.entries.trans second.entries through⟩

theorem Changes.refl (sound : Sound locked allocator) : Changes locked allocator allocator := by
  refine ⟨rfl, (sound.entries.still sound.entries.accounts (.refl _ _) rfl).2.1⟩

namespace Sound

theorem perm (sound : Sound locked allocator) (same : locked.Perm more) : Sound more allocator :=
  { sound with entries := ⟨sound.entries.accounts.perm (same.append_left _), sound.entries.valid⟩ }

theorem still (sound : Sound locked allocator) {arena : Arena σ (Books ω)}
    (accounts : Arena.Sound (Entries.extents allocator.arena.pageSize allocator.pools ++ more) arena)
    (steady : Arena.Steady (Entries.extents allocator.arena.pageSize allocator.pools ++ rest) allocator.arena
      arena)
    (errands : arena.env.errands = allocator.arena.env.errands) :
    Sound more { allocator with arena } ∧ Changes rest allocator { allocator with arena } ∧
      ∀ index, live { allocator with arena } index = allocator.live index := by
  obtain ⟨entries, changes, live⟩ := sound.entries.still accounts steady errands
  exact ⟨{ sound with entries }, ⟨rfl, changes⟩, live⟩

theorem act (sound : Sound locked allocator) {pool : Pool} (here : allocator.pools[index]? = some (some pool))
    {after : Pool × Arena σ (Books ω)}
    (sound' : Pool.Sound ((Entries.without allocator.pools index).extents allocator.arena.pageSize ++
      locked) after.1 after.2)
    (changes : Pool.Changes ((Entries.without allocator.pools index).extents allocator.arena.pageSize ++ locked)
      (pool, allocator.arena) after) :
    Sound locked
        { allocator with arena := after.2, pools := allocator.pools.setIfInBounds index (some after.1) } ∧
      Changes locked allocator
        { allocator with arena := after.2, pools := allocator.pools.setIfInBounds index (some after.1) } ∧
      ∀ other,
        live { allocator with arena := after.2, pools := allocator.pools.setIfInBounds index (some after.1) } other =
        if index = other then after.1.live after.2.machine.memory else allocator.live other := by
  obtain ⟨entries, changed, others⟩ := sound.entries.act here sound' changes
  refine ⟨{ sound with entries, size := ?_, entitySize := fun other new found => ?_ },
    ⟨rfl, changed⟩, fun other => ?_⟩
  · rw [Array.size_setIfInBounds]
    exact sound.size
  · by_cases same : index = other
    · subst same
      rw [Array.getElem?_setIfInBounds_self_of_lt (Entries.lt_size here)] at found
      cases found
      rw [← sound.entitySize index pool here]
      exact congrArg Geometry.entitySize changes.geometry
    · rw [Array.getElem?_setIfInBounds_ne same] at found
      exact sound.entitySize other new found
  · by_cases same : index = other
    · subst same
      rw [if_pos rfl]
      exact Entries.live_set_self (Entries.lt_size here) _ _
    · rw [if_neg same]
      exact others other same

/-- The pool of a class, created when it is not there yet. -/
theorem openPool_spec (sound : Sound locked allocator) (inside : index < allocator.pools.size) :
    (openPool index (allocator.policy.entitySize index)).Ends allocator fun outcome after =>
      Sound locked after ∧ Changes locked allocator after ∧ (∀ other, after.live other = allocator.live other) ∧
        match outcome with
        | .ok pool => after.pools[index]? = some (some pool)
        | .error _ => True := by
  obtain ⟨entry, here⟩ : ∃ entry, allocator.pools[index]? = some entry := ⟨_, Array.getElem?_eq_getElem inside⟩
  have found : inRange allocator.pools[index]? = .ok entry := by rw [here]; rfl
  simp only [openPool, Run.meets_bind, Run.meets_get, Run.meets_lift found]
  cases entry with
  | some pool =>
    simp only [Run.meets_pure]
    exact ⟨sound, .refl sound, fun _ => trivial, here⟩
  | none =>
    simp only [onArena, Run.meets_bind, Run.meets_focus]
    refine (Pool.create_spec sound.entries.accounts (Size.pos_of_isPowerOfTwo sound.entries.accounts.power)
      sound.word (allocator.policy.entitySize index)).imp ?_
    rintro outcome arena ⟨accounts, quiet, paged, memory, created⟩
    have errands : arena.env.errands = allocator.arena.env.errands := by rw [quiet.env]
    have steady : ∀ rest, Arena.Steady rest allocator.arena arena := fun _ => .of_memory paged quiet.env memory
    cases outcome with
    | error error =>
      obtain ⟨sound', changes, live⟩ := sound.still accounts (steady _) errands
      simp only [Run.meets_pure]
      exact ⟨sound', changes, live, trivial⟩
    | ok pool =>
      obtain ⟨valid, empty, entity⟩ := created
      obtain ⟨entries, changed, others⟩ := sound.entries.enter here accounts (steady _) errands (valid _) empty
      simp only [Run.meets_bind, Run.meets_modify, Run.meets_pure]
      refine ⟨{ sound with entries, size := ?_, entitySize := fun other new found => ?_ }, ⟨rfl, changed⟩, others,
        Array.getElem?_setIfInBounds_self_of_lt inside⟩
      · rw [Array.size_setIfInBounds]
        exact sound.size
      · by_cases same : index = other
        · subst same
          rw [Array.getElem?_setIfInBounds_self_of_lt inside] at found
          cases found
          exact entity
        · rw [Array.getElem?_setIfInBounds_ne same] at found
          exact sound.entitySize other new found

end Sound
end SlabAllocator.Allocator
