import SlabAllocator.Proofs.Registry

/-! Requests from the allocator to the pool or the arena that serves them. What is served is
the client's, and what the client gives back is nobody's. -/

namespace SlabAllocator.Allocator

variable [Host σ] [LawfulHost σ]
variable {allocator before middle after : Allocator σ (Books ω)} {locked more : List Extent}
  {size newSize addr index : Nat}

omit [LawfulHost σ] [Host σ] in
theorem class?_congr (same : after.policy = before.policy) (size : Nat) :
    after.class? size = before.class? size :=
  congrArg (Policy.class? · size) same

/-- A request that is served brings one block into the hands of the client. -/
def Served (locked : List Extent) (kind : Option Nat) (size : Nat) (before : Allocator σ (Books ω))
    (outcome : Outcome) (after : Allocator σ (Books ω)) : Prop :=
  Changes locked before after ∧
    match outcome with
    | .ok addr => Owns locked kind size addr after ∧
        ∀ index, (after.live index).Perm (pooled kind addr index ++ before.live index)
    | .error _ => Sound locked after ∧ ∀ index, (after.live index).Perm (before.live index)

def Halted (locked : List Extent) (before : Allocator σ (Books ω)) (fault : Fault)
    (after : Allocator σ (Books ω)) : Prop :=
  Arena.Stopped locked before.arena fault after.arena

theorem Sound.acquire_spec (sound : Sound locked allocator) (size : Nat) :
    (onArena (Arena.acquire size)).Meets allocator (Served locked none size allocator)
      (Halted locked allocator) := by
  simp only [onArena, Run.meets_focus]
  refine (Arena.acquires _ _ _ size sound.entries.accounts (Nat.le_refl _)).mono ?_
    fun fault arena stopped => stopped.unlock _
  rintro outcome arena ⟨settled, acquired⟩
  cases outcome with
  | error error =>
    obtain ⟨sound', changes, live⟩ := sound.still acquired.1 settled.steady settled.errands
    exact ⟨changes, sound', fun index => .of_eq (live index)⟩
  | ok addr =>
    have accounts := acquired.perm List.perm_middle.symm
    obtain ⟨sound', changes, live⟩ := sound.still accounts settled.steady settled.errands
    rw [← settled.steady.paged] at sound'
    exact ⟨changes, .of_block sound', fun index => .of_eq (live index)⟩

theorem Sound.alloc_spec (sound : Sound locked allocator) (size : Nat) :
    (alloc size).Meets allocator (Served locked (allocator.class? size) size allocator)
      (Halted locked allocator) := by
  cases kind : allocator.class? size with
  | none =>
    have routed := sizeClass_arena (Size.pos_of_isPowerOfTwo sound.entries.accounts.power) kind
    simp only [alloc, Run.meets_bind, Run.meets_get, Run.meets_lift routed]
    exact sound.acquire_spec size
  | some index =>
    have inside : index < allocator.pools.size := by
      rw [sound.size]
      exact (sound.policy.class?_spec kind).2.1
    simp only [alloc, Run.meets_bind, Run.meets_get, Run.meets_lift (sizeClass_pool sound.policy kind),
      Run.meets_lift (classIndex_eq sound.policy index)]
    refine Run.Ends.imp (sound.openPool_spec inside) ?_
    rintro outcome middle ⟨sound', changes, live, opened⟩
    cases outcome with
    | error error =>
      simp only [Run.meets_pure]
      exact ⟨changes, sound', fun other => .of_eq (live other)⟩
    | ok pool =>
      simp only [onEntry, Run.meets_focus]
      refine (sound'.entries.focus opened).acquire_spec.mono ?_
        fun fault after halted => ((halted.1.2.unlock _).unlock _).prepend changes.entries.steady
      rintro outcome after ⟨pool', changes', result, -⟩
      obtain ⟨sound'', changes'', live'⟩ := sound'.act opened pool' changes'
      have whole := changes.trans changes'' fun other addr old _ => by rw [live other]; exact old
      cases outcome with
      | error error =>
        refine ⟨whole, sound'', fun other => ?_⟩
        rw [live', ← live other]
        split
        next same =>
          subst same
          exact result.2.2.trans (.of_eq (Entries.live_eq opened _).symm)
        next => exact .refl _
      | ok addr =>
        have gained : (after.1.live after.2.machine.memory).Perm (addr :: allocator.live index) := by
          refine result.trans (.of_eq (congrArg _ ?_))
          rw [← live index]
          exact (Entries.live_eq opened _).symm
        refine ⟨whole, .of_slot sound'' (by rw [class?_congr whole.policy]; exact kind) ?_, fun other => ?_⟩
        · rw [live', if_pos rfl]
          exact gained.mem_iff.mpr List.mem_cons_self
        · rw [live']
          split
          next same =>
            subst same
            rw [pooled_self]
            exact gained
          next different =>
            rw [pooled_of_ne different, live other]
            exact .refl _

def Freed (locked : List Extent) (kind : Option Nat) (addr : Nat) (before after : Allocator σ (Books ω)) : Prop :=
  Sound locked after ∧ Changes locked before after ∧
    ∀ index, (before.live index).Perm (pooled kind addr index ++ after.live index)

private theorem Sound.releaseFrom_spec (sound : Sound locked allocator) {pool : Pool}
    (here : allocator.pools[index]? = some (some pool)) (taken : addr ∈ allocator.live index) :
    (onEntry index pool (Pool.release addr)).Ends allocator fun _ after =>
      Freed locked (some index) addr allocator after := by
  have mine : allocator.live index = pool.live allocator.arena.machine.memory := Entries.live_eq here _
  rw [mine] at taken
  simp only [onEntry, Run.meets_focus]
  refine ((sound.entries.focus here).release_spec taken).imp ?_
  rintro _ after ⟨pool', changes, lost, -⟩
  obtain ⟨sound', changed, live⟩ := sound.act here pool' changes
  refine ⟨sound', changed, fun other => ?_⟩
  rw [live]
  split
  next same =>
    subst same
    rw [pooled_self, mine]
    exact lost
  next different =>
    rw [pooled_of_ne different]
    exact .refl _

theorem Owns.release_spec (owns : Owns locked none size addr allocator) :
    (onArena (Arena.release size addr)).Ends allocator fun _ after => Freed locked none addr allocator after := by
  have accounts := owns.sound.entries.accounts.perm List.perm_middle
  simp only [onArena, Run.meets_focus]
  refine (Arena.Sound.release_spec accounts).imp ?_
  rintro _ arena ⟨⟨quiet, -⟩, steady, freed⟩
  obtain ⟨sound', changes, live⟩ := owns.sound.still freed steady (congrArg Books.errands quiet.env)
  exact ⟨sound', changes, fun index => .of_eq (live index).symm⟩

theorem Owns.free_spec {kind : Option Nat} (owns : Owns locked kind size addr allocator)
    (routed : allocator.class? size = kind) :
    (free size addr).Ends allocator fun _ after => Freed locked kind addr allocator after := by
  have policy := owns.sound.policy
  cases kind with
  | none =>
    have toArena := sizeClass_arena (Size.pos_of_isPowerOfTwo owns.sound.entries.accounts.power) routed
    simp only [free, Run.meets_bind, Run.meets_get, Run.meets_lift toArena]
    exact owns.release_spec
  | some index =>
    obtain ⟨taken, -⟩ := owns.slot index rfl
    obtain ⟨pool, here, -⟩ := Entries.exists_of_mem_live taken
    have found : inRange allocator.pools[index]? = .ok (some pool) := by rw [here]; rfl
    simp only [free, Run.meets_bind, Run.meets_get, Run.meets_lift (sizeClass_pool policy routed),
      Run.meets_lift (classIndex_eq policy index), Run.meets_lift found]
    exact Sound.releaseFrom_spec owns.sound here taken

/-- The pool of a slot is found by the address alone. -/
theorem Sound.releaseSlot_eq (sound : Sound locked allocator) {pool : Pool}
    (here : allocator.pools[index]? = some (some pool)) (used : addr ∈ pool.live allocator.arena.machine.memory) :
    releaseSlot addr allocator = onEntry index pool (Pool.release addr) allocator := by
  have inside := Entries.lt_size here
  have owned : allocator.pools.findIdx? (fun entry => entry.any (·.owns addr)) = some index := by
    refine Array.findIdx?_eq_some_iff_getElem.mpr ⟨inside, ?_, fun other earlier => ?_⟩
    · rw [(Array.getElem?_eq_some_iff.mp here).2]
      exact (sound.entries.owns_iff here used here).mpr rfl
    · cases entry : allocator.pools[other] with
      | none => exact Bool.false_ne_true
      | some candidate =>
        have there : allocator.pools[other]? = some (some candidate) := by
          rw [Array.getElem?_eq_getElem (Nat.lt_trans earlier inside), entry]
        exact fun claims => Nat.ne_of_lt earlier ((sound.entries.owns_iff here used there).mp claims)
  have found : inRange allocator.pools[index]? = .ok (some pool) := by rw [here]; rfl
  refine Run.eq_of_meets fun post stop => ?_
  simp only [releaseSlot, Run.meets_bind, Run.meets_get, owned, Run.meets_lift found]

theorem Sound.releaseSlot_spec (sound : Sound locked allocator) (taken : addr ∈ allocator.live index) :
    (releaseSlot addr).Ends allocator fun _ after => Freed locked (some index) addr allocator after := by
  obtain ⟨pool, here, used⟩ := Entries.exists_of_mem_live taken
  rw [Run.Ends, Run.meets_congr (sound.releaseSlot_eq here used)]
  exact sound.releaseFrom_spec here taken

end SlabAllocator.Allocator
