import SlabAllocator.Proofs.Registry

/-! Operations that go through the registry pool by pool, and the numbers that they leave in the statistics. -/

namespace SlabAllocator.Allocator

variable [Host σ] [LawfulHost σ]
variable {allocator before middle after : Allocator σ (Books ω)} {locked more : List Extent}
  {size addr index : Nat}

def frames (allocator : Allocator σ ω) : Nat :=
  (Entries.extents allocator.arena.pageSize allocator.pools).length

theorem Sound.frames_lt (sound : Sound locked allocator) : allocator.frames < Size.bound := by
  have few := sound.entries.accounts.spread.length_lt
  simp only [List.length_append] at few
  change (Entries.extents allocator.arena.pageSize allocator.pools).length < _
  omega

omit [LawfulHost σ] [Host σ] in
theorem frames_split {pool : Pool} (here : allocator.pools[index]? = some (some pool)) :
    allocator.frames =
      pool.owners.length +
        (Entries.extents allocator.arena.pageSize (Entries.without allocator.pools index)).length := by
  have split := (Entries.extents_split here allocator.arena.pageSize []).length_eq
  simp only [List.append_nil, List.length_append, Pool.extents, List.length_map] at split
  exact split

def surplus (allocator : Allocator σ ω) (index : Nat) : List Extent :=
  allocator.pools[index]?.join.elim [] (·.surplus allocator.arena.pageSize allocator.arena.machine.memory)

/-- What becomes of the pool at an entry when those of some entries are compacted. -/
def Thinned (index count : Nat) (before after : Allocator σ ω) (other : Nat) : Prop :=
  Option.Rel (fun pool changed =>
    if index ≤ other ∧ other < index + count then
      Pool.Thinned (pool, before.arena.machine.memory) (changed, after.arena.machine.memory)
    else Pool.Untouched (pool, before.arena.machine.memory) (changed, after.arena.machine.memory))
    before.pools[other]?.join after.pools[other]?.join

/-- Frames without a slot in use have gone from the pools of some entries, and nothing else. -/
structure Swept (locked : List Extent) (index count : Nat) (before : Allocator σ (Books ω)) (released : Nat)
    (after : Allocator σ (Books ω)) : Prop where
  sound : Sound locked after
  changes : Changes locked before after
  live : ∀ index, (before.live index).Perm (after.live index)
  total : after.frames + released = before.frames
  pools : ∀ other, Thinned index count before after other
  returned : Arena.Returned ((List.range' index count).flatMap before.surplus) before.arena after.arena

private theorem Sound.compactEntry_spec (sound : Sound locked allocator) {pool : Pool}
    (here : allocator.pools[index]? = some (some pool)) :
    (onEntry index pool Pool.compact).Ends allocator (Swept locked index 1 allocator) := by
  simp only [onEntry, Run.meets_focus]
  refine (sound.entries.focus here).compact_spec.imp ?_
  rintro count after ⟨compacted, shelved, returned⟩
  obtain ⟨sound', changes, live⟩ := sound.act here compacted.sound compacted.changes
  have inside := Entries.lt_size here
  have total : after.1.owners.length + count = pool.owners.length := compacted.total
  have there : (allocator.pools.setIfInBounds index (some after.1))[index]? = some (some after.1) :=
    Array.getElem?_setIfInBounds_self_of_lt inside
  refine ⟨sound', changes, fun other => ?_, ?_, fun other => ?_, ?_⟩
  · rw [live]
    split
    next same =>
      subst same
      exact (List.Perm.of_eq (Entries.live_eq here _)).trans compacted.slots
    next => exact .refl _
  · have same : Entries.without (allocator.pools.setIfInBounds index (some after.1)) index =
        Entries.without allocator.pools index := Array.setIfInBounds_setIfInBounds ..
    have paged : after.2.pageSize = allocator.arena.pageSize := changes.entries.steady.paged
    rw [frames_split here, frames_split there, same, paged]
    omega
  · unfold Thinned
    by_cases same : index = other
    · subst same
      rw [here, there]
      apply Option.Rel.some
      rw [if_pos (by omega)]
      exact compacted.thinned shelved
    · rw [Array.getElem?_setIfInBounds_ne same]
      cases found : allocator.pools[other]?.join with
      | none => exact .none
      | some candidate =>
        apply Option.Rel.some
        rw [if_neg (by omega)]
        exact Entries.untouched_without compacted.changes.steady same (Option.join_eq_some_iff.mp found)
  · have mine : allocator.surplus index =
        pool.surplus allocator.arena.pageSize allocator.arena.machine.memory := by
      rw [surplus, here]
      rfl
    rw [List.range'_one, List.flatMap_singleton, mine]
    exact returned

/-- Where there are no pools there is nothing to do. -/
private theorem Swept.idle {count : Nat} (sound : Sound locked allocator)
    (none : ∀ other, index ≤ other ∧ other < index + count → allocator.pools[other]?.join = none) :
    Swept locked index count allocator 0 allocator := by
  refine ⟨sound, .refl sound, fun _ => .refl _, rfl, fun other => ?_, ?_⟩
  · unfold Thinned
    cases found : allocator.pools[other]?.join with
    | none => exact .none
    | some pool =>
      have outside : ¬ (index ≤ other ∧ other < index + count) := fun inside => by
        rw [none other inside] at found
        cases found
      apply Option.Rel.some
      rw [if_neg outside]
      exact .refl ..
  · have bare : (List.range' index count).flatMap allocator.surplus = [] := by
      apply List.flatMap_eq_nil_iff.mpr
      intro other member
      rw [surplus, none other (List.mem_range'_1.mp member)]
      rfl
    rw [bare]
    exact .refl _

private theorem Sound.thinned_trans {count other : Nat} (sound : Sound locked before)
    (sound' : Sound locked middle) (first : Thinned index 1 before middle other)
    (second : Thinned (index + 1) count middle after other) :
    Thinned index (count + 1) before after other := by
  unfold Thinned at first second ⊢
  generalize here : before.pools[other]?.join = old at first ⊢
  generalize there : middle.pools[other]?.join = between at first second
  generalize after.pools[other]?.join = new at second ⊢
  cases first with
  | none =>
    cases second
    exact .none
  | some first =>
    cases second with | some second =>
    have valid := sound.entries.valid other _ (Option.join_eq_some_iff.mp here)
    have valid' := sound'.entries.valid other _ (Option.join_eq_some_iff.mp there)
    apply Option.Rel.some
    by_cases same : index = other
    · rw [if_pos (by omega)] at first
      rw [if_neg (by omega)] at second
      rw [if_pos (by omega)]
      exact second.of_thinned first valid'
    · rw [if_neg (by omega)] at first
      by_cases inside : index + 1 ≤ other ∧ other < index + 1 + count
      · rw [if_pos inside] at second
        rw [if_pos (by omega)]
        exact first.thinned second valid
      · rw [if_neg inside] at second
        rw [if_neg (by omega)]
        exact first.trans second

private theorem Swept.surplus_eq {released other : Nat} (sound : Sound locked before)
    (first : Swept locked index 1 before released middle) (later : index < other) :
    middle.surplus other = before.surplus other := by
  have thinned := first.pools other
  have paged : middle.arena.pageSize = before.arena.pageSize := first.changes.entries.steady.paged
  unfold Thinned at thinned
  unfold surplus
  rw [paged]
  generalize here : before.pools[other]?.join = old at thinned ⊢
  generalize middle.pools[other]?.join = new at thinned ⊢
  cases thinned with
  | none => rw [Option.elim_none, Option.elim_none]
  | some untouched =>
    rw [if_neg (by omega)] at untouched
    obtain ⟨rfl, same⟩ := untouched
    have valid := sound.entries.valid other _ (Option.join_eq_some_iff.mp here)
    rw [Option.elim_some, Option.elim_some, valid.surplus_congr same]

/-- Two stretches of entries are compacted one after the other. -/
private theorem Swept.trans {count released more : Nat} (sound : Sound locked before)
    (first : Swept locked index 1 before released middle)
    (second : Swept locked (index + 1) count middle more after) :
    Swept locked index (count + 1) before (released + more) after := by
  have total := first.total
  have total' := second.total
  refine ⟨second.sound, first.changes.trans second.changes fun other target old _ => ?_,
    fun other => (first.live other).trans (second.live other), by omega,
    fun other => sound.thinned_trans first.sound (first.pools other) (second.pools other), ?_⟩
  · exact (first.live other).mem_iff.mp old
  · have same : (List.range' (index + 1) count).flatMap middle.surplus =
        (List.range' (index + 1) count).flatMap before.surplus := by
      rw [List.flatMap_def, List.flatMap_def]
      refine congrArg _ (List.map_congr_left fun other member => first.surplus_eq sound ?_)
      exact (List.mem_range'_1.mp member).1
    have returned := first.returned
    rw [List.range'_one, List.flatMap_singleton] at returned
    rw [List.range'_succ, List.flatMap_cons, ← same]
    exact returned.trans second.returned

theorem Sound.compactFrom_spec : ∀ (count index : Nat) {allocator : Allocator σ (Books ω)},
    Sound locked allocator →
    (compactFrom index count).Ends allocator (Swept locked index count allocator)
  | 0, index, allocator, sound => by
    simp only [compactFrom, Run.meets_pure]
    exact .idle sound fun other impossible => by omega
  | count + 1, index, allocator, sound => by
    simp only [compactFrom, Run.meets_bind, Run.meets_get]
    cases found : allocator.pools[index]?.join with
    | none =>
      refine (compactFrom_spec count (index + 1) sound).imp fun more after rest => ?_
      rw [← Nat.zero_add more]
      refine .trans sound (.idle sound fun other here => ?_) rest
      obtain rfl : index = other := by omega
      exact found
    | some pool =>
      simp only [Run.meets_bind]
      refine (sound.compactEntry_spec (Option.join_eq_some_iff.mp found)).imp fun released middle first => ?_
      refine (compactFrom_spec count (index + 1) first.sound).imp fun more after rest => ?_
      have small := sound.frames_lt
      have total := first.total
      have total' := rest.total
      simp only [Run.meets_lift (Size.add_ok (show released + more < Size.bound by omega))]
      exact .trans sound first rest

theorem Sound.compactAll_spec (sound : Sound locked allocator) :
    compactAll.Ends allocator (Swept locked 0 allocator.pools.size allocator) := by
  simp only [compactAll, Run.meets_bind, Run.meets_get]
  exact sound.compactFrom_spec allocator.pools.size 0

omit [LawfulHost σ] [Host σ] in
theorem flatMap_registered (allocator : Allocator σ ω) (parts : Pool → List α) :
    allocator.registered.flatMap parts =
    (List.range allocator.pools.size).flatMap fun index => allocator.pools[index]?.join.elim [] parts := by
  have split : ∀ entries : List (Option Pool), (entries.filterMap id).flatMap parts =
      entries.flatMap fun entry => entry.elim [] parts := by
    intro entries
    induction entries with
    | nil => rfl
    | cons entry rest ih => cases entry <;> simpa using ih
  have indexed : allocator.pools.toList = (List.range allocator.pools.size).map fun index =>
      allocator.pools[index]?.join := by
    refine List.ext_getElem (by simp) fun index inside _ => ?_
    rw [Array.length_toList] at inside
    simp [Array.getElem?_eq_getElem inside]
  rw [registered, split, indexed, List.flatMap_map]

def chained (allocator : Allocator σ ω) (index : Nat) : List Extent :=
  Entries.chained allocator.pools allocator.arena.pageSize allocator.arena.machine.memory index

structure Cleared (locked : List Extent) (index count : Nat) (before after : Allocator σ (Books ω)) : Prop where
  sound : Sound locked after
  changes : Changes locked before after
  pools : ∀ other : Nat,
    after.pools[other]?.join = if index ≤ other ∧ other < index + count then none else before.pools[other]?.join
  returned : Arena.Returned ((List.range' index count).flatMap before.chained) before.arena after.arena
  live : ∀ other, after.live other = if index ≤ other ∧ other < index + count then [] else before.live other

private theorem Sound.destroyEntry_spec (sound : Sound locked allocator) {pool : Pool}
    (here : allocator.pools[index]? = some (some pool)) :
    (do
      onEntry index pool Pool.destroy
      modify fun allocator => { allocator with pools := allocator.pools.setIfInBounds index none } :
        Run (Allocator σ (Books ω)) Unit).Ends allocator
      fun _ after => Sound locked after ∧ Changes locked allocator after ∧
        (∀ other, after.live other = if index = other then [] else allocator.live other) ∧
        after.pools = Entries.without allocator.pools index ∧
        (∀ other, index ≠ other → after.chained other = allocator.chained other) ∧
        Arena.Returned (allocator.chained index) allocator.arena after.arena := by
  simp only [onEntry, Run.meets_bind, Run.meets_focus, Run.meets_modify, Array.setIfInBounds_setIfInBounds]
  refine (sound.entries.focus here).destroy_spec.imp ?_
  rintro _ after ⟨accounts, steady, returned⟩
  have mine : allocator.chained index = pool.chained allocator.arena.pageSize allocator.arena.machine.memory := by
    rw [chained, Entries.chained, here]
    rfl
  obtain ⟨entries, changes, live⟩ :=
    sound.entries.leave here accounts steady (congrArg Books.errands returned.quiet.env)
  refine ⟨{ sound with entries, size := ?_, entitySize := fun other pool found => ?_ }, ⟨rfl, changes⟩, live, rfl,
    fun other => sound.entries.chained_without steady, by rw [mine]; exact returned⟩
  · rw [Array.size_setIfInBounds]
    exact sound.size
  · by_cases same : index = other
    · subst same
      rw [Array.getElem?_setIfInBounds_self_of_lt (Entries.lt_size here)] at found
      cases found
    · rw [Array.getElem?_setIfInBounds_ne same] at found
      exact sound.entitySize other pool found

theorem Sound.destroyFrom_spec : ∀ (count index : Nat) {allocator : Allocator σ (Books ω)},
    Sound locked allocator →
    (destroyFrom index count).Ends allocator fun _ after => Cleared locked index count allocator after
  | 0, index, allocator, sound => by
    simp only [destroyFrom, Run.meets_pure]
    exact ⟨sound, .refl sound, fun other => (if_neg (by omega)).symm, .refl _,
      fun other => (if_neg (by omega)).symm⟩
  | count + 1, index, allocator, sound => by
    simp only [destroyFrom, Run.meets_bind, Run.meets_get]
    cases found : allocator.pools[index]?.join with
    | none =>
      refine (destroyFrom_spec count (index + 1) sound).imp fun _ after rest =>
        ⟨rest.sound, rest.changes, fun other => ?_, ?_, fun other => ?_⟩
      · rw [rest.pools]
        by_cases same : index = other
        · subst same
          rw [if_neg (by omega), found, if_pos (by omega)]
        · exact if_congr (by omega) rfl rfl
      · have none : allocator.chained index = [] := by
          rw [chained, Entries.chained, found]
          rfl
        rw [List.range'_succ, List.flatMap_cons, none]
        exact rest.returned
      have vacant : allocator.live index = [] := by
        rw [live, Entries.live, found]
        rfl
      rw [rest.live]
      by_cases same : index = other
      · subst same
        rw [if_neg (by omega), vacant, if_pos (by omega)]
      · exact if_congr (by omega) rfl rfl
    | some pool =>
      have cleared := sound.destroyEntry_spec (Option.join_eq_some_iff.mp found)
      simp only [Run.meets_bind] at cleared ⊢
      refine Run.Ends.imp cleared fun _ middle modified => modified.imp ?_
      rintro _ emptied ⟨sound', changes, live, pools, others, returned⟩
      refine (destroyFrom_spec count (index + 1) sound').imp fun _ after rest =>
        ⟨rest.sound, ?_, fun other => ?_, ?_, fun other => ?_⟩
      · refine changes.trans rest.changes fun other target _ last => ?_
        rw [rest.live] at last
        split at last
        · cases last
        · exact last
      · rw [rest.pools, pools]
        by_cases same : index = other
        · subst same
          rw [if_neg (by omega), if_pos (by omega), Entries.without,
            Array.getElem?_setIfInBounds_self_of_lt (Entries.lt_size (Option.join_eq_some_iff.mp found))]
          rfl
        · rw [Entries.without, Array.getElem?_setIfInBounds_ne same]
          exact if_congr (by omega) rfl rfl
      · have later : (List.range' (index + 1) count).flatMap emptied.chained =
            (List.range' (index + 1) count).flatMap allocator.chained := by
          rw [List.flatMap_def, List.flatMap_def]
          refine congrArg _ (List.map_congr_left fun other member => others other ?_)
          have := List.mem_range'_1.mp member
          omega
        rw [List.range'_succ, List.flatMap_cons, ← later]
        exact returned.trans rest.returned
      · rw [rest.live, live]
        by_cases same : index = other
        · subst same
          rw [if_neg (by omega), if_pos rfl, if_pos (by omega)]
        · rw [if_neg same]
          exact if_congr (by omega) rfl rfl

theorem Sound.teardown_spec (sound : Sound locked allocator) :
    teardown.Ends allocator fun _ after => Sound locked after ∧ Changes locked allocator after ∧
      (∀ index, after.live index = []) ∧ (∀ index : Nat, after.pools[index]?.join = none) ∧
      Arena.Returned (allocator.registered.flatMap
        (·.chained allocator.arena.pageSize allocator.arena.machine.memory))
        allocator.arena after.arena := by
  simp only [teardown, Run.meets_bind, Run.meets_get]
  refine (sound.destroyFrom_spec allocator.pools.size 0).imp fun _ after cleared => ?_
  have vacant : ∀ index : Nat, after.pools[index]?.join = none := fun index => by
    rw [cleared.pools]
    split
    · rfl
    next beyond =>
      have absent : allocator.pools[index]? = none := Array.getElem?_eq_none (by omega)
      rw [absent]
      rfl
  refine ⟨cleared.sound, cleared.changes, fun index => ?_, vacant, ?_⟩
  · rw [live, Entries.live, vacant]
    rfl
  · rw [flatMap_registered, List.range_eq_range']
    exact cleared.returned

def slots (allocator : Allocator σ ω) : List Nat :=
  allocator.registered.flatMap (·.live allocator.arena.machine.memory)

omit [LawfulHost σ] [Host σ] in
theorem slots_eq (allocator : Allocator σ ω) :
    allocator.slots = (List.range allocator.pools.size).flatMap allocator.live :=
  allocator.flatMap_registered _

private theorem total_flatMap (pools : List Pool) (extents : Pool → List Extent) :
    Extent.total (pools.flatMap extents) = (pools.map fun pool => Extent.total (extents pool)).sum := by
  induction pools with
  | nil => rfl
  | cons pool rest ih => rw [List.flatMap_cons, Extent.total_append, ih, List.map_cons, List.sum_cons]

private theorem mapM_ok {pools : List Pool} {count : Pool → Checked Nat} {result : Pool → Nat}
    (counted : ∀ pool ∈ pools, count pool = .ok (result pool)) : pools.mapM count = .ok (pools.map result) := by
  induction pools with
  | nil => rfl
  | cons pool rest ih =>
    rw [List.mapM_cons, counted pool List.mem_cons_self,
      ih fun other member => counted other (List.mem_cons_of_mem _ member)]
    rfl

/-- The statistics count what is there, and never overflow. -/
theorem Sound.stats_eq (sound : Sound locked allocator) :
    allocator.stats = .ok ⟨allocator.arena.stats, allocator.registered.length, allocator.frames,
      allocator.slots.length⟩ := by
  have valid : ∀ pool ∈ allocator.registered, pool.Valid allocator.arena.machine.memory := fun pool member =>
    let ⟨index, here⟩ := Entries.mem_pools.mp member
    sound.entries.valid index pool here
  have power := sound.entries.accounts.power
  have frames : (allocator.registered.map Pool.frameCount).sum = allocator.frames := sound.entries.frameCount_eq _
  have few : (allocator.registered.map fun pool => (pool.live allocator.arena.machine.memory).length).sum <
      Size.bound := by
    have room : Extent.total _ < Size.bound := sound.entries.accounts.spread.sum_lt
    have bytes := List.sum_le_sum fun pool member =>
      (valid pool member).length_live_le power
    rw [Extent.total_append, Extent.total_append, Entries.extents, total_flatMap] at room
    exact Nat.lt_of_le_of_lt bytes (by change (allocator.registered.map _).sum + _ + _ < _ at room; omega)
  have each : ∀ pool ∈ allocator.registered,
      (pool.live allocator.arena.machine.memory).length < Size.bound := fun pool member =>
    Nat.lt_of_le_of_lt (List.le_sum_of_mem (List.mem_map.mpr ⟨pool, member, rfl⟩)) few
  have counted := mapM_ok fun pool member => (valid pool member).liveSlots_ok (each pool member)
  rw [stats, Size.sum_ok (by rw [frames]; exact sound.frames_lt), checked_bind, counted, checked_bind,
    Size.sum_ok few, checked_bind, checked_pure, frames, slots, List.length_flatMap]

end SlabAllocator.Allocator
