import Mathlib.Algebra.Order.Floor.Div
import SlabAllocator.Allocator
import SlabAllocator.Proofs.Size

/-! How requests fall into size classes. Under a policy that was validated there is a registry
entry for every pooled size, and its pool has room for that size. -/

namespace SlabAllocator

namespace Policy

def classes (policy : Policy) : Nat :=
  (policy.cutoff - 1 + policy.alignment - 1) / policy.alignment

structure Sound (policy : Policy) : Prop where
  power : Size.isPowerOfTwo policy.alignment = true
  aligned : policy.alignment ≤ greatestAlignment
  cutoff : 0 < policy.cutoff
  few : policy.classes ≤ mostClasses

/-- The class of a size, if it is pooled. -/
def class? (policy : Policy) (size : Nat) : Option Nat :=
  if size < policy.cutoff then some ((max size 1 + policy.alignment - 1) / policy.alignment - 1) else none

def entitySize (policy : Policy) (index : Nat) : Nat :=
  (index + 1) * policy.alignment

variable {policy : Policy} {size index : Nat}

/-- What is asked of a policy, in this order, with the complaint about a policy that fails it. -/
def demands (policy : Policy) : List (Bool × PolicyError) :=
  [(decide (1 ≤ policy.cutoff), .zero "cutoff"),
    (decide (1 ≤ policy.compactInterval), .zero "compact_interval"),
    (decide (policy.alignment ∈ [1, 2, 4, 8, 16]), .alignment policy.alignment),
    (decide ((policy.cutoff - 1) ⌈/⌉ policy.alignment ≤ 65536), .cutoff policy.cutoff policy.alignment)]

def verdict (policy : Policy) : Except PolicyError Unit :=
  match policy.demands.find? fun demand => !demand.1 with
  | some (_, complaint) => .error complaint
  | none => .ok ()

theorem verdict_eq_ok_iff : policy.verdict = .ok () ↔
    1 ≤ policy.cutoff ∧ 1 ≤ policy.compactInterval ∧ policy.alignment ∈ [1, 2, 4, 8, 16] ∧
      (policy.cutoff - 1) ⌈/⌉ policy.alignment ≤ 65536 := by
  have none : policy.verdict = .ok () ↔ policy.demands.find? (fun demand => !demand.1) = none := by
    unfold verdict
    split
    next found => simp [found]
    next found => simp [found]
  rw [none, List.find?_eq_none]
  simp [demands]

theorem classes_eq (policy : Policy) : policy.classes = (policy.cutoff - 1) ⌈/⌉ policy.alignment :=
  (Nat.ceilDiv_eq_add_pred_div ..).symm

private theorem mem_alignments (alignment : Nat) :
    alignment ∈ [1, 2, 4, 8, 16] ↔ Size.isPowerOfTwo alignment = true ∧ alignment ≤ greatestAlignment := by
  by_cases small : alignment ≤ 16
  · have every : ∀ few ≤ 16, few ∈ [1, 2, 4, 8, 16] ↔ Size.isPowerOfTwo few = true ∧ few ≤ greatestAlignment := by
      decide
    exact every alignment small
  · refine iff_of_false ?_ fun allowed => small allowed.2
    simp only [List.mem_cons, List.not_mem_nil, or_false]
    omega

theorem sizeClasses_eq (cutoff : policy.cutoff ≠ 0) (power : Size.isPowerOfTwo policy.alignment = true) :
    policy.sizeClasses =
      .ok (if policy.cutoff - 1 + (policy.alignment - 1) < Size.bound then some policy.classes else none) := by
  rw [sizeClasses, if_neg cutoff, Size.roundUp?_of_isPowerOfTwo power, checked_bind]
  have positive := Size.pos_of_isPowerOfTwo power
  by_cases small : policy.cutoff - 1 + (policy.alignment - 1) < Size.bound
  · simp only [if_pos small, Size.div_ok positive, checked_bind, checked_pure,
      Nat.mul_div_cancel _ positive, classes]
  · rw [if_neg small, if_neg small]
    rfl

/-- Few classes of few bytes leave the cutoff far below the greatest size. -/
private theorem cutoff_le (positive : 0 < policy.alignment) (aligned : policy.alignment ≤ greatestAlignment)
    (few : policy.classes ≤ mostClasses) : policy.cutoff - 1 ≤ 65536 * 16 := by
  have above := (Size.ceil_bounds (n := policy.cutoff - 1) positive).1
  exact Nat.le_trans above (Nat.mul_le_mul few aligned)

/-- So a policy that is not refused for its classes can count them. -/
private theorem rounds_of_few (positive : 0 < policy.alignment) (aligned : policy.alignment ≤ greatestAlignment)
    (few : policy.classes ≤ mostClasses) : policy.cutoff - 1 + (policy.alignment - 1) < Size.bound := by
  have low := cutoff_le positive aligned few
  have bound : Size.bound = 18446744073709551616 := rfl
  have greatest : greatestAlignment = 16 := rfl
  omega

theorem validate_eq (policy : Policy) : policy.validate = .ok policy.verdict := by
  unfold validate verdict demands
  by_cases cutoff : policy.cutoff = 0
  · simp [cutoff]
  have one : 1 ≤ policy.cutoff := Nat.pos_of_ne_zero cutoff
  by_cases interval : policy.compactInterval = 0
  · simp [cutoff, interval, one]
  have often : 1 ≤ policy.compactInterval := Nat.pos_of_ne_zero interval
  have known := mem_alignments policy.alignment
  rw [if_neg cutoff, if_neg interval]
  by_cases aligned : policy.alignment ∈ [1, 2, 4, 8, 16]
  case neg =>
    have refused := mt known.mpr aligned
    rw [if_pos (by simpa [imp_iff_not_or, Nat.not_le] using refused)]
    simp only [one, often, aligned, decide_true, decide_false, Bool.not_true, Bool.not_false,
      List.find?_cons_of_neg, List.find?_cons_of_pos, Bool.false_eq_true, not_false_eq_true, checked_pure]
  obtain ⟨power, small⟩ := known.mp aligned
  rw [if_neg (by simp [power, small]), sizeClasses_eq cutoff power, checked_bind, ← classes_eq]
  by_cases few : policy.classes ≤ mostClasses
  · rw [if_pos (rounds_of_few (Size.pos_of_isPowerOfTwo power) small few)]
    have count : policy.classes ≤ 65536 := few
    simp only [if_neg (Nat.not_lt.mpr few), one, often, aligned, count, decide_true, Bool.not_true,
      List.find?_cons_of_neg, Bool.false_eq_true, not_false_eq_true, List.find?_nil, checked_pure]
  · have many : ¬ policy.classes ≤ 65536 := few
    have failing : policy.demands.find? (fun demand => !demand.1) =
        some (false, .cutoff policy.cutoff policy.alignment) := by
      rw [classes_eq] at many
      simp [demands, one, often, aligned, many]
    rw [demands, ← classes_eq] at failing
    rw [failing]
    split
    next => rfl
    next counted =>
      split at counted
      next =>
        cases counted
        rw [if_pos (Nat.not_le.mp few), checked_pure]
      next => cases counted

theorem validate_spec (valid : policy.validate = .ok (.ok ())) :
    policy.Sound ∧ policy.sizeClasses = .ok (some policy.classes) := by
  rw [validate_eq] at valid
  obtain ⟨cutoff, -, known, few⟩ := verdict_eq_ok_iff.mp (Except.ok.inj valid)
  rw [← classes_eq] at few
  obtain ⟨power, aligned⟩ := (mem_alignments _).mp known
  refine ⟨⟨power, aligned, cutoff, few⟩, ?_⟩
  rw [sizeClasses_eq (Nat.ne_of_gt cutoff) power,
    if_pos (rounds_of_few (Size.pos_of_isPowerOfTwo power) aligned few)]

namespace Sound

theorem positive (sound : policy.Sound) : 0 < policy.alignment :=
  Size.pos_of_isPowerOfTwo sound.power

theorem class?_spec (sound : policy.Sound) (found : policy.class? size = some index) :
    size < policy.cutoff ∧ index < max policy.classes 1 ∧ size ≤ policy.entitySize index ∧
      (max size 1 + policy.alignment - 1) / policy.alignment * policy.alignment = policy.entitySize index := by
  obtain ⟨below, same⟩ := Option.ite_none_right_eq_some.mp found
  cases same
  have positive := sound.positive
  have least : 1 ≤ (max size 1 + policy.alignment - 1) / policy.alignment :=
    (Nat.le_div_iff_mul_le positive).mpr (by omega)
  have most : (max size 1 + policy.alignment - 1) / policy.alignment ≤ max policy.classes 1 := by
    rcases Nat.eq_zero_or_pos size with rfl | some
    · have one : (max 0 1 + policy.alignment - 1) / policy.alignment = 1 := by
        rw [show max 0 1 + policy.alignment - 1 = policy.alignment by omega, Nat.div_self positive]
      rw [one]
      exact Nat.le_max_right ..
    · exact Nat.le_trans (Nat.div_le_div_right (by omega)) (Nat.le_max_left ..)
  have rounded := (Size.ceil_bounds (n := max size 1) positive).1
  have exact_class : policy.entitySize ((max size 1 + policy.alignment - 1) / policy.alignment - 1) =
      (max size 1 + policy.alignment - 1) / policy.alignment * policy.alignment := by
    rw [entitySize, Nat.sub_add_cancel least]
  refine ⟨below, ?_, ?_, exact_class.symm⟩
  · omega
  · rw [exact_class]
    omega

theorem pos_of_none (sound : policy.Sound) (none : policy.class? size = none) : 0 < size := by
  refine Nat.pos_of_ne_zero fun empty => ?_
  rw [empty, class?, if_pos sound.cutoff] at none
  cases none

theorem entitySize_inj (sound : policy.Sound) {other : Nat}
    (same : policy.entitySize index = policy.entitySize other) : index = other :=
  Nat.succ.inj (Nat.mul_right_cancel sound.positive same)

end Sound
end Policy

namespace Allocator

variable {allocator : Allocator σ ω} {size index : Nat}

theorem sizeClass_pool (sound : allocator.policy.Sound) (found : allocator.policy.class? size = some index) :
    allocator.sizeClass size = .ok (.pool (allocator.policy.entitySize index)) := by
  obtain ⟨below, -, -, rounded⟩ := sound.class?_spec found
  have aligned := sound.aligned
  have bound : Size.bound = 18446744073709551616 := rfl
  have greatest : Policy.greatestAlignment = 16 := rfl
  have low := Policy.cutoff_le sound.positive aligned sound.few
  rw [sizeClass, if_pos below, Size.roundUp_ok sound.power (by omega), checked_bind, checked_pure, rounded]

theorem sizeClass_arena (positive : 0 < allocator.arena.pageSize) (none : allocator.policy.class? size = none) :
    allocator.sizeClass size =
      .ok (.arena ((size + allocator.arena.pageSize - 1) / allocator.arena.pageSize)) := by
  have above : ¬ size < allocator.policy.cutoff := fun below => by
    rw [Policy.class?, if_pos below] at none
    cases none
  rw [sizeClass, if_neg above, Size.divUp_ok positive]
  rfl

theorem sizeClass_ok (sound : allocator.policy.Sound) (positive : 0 < allocator.arena.pageSize) (size : Nat) :
    ∃ sizeClass, allocator.sizeClass size = .ok sizeClass := by
  cases kind : allocator.policy.class? size with
  | none => exact ⟨_, sizeClass_arena positive kind⟩
  | some index => exact ⟨_, sizeClass_pool sound kind⟩

theorem classIndex_eq (sound : allocator.policy.Sound) (index : Nat) :
    allocator.classIndex (allocator.policy.entitySize index) = .ok index := by
  rw [classIndex, Size.div_ok sound.positive, checked_bind, Policy.entitySize,
    Nat.mul_div_cancel _ sound.positive, Size.sub_ok (Nat.le_add_left 1 index), Nat.add_sub_cancel]

theorem pool?_entitySize (sound : allocator.policy.Sound) (index : Nat) :
    allocator.pool? (allocator.policy.entitySize index) = .ok allocator.pools[index]?.join := by
  have some : allocator.policy.entitySize index ≠ 0 :=
    Nat.ne_of_gt (Nat.mul_pos (Nat.succ_pos index) sound.positive)
  have whole : allocator.policy.entitySize index % allocator.policy.alignment = 0 := Nat.mul_mod_left ..
  rw [pool?, if_neg some, Size.rem_ok sound.positive, checked_bind, if_neg (by simpa using whole),
    classIndex_eq sound]
  rfl

theorem pool?_ok (sound : allocator.policy.Sound) (entitySize : Nat) :
    ∃ entry, allocator.pool? entitySize = .ok entry := by
  unfold pool?
  by_cases empty : entitySize = 0
  · exact ⟨none, if_pos empty⟩
  rw [if_neg empty, Size.rem_ok sound.positive, checked_bind]
  by_cases whole : entitySize % allocator.policy.alignment = 0
  · have one : 1 ≤ entitySize / allocator.policy.alignment :=
      Nat.div_pos (Nat.le_of_dvd (Nat.pos_of_ne_zero empty) (Nat.dvd_of_mod_eq_zero whole)) sound.positive
    rw [if_neg (by simpa using whole), classIndex, Size.div_ok sound.positive, checked_bind, Size.sub_ok one]
    exact ⟨_, rfl⟩
  · exact ⟨none, by rw [if_pos (by simpa using whole)]; rfl⟩

end Allocator
end SlabAllocator
