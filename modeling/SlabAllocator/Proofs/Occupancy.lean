import Mathlib.Data.Finset.Card
import Mathlib.Order.Interval.Finset.Nat
import SlabAllocator.Proofs.Bitmap

/-! A bitmap in use. From a reset on the lowest clear bit is taken, and bits that were taken are cleared, in
any order and as often as one likes. The search finds a bit of the tracked range as long as one of them is free. -/

namespace SlabAllocator.Bitmap

/-- A bitmap that was reset to track `bits` bits and used since, with the bits that are taken. -/
inductive Used (words : Bitmap) (bits : Nat) : Bitmap → Finset Nat → Prop where
  | reset : Used words bits (words.reset bits) ∅
  | take {current next : Bitmap} {taken : Finset Nat} {index : Nat} (used : Used words bits current taken)
      (found : current.firstFree = .ok (some index)) (changed : current.set index = .ok next) :
      Used words bits next (insert index taken)
  | clear {current next : Bitmap} {taken : Finset Nat} {index : Nat} (used : Used words bits current taken)
      (tracked : index < bits) (present : current.isSet index = .ok true)
      (changed : current.clear index = .ok next) :
      Used words bits next (taken.erase index)

variable {words current : Bitmap} {bits index : Nat} {taken : Finset Nat}

/-- The words hold the bits that are taken and those past the tracked ones, and no others. -/
structure Tracks (words : Bitmap) (bits : Nat) (current : Bitmap) (taken : Finset Nat) : Prop where
  length : current.length = words.length
  within : ∀ index ∈ taken, index < min bits (64 * words.length)
  has : ∀ index < 64 * words.length, current.has index = (decide (index ∈ taken) || decide (bits ≤ index))

namespace Tracks

theorem of_reset (words : Bitmap) (bits : Nat) : Tracks words bits (words.reset bits) ∅ where
  length := length_reset words bits
  within := by simp
  has index inside := by simp [has_reset inside]

theorem inside (tracks : Tracks words bits current taken) (inside : index < 64 * words.length) :
    index < 64 * current.length := by
  rwa [tracks.length]

/-- A clear bit is a tracked one that is not taken. -/
theorem has_eq_false_iff (tracks : Tracks words bits current taken) (inside : index < 64 * words.length) :
    current.has index = false ↔ index < min bits (64 * words.length) ∧ index ∉ taken := by
  rw [tracks.has index inside, Bool.or_eq_false_iff, decide_eq_false_iff_not, decide_eq_false_iff_not, Nat.not_le,
    Nat.lt_min, and_iff_left inside, and_comm]

theorem take (tracks : Tracks words bits current taken) (inside : index < 64 * words.length)
    (free : current.has index = false) {next : Bitmap} (length : next.length = current.length)
    (added : ∀ j, next.has j = (current.has j || j == index)) : Tracks words bits next (insert index taken) where
  length := length.trans tracks.length
  within := by
    intro other member
    rcases Finset.mem_insert.mp member with rfl | old
    · exact ((tracks.has_eq_false_iff inside).mp free).1
    · exact tracks.within other old
  has other within := by
    rw [added, tracks.has other within, Bool.eq_iff_iff]
    simp only [Bool.or_eq_true, decide_eq_true_eq, beq_iff_eq, Finset.mem_insert]
    tauto

theorem clear (tracks : Tracks words bits current taken) (tracked : index < bits) {next : Bitmap}
    (length : next.length = current.length) (removed : ∀ j, next.has j = (current.has j && j != index)) :
    Tracks words bits next (taken.erase index) where
  length := length.trans tracks.length
  within := fun other member => tracks.within other (Finset.mem_of_mem_erase member)
  has other within := by
    rw [removed, tracks.has other within, Bool.eq_iff_iff]
    simp only [Bool.and_eq_true, Bool.or_eq_true, decide_eq_true_eq, bne_iff_ne, Finset.mem_erase]
    -- past the tracked bits nothing is cleared
    have apart : bits ≤ other → other ≠ index := by omega
    tauto

/-- Every bit is set exactly when all the tracked ones are taken. -/
theorem full_iff (tracks : Tracks words bits current taken) :
    (∀ index < 64 * words.length, current.has index = true) ↔ taken.card = min bits (64 * words.length) := by
  have subset : taken ⊆ Finset.range (min bits (64 * words.length)) := fun index member =>
    Finset.mem_range.mpr (tracks.within index member)
  have all : taken.card = min bits (64 * words.length) ↔ Finset.range (min bits (64 * words.length)) ⊆ taken := by
    constructor
    · intro count
      rw [Finset.eq_of_subset_of_card_le subset (by rw [Finset.card_range, count])]
    · intro every
      rw [Finset.Subset.antisymm subset every, Finset.card_range]
  rw [all]
  constructor
  · intro full index member
    have tracked := Finset.mem_range.mp member
    have inside : index < 64 * words.length := Nat.lt_of_lt_of_le tracked (Nat.min_le_right _ _)
    by_contra free
    have clear := (tracks.has_eq_false_iff inside).mpr ⟨tracked, free⟩
    rw [full index inside] at clear
    cases clear
  · intro every index inside
    by_contra clear
    obtain ⟨tracked, free⟩ := (tracks.has_eq_false_iff inside).mp (Bool.eq_false_iff.mpr clear)
    exact free (every (Finset.mem_range.mpr tracked))

end Tracks

theorem Used.tracks (used : Used words bits current taken) : Tracks words bits current taken := by
  induction used with
  | reset => exact .of_reset words bits
  | @take current next taken index used found changed tracks =>
    rcases current.firstFree_spec with ⟨lowest, found', inside, free, -⟩ | ⟨none, -⟩
    · cases found.symm.trans found'
      obtain ⟨_, changed', length, added⟩ := current.set_ok index inside
      cases changed.symm.trans changed'
      exact tracks.take (tracks.length ▸ inside) free length added
    · cases found.symm.trans none
  | @clear current next taken index used tracked present changed tracks =>
    have inside : index < 64 * current.length := by
      by_contra beyond
      rw [isSet, List.getElem?_eq_none (by unfold wordBits; omega)] at present
      cases present
    obtain ⟨_, changed', length, removed⟩ := clear_ok inside
    cases changed.symm.trans changed'
    exact tracks.clear tracked length removed

/-- What the operations do, said by the bits that are set: the search finds the least clear one, a change is a
change of one bit, and a reset clears the first bits. -/
structure Exact (words : Bitmap) : Prop where
  found : ∀ index, words.firstFree = .ok (some index) ↔
    index < 64 * words.length ∧ words.isSet index = .ok false ∧ ∀ lower < index, words.isSet lower = .ok true
  full : words.firstFree = .ok none ↔ ∀ index < 64 * words.length, words.isSet index = .ok true
  set : ∀ index < 64 * words.length, ∃ changed, words.set index = .ok changed ∧ changed.length = words.length ∧
    ∀ other < 64 * words.length, changed.isSet other = if other = index then .ok true else words.isSet other
  clear : ∀ index < 64 * words.length, ∃ changed, words.clear index = .ok changed ∧
    changed.length = words.length ∧
    ∀ other < 64 * words.length, changed.isSet other = if other = index then .ok false else words.isSet other
  reset : ∀ bits, (words.reset bits).length = words.length ∧
    ∀ index < 64 * words.length, (words.reset bits).isSet index = .ok (decide (bits ≤ index))

theorem faithful (words : Bitmap) : words.Exact where
  found index := by
    constructor
    · intro found
      rcases words.firstFree_spec with ⟨lowest, found', inside, free, below⟩ | ⟨none, -⟩
      · cases found.symm.trans found'
        refine ⟨inside, by rw [isSet_ok inside, free], fun lower less => ?_⟩
        rw [isSet_ok (by omega), below lower less]
      · cases found.symm.trans none
    · rintro ⟨inside, free, below⟩
      rw [isSet_ok inside] at free
      rcases words.firstFree_spec with ⟨lowest, found, inside', free', below'⟩ | ⟨-, full⟩
      · rcases Nat.lt_trichotomy lowest index with less | rfl | more
        · have set := below lowest less
          rw [isSet_ok inside', free'] at set
          cases set
        · exact found
        · rw [below' index more] at free
          cases free
      · rw [full index inside] at free
        cases free
  full := by
    constructor
    · intro none index inside
      rcases words.firstFree_spec with ⟨lowest, found, -⟩ | ⟨-, full⟩
      · cases none.symm.trans found
      · rw [isSet_ok inside, full index inside]
    · intro full
      rcases words.firstFree_spec with ⟨lowest, -, inside, free, -⟩ | ⟨none, -⟩
      · have set := full lowest inside
        rw [isSet_ok inside, free] at set
        cases set
      · exact none
  set index inside := by
    obtain ⟨changed, done, length, added⟩ := words.set_ok index inside
    refine ⟨changed, done, length, fun other within => ?_⟩
    rw [isSet_ok (length ▸ within), added, isSet_ok within]
    split
    next same => simp [same]
    next different => simp [different]
  clear index inside := by
    obtain ⟨changed, done, length, removed⟩ := clear_ok inside
    refine ⟨changed, done, length, fun other within => ?_⟩
    rw [isSet_ok (length ▸ within), removed, isSet_ok within]
    split
    next same => simp [same]
    next different => simp [different]
  reset bits := by
    refine ⟨length_reset words bits, fun index inside => ?_⟩
    rw [isSet_ok (by rwa [length_reset]), has_reset inside]

/-- What a bitmap in use has to offer: a tracked bit that is not taken, until all of them are, and every taken
bit can be cleared. -/
structure Serves (words : Bitmap) (bits : Nat) (current : Bitmap) (taken : Finset Nat) : Prop where
  yields : ∀ index, current.firstFree = .ok (some index) →
    index < min bits (64 * words.length) ∧ index ∉ taken ∧ (∀ lower < index, lower ∈ taken) ∧
      ∃ next, current.set index = .ok next
  full : current.firstFree = .ok none ↔ taken.card = min bits (64 * words.length)
  clears : ∀ index ∈ taken, index < bits ∧ current.isSet index = .ok true ∧ ∃ next, current.clear index = .ok next

theorem Used.serves (used : Used words bits current taken) : Serves words bits current taken where
  yields index found := by
    have tracks := used.tracks
    obtain ⟨inside, free, below⟩ := (faithful current).found index |>.mp found
    rw [isSet_ok inside] at free
    obtain ⟨tracked, spare⟩ := (tracks.has_eq_false_iff (tracks.length ▸ inside)).mp (Except.ok.inj free)
    refine ⟨tracked, spare, fun lower less => ?_, ?_⟩
    · have set := below lower less
      rw [isSet_ok (by omega), tracks.has lower (by rw [← tracks.length]; omega)] at set
      have low : ¬ bits ≤ lower := by omega
      simpa [low] using set
    · exact ((faithful current).set index inside).imp fun _ changed => changed.1
  full := by
    have tracks := used.tracks
    rw [(faithful current).full, tracks.length]
    refine Iff.trans (forall₂_congr fun index inside => ?_) tracks.full_iff
    rw [isSet_ok (tracks.inside inside), Except.ok.injEq]
  clears index member := by
    have tracks := used.tracks
    have tracked := tracks.within index member
    have inside : index < 64 * current.length := tracks.inside (by omega)
    refine ⟨by omega, ?_, ((faithful current).clear index inside).imp fun _ changed => changed.1⟩
    rw [isSet_ok inside, tracks.has index (by omega), decide_eq_true member, Bool.true_or]

/-- On any words the search is a scan bit by bit, and a use of any length that began with a reset hands out
each tracked bit to one taker at a time. -/
theorem scans (words : Bitmap) : words.Exact ∧
    ∀ bits current taken, Used words bits current taken → Serves words bits current taken :=
  ⟨words.faithful, fun _ _ _ used => used.serves⟩

/-- Two bits are tracked in two words. Both were taken, and the first one was cleared and taken again: now the
words hold nothing but ones. -/
theorem scans_to_the_last : Used [7, 7] 2 [0xffffffffffffffff, 0xffffffffffffffff] {0, 1} ∧ Exact [7, 7] ∧
    Serves [7, 7] 2 [0xffffffffffffffff, 0xffffffffffffffff] {0, 1} := by
  have first : Used [7, 7] 2 [0xfffffffffffffffd, 0xffffffffffffffff] (insert 0 ∅) :=
    .take .reset (by decide) (by decide)
  have both : Used [7, 7] 2 [0xffffffffffffffff, 0xffffffffffffffff] {1, 0} := first.take (by decide) (by decide)
  have cleared : Used [7, 7] 2 [0xfffffffffffffffe, 0xffffffffffffffff] (Finset.erase {1, 0} 0) :=
    both.clear (by decide) (by decide) (by decide)
  have again : Used [7, 7] 2 [0xffffffffffffffff, 0xffffffffffffffff] {0, 1} :=
    cleared.take (by decide) (by decide)
  exact ⟨again, (scans [7, 7]).1, (scans [7, 7]).2 _ _ _ again⟩

end SlabAllocator.Bitmap
