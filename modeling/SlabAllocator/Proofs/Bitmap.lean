import Mathlib.Algebra.GroupWithZero.Nat
import SlabAllocator.Bitmap

/-! A bitmap as the set of its set bits. The search finds the lowest bit that is not in it:
in a word the isolated bit is the lowest clear one, and the table names its place. -/

namespace SlabAllocator.Bitmap

/-- Whether a bit is set. A bit past the last word is not. -/
def has (words : Bitmap) (index : Nat) : Bool :=
  (words.getD (index / 64) 0).toNat.testBit (index % 64)

theorem has_cons (word : UInt64) (rest : Bitmap) (index : Nat) :
    has (word :: rest) index = if index < 64 then word.toNat.testBit index else has rest (index - 64) := by
  unfold has
  split
  next low => rw [Nat.div_eq_of_lt low, Nat.mod_eq_of_lt low]; rfl
  next high =>
    rw [show index / 64 = (index - 64) / 64 + 1 by omega, show index % 64 = (index - 64) % 64 by omega]
    rfl

private theorem testBit_not (word : UInt64) {i : Nat} (inside : i < 64) :
    (~~~word).toNat.testBit i = !word.toNat.testBit i := by
  have small := word.toNat_lt
  rw [UInt64.toNat_not, show UInt64.size - 1 - word.toNat = 2 ^ 64 - (word.toNat + 1) by
    simp only [UInt64.size]; omega, Nat.testBit_two_pow_sub_succ small]
  simp [inside]

private theorem testBit_of_le (word : UInt64) {i : Nat} (beyond : 64 ≤ i) : word.toNat.testBit i = false :=
  Nat.testBit_lt_two_pow (Nat.lt_of_lt_of_le word.toNat_lt (Nat.pow_le_pow_right (by decide) beyond))

/-- The set bits of a bitmap and its words tell all of it. -/
theorem eq_of_has {words other : Bitmap} (length : words.length = other.length)
    (same : ∀ index, index < 64 * words.length → words.has index = other.has index) : words = other := by
  apply List.ext_getElem length
  intro place inside inside'
  apply UInt64.toNat_inj.mp
  apply Nat.eq_of_testBit_eq
  intro bit
  by_cases low : bit < 64
  · have agree := same (64 * place + bit) (by omega)
    rw [has, has, show (64 * place + bit) / 64 = place by omega, show (64 * place + bit) % 64 = bit by omega,
      List.getD_eq_getElem?_getD, List.getD_eq_getElem?_getD, List.getElem?_eq_getElem inside,
      List.getElem?_eq_getElem inside'] at agree
    exact agree
  · rw [testBit_of_le _ (Nat.le_of_not_lt low), testBit_of_le _ (Nat.le_of_not_lt low)]

private theorem bitIndex_pow (k : Fin 64) : bitIndex (UInt64.ofNat (2 ^ k.val)) = .ok k.val := by
  have single : ∀ k : Fin 64, (UInt64.ofNat (2 ^ k.val) != 0 &&
      UInt64.ofNat (2 ^ k.val) &&& (UInt64.ofNat (2 ^ k.val) - 1) == 0) = true := by decide
  have listed : ∀ k : Fin 64, windows[window (UInt64.ofNat (2 ^ k.val))]? = some k.val := by decide
  rw [bitIndex, single k, listed k]
  rfl

private theorem isolate_full {word : UInt64} (full : ∀ i, i < 64 → word.toNat.testBit i = true) :
    isolate word = 0 := by
  have none : ~~~word = 0 := by
    apply UInt64.toNat_inj.mp
    apply Nat.eq_of_testBit_eq
    intro i
    rw [show (0 : UInt64).toNat = 0 from rfl, Nat.zero_testBit]
    by_cases inside : i < 64
    · rw [testBit_not word inside, full i inside]; rfl
    · exact testBit_of_le _ (by omega)
  rw [isolate, none, UInt64.zero_and]

/-- Below the lowest clear bit adding one carries, above it nothing changes. -/
private theorem isolate_eq {word : UInt64} {k : Nat} (inside : k < 64)
    (clear : word.toNat.testBit k = false) (below : ∀ i, i < k → word.toNat.testBit i = true) :
    isolate word = UInt64.ofNat (2 ^ k) := by
  have low : word.toNat % 2 ^ (k + 1) = 2 ^ k - 1 := by
    apply Nat.eq_of_testBit_eq
    intro i
    rw [Nat.testBit_mod_two_pow, Nat.testBit_two_pow_sub_one]
    rcases Nat.lt_trichotomy i k with less | same | more
    · simp [below i less, less, Nat.lt_succ_of_lt less]
    · subst same; simp [clear]
    · simp [show ¬ i < k + 1 by omega, show ¬ i < k by omega]
  have split := Nat.div_add_mod word.toNat (2 ^ (k + 1))
  rw [low] at split
  have positive := Nat.two_pow_pos k
  have double : 2 ^ (k + 1) = 2 * 2 ^ k := Nat.pow_succ'
  have next : word.toNat + 1 = 2 ^ (k + 1) * (word.toNat / 2 ^ (k + 1)) + 2 ^ k := by omega
  have small : word.toNat + 1 < 2 ^ 64 := by
    refine Nat.lt_of_le_of_ne word.toNat_lt fun full => ?_
    -- a word of ones has no clear bit
    have ones : word.toNat = 2 ^ 64 - 1 := by omega
    rw [ones, Nat.testBit_two_pow_sub_one] at clear
    simp [inside] at clear
  have sum : (word + 1).toNat = word.toNat + 1 := by
    rw [UInt64.toNat_add, show (1 : UInt64).toNat = 1 from rfl, Nat.mod_eq_of_lt small]
  have power : (UInt64.ofNat (2 ^ k)).toNat = 2 ^ k :=
    UInt64.toNat_ofNat_of_lt' (Nat.pow_lt_pow_right (by decide) inside)
  apply UInt64.toNat_inj.mp
  rw [power, isolate, UInt64.toNat_and, sum]
  apply Nat.eq_of_testBit_eq
  intro i
  rw [Nat.testBit_and, Nat.testBit_two_pow]
  by_cases within : i < 64
  · rw [testBit_not word within]
    rw [next, Nat.testBit_two_pow_mul_add _ (by omega)]
    rcases Nat.lt_trichotomy i k with less | same | more
    · simp [below i less, Nat.ne_of_gt less]
    · subst same; simp [clear]
    · rw [if_neg (by omega), ← Nat.testBit_two_pow_mul_add (word.toNat / 2 ^ (k + 1)) (b := 2 ^ k - 1)
        (i := k + 1) (by omega) i |>.trans (if_neg (by omega)), split]
      simp [Nat.ne_of_lt more]
  · rw [testBit_of_le _ (by omega), Bool.false_and]
    exact (decide_eq_false (by omega)).symm

private theorem lowest_or_full (word : UInt64) :
    (∃ k, k < 64 ∧ word.toNat.testBit k = false ∧ ∀ i, i < k → word.toNat.testBit i = true) ∨
      ∀ i, i < 64 → word.toNat.testBit i = true := by
  have search : ∀ n, (∃ k, k < n ∧ word.toNat.testBit k = false ∧ ∀ i, i < k → word.toNat.testBit i = true) ∨
      ∀ i, i < n → word.toNat.testBit i = true := by
    intro n
    induction n with
    | zero => right; intro i inside; omega
    | succ n ih =>
      rcases ih with ⟨k, inside, clear, below⟩ | full
      · exact .inl ⟨k, by omega, clear, below⟩
      · cases bit : word.toNat.testBit n with
        | false => exact .inl ⟨n, by omega, bit, full⟩
        | true =>
          right
          intro i inside
          rcases Nat.lt_or_eq_of_le (Nat.le_of_lt_succ inside) with less | rfl
          · exact full i less
          · exact bit
  exact search 64

private theorem ofNat_pow_ne_zero {k : Nat} (inside : k < 64) : UInt64.ofNat (2 ^ k) ≠ 0 := by
  intro zero
  have value := congrArg UInt64.toNat zero
  rw [UInt64.toNat_ofNat_of_lt' (Nat.pow_lt_pow_right (by decide) inside)] at value
  exact Nat.ne_of_gt (Nat.two_pow_pos k) value

theorem firstFreeFrom_spec (words : Bitmap) (start : Nat) :
    (∃ i, firstFreeFrom start words = .ok (some (start + i)) ∧ i < 64 * words.length ∧
        has words i = false ∧ ∀ j, j < i → has words j = true) ∨
      (firstFreeFrom start words = .ok none ∧ ∀ j, j < 64 * words.length → has words j = true) := by
  induction words generalizing start with
  | nil => right; exact ⟨rfl, fun j inside => by simp at inside⟩
  | cons word rest ih =>
    simp only [has_cons, List.length_cons]
    rcases lowest_or_full word with ⟨k, inside, clear, below⟩ | full
    · left
      refine ⟨k, ?_, by omega, by rw [if_pos inside]; exact clear, fun j less => ?_⟩
      · simp only [firstFreeFrom, isolate_eq inside clear below, if_neg (ofNat_pow_ne_zero inside),
          bitIndex_pow ⟨k, inside⟩]
        rfl
      · rw [if_pos (by omega)]; exact below j less
    · have onward : firstFreeFrom start (word :: rest) = firstFreeFrom (start + 64) rest := by
        simp only [firstFreeFrom, isolate_full full, if_pos]
        rfl
      rcases ih (start + 64) with ⟨i, found, inside, clear, below⟩ | ⟨none, taken⟩
      · left
        refine ⟨64 + i, ?_, by omega, ?_, fun j less => ?_⟩
        · rw [onward, found, Nat.add_assoc]
        · rw [if_neg (by omega), Nat.add_sub_cancel_left]; exact clear
        · split
          · exact full j (by assumption)
          · exact below (j - 64) (by omega)
      · right
        refine ⟨onward.trans none, fun j inside => ?_⟩
        split
        · exact full j (by assumption)
        · exact taken (j - 64) (by omega)

/-- The search yields the least clear bit, or nothing when every bit is set. -/
theorem firstFree_spec (words : Bitmap) :
    (∃ i, words.firstFree = .ok (some i) ∧ i < 64 * words.length ∧
        has words i = false ∧ ∀ j, j < i → has words j = true) ∨
      (words.firstFree = .ok none ∧ ∀ j, j < 64 * words.length → has words j = true) := by
  simpa only [firstFree, Nat.zero_add] using firstFreeFrom_spec words 0

private theorem bit_toNat (index : Nat) : (bit index).toNat = 2 ^ (index % 64) := by
  have small : index % 64 < 64 := Nat.mod_lt _ (by decide)
  have shift : ((index % wordBits).toUInt64).toNat = index % 64 := by
    change (index % 64) % 2 ^ 64 = _
    omega
  rw [bit, UInt64.toNat_shiftLeft, shift, Nat.mod_eq_of_lt small, show (1 : UInt64).toNat = 1 from rfl,
    Nat.one_shiftLeft, Nat.mod_eq_of_lt (Nat.pow_lt_pow_right (by decide) small)]

private theorem getElem?_word {words : Bitmap} {index : Nat} (inside : index < 64 * words.length) :
    words[index / 64]? = some (words.getD (index / 64) 0) := by
  rw [List.getD_eq_getElem?_getD, List.getElem?_eq_getElem (by omega)]
  rfl

private theorem and_bit_ne_zero (word : UInt64) (index : Nat) :
    (word &&& bit index != 0) = word.toNat.testBit (index % 64) := by
  have zero : (word &&& bit index = 0) ↔ word.toNat.testBit (index % 64) = false := by
    rw [← UInt64.toNat_inj, UInt64.toNat_and, bit_toNat, show (0 : UInt64).toNat = 0 from rfl]
    constructor
    · intro none
      have at_bit := congrArg (·.testBit (index % 64)) none
      simpa [Nat.testBit_and, Nat.testBit_two_pow_self] using at_bit
    · intro clear
      apply Nat.eq_of_testBit_eq
      intro i
      rw [Nat.testBit_and, Nat.testBit_two_pow, Nat.zero_testBit]
      by_cases here : index % 64 = i
      · rw [← here, clear, Bool.false_and]
      · rw [decide_eq_false here, Bool.and_false]
  cases bit : word.toNat.testBit (index % 64) with
  | false => simp [zero.mpr bit]
  | true => simpa [bne_iff_ne] using fun none => Bool.noConfusion (bit.symm.trans (zero.mp none))

private theorem getD_set (words : Bitmap) (place other : Nat) (word : UInt64) (inside : place < words.length) :
    (List.set words place word).getD other 0 = if place = other then word else words.getD other 0 := by
  simp only [List.getD_eq_getElem?_getD, List.getElem?_set]
  by_cases same : place = other
  · subst same; rw [if_pos rfl, if_pos rfl, if_pos inside]; rfl
  · rw [if_neg same, if_neg same]

theorem isSet_ok {words : Bitmap} {index : Nat} (inside : index < 64 * words.length) :
    words.isSet index = .ok (has words index) := by
  rw [isSet, show words[index / wordBits]? = _ from getElem?_word inside]
  exact congrArg Except.ok (and_bit_ne_zero ..)

theorem set_ok (words : Bitmap) (index : Nat) (inside : index < 64 * words.length) :
    ∃ changed, words.set index = .ok changed ∧ changed.length = words.length ∧
      ∀ j, has changed j = (has words j || j == index) := by
  refine ⟨List.set words (index / 64) (words.getD (index / 64) 0 ||| bit index), ?_, by simp, fun j => ?_⟩
  · rw [Bitmap.set, show words[index / wordBits]? = _ from getElem?_word inside]
    rfl
  · rw [has, getD_set _ _ _ _ (by omega)]
    split
    next same =>
      rw [UInt64.toNat_or, bit_toNat, Nat.testBit_or, Nat.testBit_two_pow, has, same]
      congr 1
      rw [Bool.eq_iff_iff, decide_eq_true_eq, beq_iff_eq]
      omega
    next different =>
      rw [show (j == index) = false from beq_false_of_ne fun same => different (by rw [same]), Bool.or_false, has]

theorem clear_ok {words : Bitmap} {index : Nat} (inside : index < 64 * words.length) :
    ∃ changed, words.clear index = .ok changed ∧ changed.length = words.length ∧
      ∀ j, has changed j = (has words j && j != index) := by
  refine ⟨List.set words (index / 64) (words.getD (index / 64) 0 &&& ~~~bit index), ?_, by simp, fun j => ?_⟩
  · rw [Bitmap.clear, show words[index / wordBits]? = _ from getElem?_word inside]
    rfl
  · rw [has, getD_set _ _ _ _ (by omega)]
    split
    next same =>
      rw [UInt64.toNat_and, Nat.testBit_and, testBit_not _ (by omega), bit_toNat, Nat.testBit_two_pow, has, same]
      congr 1
      rw [Bool.eq_iff_iff, Bool.not_eq_true', decide_eq_false_iff_not, bne_iff_ne]
      omega
    next different =>
      rw [show (j != index) = true from bne_iff_ne.mpr fun same => different (by rw [same]), Bool.and_true, has]

private theorem testBit_ones (i : Nat) : (~~~(0 : UInt64)).toNat.testBit i = decide (i < 64) := by
  rw [show (~~~(0 : UInt64)).toNat = 2 ^ 64 - 1 by decide, Nat.testBit_two_pow_sub_one]

private theorem testBit_freshWord (bits i k : Nat) (inside : k < 64) :
    (freshWord bits i).toNat.testBit k = decide (bits ≤ i * 64 + k) := by
  rw [show freshWord bits i = if i * 64 + 64 ≤ bits then (0 : UInt64) else if bits ≤ i * 64 then ~~~0
    else ~~~0 <<< (bits - i * 64).toUInt64 from rfl]
  by_cases under : i * 64 + 64 ≤ bits
  · rw [if_pos under, show (0 : UInt64).toNat = 0 from rfl, Nat.zero_testBit]
    exact (decide_eq_false (by omega)).symm
  · rw [if_neg under]
    by_cases beyond : bits ≤ i * 64
    · rw [if_pos beyond, testBit_ones, decide_eq_true inside, decide_eq_true (by omega)]
    · rw [if_neg beyond]
      have shift : ((bits - i * 64).toUInt64).toNat = bits - i * 64 := by
        change (bits - i * 64) % 2 ^ 64 = _
        omega
      rw [UInt64.toNat_shiftLeft, shift, Nat.mod_eq_of_lt (a := bits - i * 64) (by omega),
        Nat.testBit_mod_two_pow, Nat.testBit_shiftLeft, testBit_ones, Bool.eq_iff_iff]
      simp only [Bool.and_eq_true, decide_eq_true_eq]
      omega

@[simp] theorem length_reset (words : Bitmap) (bits : Nat) : (words.reset bits).length = words.length := by
  simp [reset]

theorem has_reset {words : Bitmap} {bits i : Nat} (inside : i < 64 * words.length) :
    has (words.reset bits) i = decide (bits ≤ i) := by
  rw [has, reset, List.getD_eq_getElem?_getD, List.getElem?_mapIdx, getElem?_word inside]
  change (freshWord bits (i / 64)).toNat.testBit (i % 64) = _
  rw [testBit_freshWord _ _ _ (by omega), Nat.div_add_mod']

theorem map_toNat_toUInt64 (words : Bitmap) : (words.map UInt64.toNat).map Nat.toUInt64 = words := by
  rw [List.map_map]
  refine (List.map_congr_left fun word _ => ?_).trans (List.map_id words)
  exact UInt64.ofNat_toNat

end SlabAllocator.Bitmap
