import Mathlib.Algebra.GroupWithZero.Nat
import SlabAllocator.Bytes
import Std.Data.TreeMap.Lemmas

/-! Bytes place by place. Chunks are only storage: each operation is described by what it
does to `get`, and numbers are read off that view. -/

namespace SlabAllocator

theorem numberAt_congr {f g : Nat → UInt8} {i j count : Nat}
    (same : ∀ k, k < count → f (i + k) = g (j + k)) : numberAt f i count = numberAt g j count := by
  induction count generalizing i j with
  | zero => rfl
  | succ count ih =>
    have first : f i = g j := same 0 (by omega)
    have rest : numberAt f (i + 1) count = numberAt g (j + 1) count :=
      ih fun k inside => by
        rw [show i + 1 + k = i + (k + 1) by omega, show j + 1 + k = j + (k + 1) by omega]
        exact same (k + 1) (by omega)
    rw [numberAt, numberAt, first, rest]

@[simp]
theorem length_toBytes (count n : Nat) : (toBytes count n).length = count := by
  induction count generalizing n with
  | zero => rfl
  | succ count ih => simp [toBytes, ih]

theorem numberAt_toBytes {f : Nat → UInt8} {i count n : Nat}
    (written : ∀ k, k < count → f (i + k) = (toBytes count n).getD k 0) :
    numberAt f i count = n % 256 ^ count := by
  induction count generalizing i n with
  | zero => simp [numberAt, Nat.mod_one]
  | succ count ih =>
    have first : f i = UInt8.ofNat n := written 0 (by omega)
    have rest : numberAt f (i + 1) count = n / 256 % 256 ^ count :=
      ih fun k inside => by
        have later := written (k + 1) (by omega)
        rwa [show i + (k + 1) = i + 1 + k by omega] at later
    rw [numberAt, first, rest, UInt8.toNat_ofNat', show 256 ^ (count + 1) = 256 * 256 ^ count from Nat.pow_succ',
      Nat.mod_mul]

namespace Bytes

@[simp]
theorem get_empty (i : Nat) : empty.get i = 0 := by
  simp [get, chunk, empty]

private theorem chunk_store (bytes : Bytes) (number other : Nat) (chunk : Array UInt8) :
    (bytes.store number chunk).chunk other = if number = other then chunk else bytes.chunk other := by
  simp [Bytes.chunk, store, Std.TreeMap.getD_insert]

private theorem getD_setIn (chunk : Array UInt8) (i j : Nat) (value : UInt8) :
    (setIn chunk i value).getD j 0 = if j = i then value else chunk.getD j 0 := by
  unfold setIn
  split
  next inside =>
    simp only [Array.getD_eq_getD_getElem?, Array.getElem?_set]
    by_cases same : i = j
    · subst same; simp
    · simp [same, Ne.symm same]
  next outside =>
    simp only [Array.getD_eq_getD_getElem?, Array.getElem?_push, Array.getElem?_append,
      Array.size_append, Array.size_replicate, Array.getElem?_replicate]
    by_cases same : j = i
    · subst same
      rw [if_pos (by omega), if_pos rfl]
      rfl
    · rw [if_neg (by omega), if_neg same]
      split
      · rfl
      · split <;> simp_all

private theorem get_eq (bytes : Bytes) (i : Nat) :
    bytes.get i = (bytes.chunk (i / 512)).getD (i % 512) 0 :=
  rfl

private theorem get_store (bytes : Bytes) (number i : Nat) (chunk : Array UInt8) :
    (bytes.store number chunk).get i =
      if number = i / 512 then chunk.getD (i % 512) 0 else bytes.get i := by
  simp only [get_eq, chunk_store]
  split <;> rfl

private theorem get_setFrom (values : List UInt8) (bytes : Bytes) (number : Nat)
    (chunk : Array UInt8) (i j : Nat) (inside : i ≤ 512) :
    (setFrom bytes number chunk i values).get j =
      if number * 512 + i ≤ j ∧ j < number * 512 + i + values.length
      then values.getD (j - (number * 512 + i)) 0
      else (bytes.store number chunk).get j := by
  induction values generalizing bytes number chunk i with
  | nil => rw [setFrom, if_neg (by simp only [List.length_nil]; omega)]
  | cons value rest ih =>
    unfold setFrom
    split
    next within =>
      change i < 512 at within
      rw [ih _ _ _ _ (by omega)]
      simp only [List.length_cons, get_store, getD_setIn]
      by_cases first : j = number * 512 + i
      · rw [if_neg (by omega), if_pos (by omega), if_pos (by omega), if_pos (by omega)]
        simp [first]
      · by_cases later : number * 512 + (i + 1) ≤ j ∧ j < number * 512 + (i + 1) + rest.length
        · rw [if_pos later, if_pos (by omega),
            show j - (number * 512 + i) = j - (number * 512 + (i + 1)) + 1 by omega,
            List.getD_cons_succ]
        · rw [if_neg later, if_neg (c := _ ∧ _) (by omega)]
          split
          · rw [if_neg (by omega)]
          · rfl
    next full =>
      -- The chunk is full: the next value opens the chunk behind it.
      change ¬ i < 512 at full
      obtain rfl : i = 512 := by omega
      rw [ih _ _ _ _ (by decide)]
      simp only [List.length_cons, get_store, getD_setIn]
      by_cases first : j = (number + 1) * 512
      · rw [if_neg (by omega), if_pos (by omega), if_pos (by omega), if_pos (by omega)]
        simp [show j - (number * 512 + 512) = 0 by omega]
      · by_cases later : (number + 1) * 512 + 1 ≤ j ∧ j < (number + 1) * 512 + 1 + rest.length
        · rw [if_pos later, if_pos (by omega),
            show j - (number * 512 + 512) = j - ((number + 1) * 512 + 1) + 1 by omega,
            List.getD_cons_succ]
        · rw [if_neg later, if_neg (c := _ ∧ _) (by omega)]
          by_cases next : number + 1 = j / 512
          · rw [if_pos next, if_neg (by omega), if_neg (by omega), get_eq, next]
          · rw [if_neg next]

/-- Setting changes the places from `i` on that there are values for, and no other. -/
theorem get_setAll (bytes : Bytes) (i j : Nat) (values : List UInt8) :
    (bytes.setAll i values).get j =
      if i ≤ j ∧ j < i + values.length then values.getD (j - i) 0 else bytes.get j := by
  have place : i / 512 * 512 + i % 512 = i := Nat.div_add_mod' i 512
  have same : (bytes.store (i / 512) (bytes.chunk (i / 512))).get j = bytes.get j := by
    rw [get_store]
    split
    next here => rw [get_eq, here]
    next => rfl
  rw [show bytes.setAll i values = setFrom bytes (i / 512) (bytes.chunk (i / 512)) (i % 512) values from rfl,
    get_setFrom _ _ _ _ _ _ (by omega), place, same]

private theorem sliceOnto_eq (bytes : Bytes) (i count number : Nat) (tail : List UInt8) :
    sliceOnto bytes i number (bytes.chunk number) count tail =
      (List.range count).map (fun k => bytes.get (i + k)) ++ tail := by
  induction count generalizing number tail with
  | zero => rfl
  | succ count ih =>
    simp only [sliceOnto, List.range_succ, List.map_append, List.map_cons, List.map_nil,
      List.append_assoc, List.cons_append, List.nil_append]
    split
    next here => subst here; rw [ih]; rfl
    next => rw [ih]; rfl

theorem slice_eq (bytes : Bytes) (i count : Nat) :
    bytes.slice i count = (List.range count).map fun k => bytes.get (i + k) := by
  rw [slice, sliceOnto_eq, List.append_nil]

theorem word_eq (bytes : Bytes) (i : Nat) : bytes.word i = numberAt bytes.get i 8 := by
  unfold word
  split
  next within =>
    apply numberAt_congr
    intro k inside
    simp only [get, chunkLen] at within ⊢
    rw [show (i + k) / 512 = i / 512 by omega, show (i + k) % 512 = i % 512 + k by omega]
  next => rfl

theorem get_cut (bytes : Bytes) (len i : Nat) :
    (bytes.cut len).get i = if i < len then bytes.get i else 0 := by
  have kept : (bytes.cut len).chunk (i / 512) =
      (bytes.chunk (i / 512)).extract 0 (len - i / 512 * 512) := by
    simp only [Bytes.chunk, cut, Std.TreeMap.getD_eq_getD_getElem?, Std.TreeMap.getElem?_map]
    cases bytes.chunks[i / 512]? <;> simp [chunkLen]
  rw [get_eq, get_eq, kept, Array.getD_eq_getD_getElem?, Array.getD_eq_getD_getElem?,
    Array.getElem?_extract, Nat.zero_add]
  split
  next inside => rw [if_pos (by omega)]
  next outside =>
    split
    · rw [Array.getElem?_eq_none (by omega)]
    · rfl

end Bytes
end SlabAllocator
