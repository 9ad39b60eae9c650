import Mathlib.Algebra.GroupWithZero.Nat
import SlabAllocator.Size

/-! Checked arithmetic where it does not fail, and what clearing a mask rounds to. -/

namespace SlabAllocator

@[simp] theorem checked_bind (a : α) (next : α → Checked β) : ((Except.ok a : Checked α) >>= next) = next a := rfl

@[simp] theorem checked_pure (a : α) : (pure a : Checked α) = .ok a := rfl

theorem checked_bind_eq_ok {checked : Checked α} {next : α → Checked β} {b : β} :
    (checked >>= next) = .ok b ↔ ∃ a, checked = .ok a ∧ next a = .ok b := by
  cases checked with
  | ok a => simp
  | error fault => exact ⟨nofun, fun chain => nomatch chain.choose_spec.1⟩

@[simp] theorem expect_true (next : Unit → Checked α) : (expect true >>= next) = next () := rfl

@[simp] theorem expect_false (next : Unit → Checked α) : (expect false >>= next) = .error .violated := rfl

theorem inRange_eq_ok {entry : Option α} {a : α} : inRange entry = .ok a ↔ entry = some a := by
  cases entry <;> simp [inRange]

namespace Size

theorem add_ok {a b : Nat} (fits : a + b < bound) : add a b = .ok (a + b) :=
  if_pos fits

theorem add_eq_ok {a b total : Nat} : add a b = .ok total ↔ a + b < bound ∧ total = a + b := by
  unfold add
  split
  next fits => simp [fits, eq_comm]
  next full => simp [full]

theorem add_eq_error {a b : Nat} {fault : Fault} : add a b = .error fault ↔ bound ≤ a + b ∧
    fault = .overflow := by
  unfold add
  split
  next fits => simp [Nat.not_le_of_lt fits]
  next full => simp [Nat.le_of_not_lt full, eq_comm]

theorem sub_ok {a b : Nat} (fits : b ≤ a) : sub a b = .ok (a - b) :=
  if_pos fits

theorem mul_ok {a b : Nat} (fits : a * b < bound) : mul a b = .ok (a * b) :=
  if_pos fits

theorem div_ok {a b : Nat} (positive : 0 < b) : div a b = .ok (a / b) :=
  if_neg (Nat.ne_of_gt positive)

theorem rem_ok {a b : Nat} (positive : 0 < b) : rem a b = .ok (a % b) :=
  if_neg (Nat.ne_of_gt positive)

theorem divUp_ok {a b : Nat} (positive : 0 < b) : divUp a b = .ok ((a + b - 1) / b) :=
  if_neg (Nat.ne_of_gt positive)

private theorem foldlM_add_ok (sizes : List Nat) (start : Nat) (fits : start + sizes.sum < bound) :
    sizes.foldlM add start = .ok (start + sizes.sum) := by
  induction sizes generalizing start with
  | nil => simp [pure, Except.pure]
  | cons size sizes ih =>
    simp only [List.sum_cons] at fits
    rw [List.foldlM_cons, add_ok (by omega), checked_bind, ih (start + size) (by omega),
      List.sum_cons, Nat.add_assoc]

theorem sum_ok {sizes : List Nat} (fits : sizes.sum < bound) : sum sizes = .ok sizes.sum := by
  simpa [sum] using foldlM_add_ok sizes 0 (by simpa using fits)

theorem isPowerOfTwo_iff {n : Nat} : isPowerOfTwo n = true ↔ ∃ k, n = 2 ^ k := by
  simpa [isPowerOfTwo, Nat.isPowerOfTwo] using Nat.ne_zero_and_sub_one_eq_zero_iff_isPowerOfTwo (n := n)

theorem pos_of_isPowerOfTwo {n : Nat} (power : isPowerOfTwo n = true) : 0 < n := by
  obtain ⟨k, rfl⟩ := isPowerOfTwo_iff.mp power
  exact Nat.two_pow_pos k

/-- Under a mask that is one less than a power of two, clearing is rounding down. -/
theorem without_mask {n unit : Nat} (power : isPowerOfTwo unit = true) :
    without n (unit - 1) = n / unit * unit := by
  obtain ⟨k, rfl⟩ := isPowerOfTwo_iff.mp power
  rw [without, Nat.and_two_pow_sub_one_eq_mod, Nat.mul_comm]
  have := Nat.div_add_mod n (2 ^ k)
  omega

/-- A mask clears no more than its own value, whatever the mask. -/
theorem le_without_add (n mask : Nat) : n ≤ without (n + mask) mask := by
  have : (n + mask) &&& mask ≤ mask := Nat.and_le_right
  unfold without
  omega

theorem without_le (n mask : Nat) : without n mask ≤ n :=
  Nat.sub_le ..

private theorem toNat_or {a b : BitVec 64} (apart : a &&& b = 0#64) : (a ||| b).toNat = a.toNat + b.toNat := by
  rw [← BitVec.add_eq_or_of_and_eq_zero a b apart, BitVec.toNat_add_of_and_eq_zero apart]

/-- What clearing a mask leaves has room for the mask, whatever the mask. -/
theorem without_add_lt {n mask : Nat} (small : n < bound) (masked : mask < bound) :
    without n mask + mask < bound := by
  have number : (BitVec.ofNat 64 n).toNat = n := Nat.mod_eq_of_lt small
  have bits : (BitVec.ofNat 64 mask).toNat = mask := Nat.mod_eq_of_lt masked
  generalize BitVec.ofNat 64 n = a at number
  generalize BitVec.ofNat 64 mask = b at bits
  subst number bits
  have cleared : without a.toNat b.toNat = (a &&& ~~~b).toNat := by
    have parts := toNat_or (a := a &&& ~~~b) (b := a &&& b) (by ext i; simp; grind)
    rw [show (a &&& ~~~b) ||| (a &&& b) = a by ext i; simp; grind, BitVec.toNat_and a b] at parts
    rw [without]
    omega
  rw [cleared, ← toNat_or (by ext i; simp)]
  exact ((a &&& ~~~b) ||| b).isLt

theorem roundUp?_eq {n unit : Nat} (positive : 0 < unit) :
    roundUp? n unit = .ok ((add? n (unit - 1)).map (without · (unit - 1))) := by
  simp only [roundUp?, sub_ok positive, checked_bind, checked_pure]

/-- For a power of two the checked rounding fails only past the greatest size. -/
theorem roundUp?_of_isPowerOfTwo {n unit : Nat} (power : isPowerOfTwo unit = true) :
    roundUp? n unit =
      .ok (if n + (unit - 1) < bound then some ((n + unit - 1) / unit * unit) else none) := by
  have positive := pos_of_isPowerOfTwo power
  rw [roundUp?_eq positive, add?]
  split
  · rw [Option.map_some, without_mask power, Nat.add_sub_assoc positive]
  · rfl

theorem roundUp_ok {n unit : Nat} (power : isPowerOfTwo unit = true) (fits : n + unit < bound) :
    roundUp n unit = .ok ((n + unit - 1) / unit * unit) := by
  have positive := pos_of_isPowerOfTwo power
  have last : 1 ≤ n + unit := by omega
  simp only [roundUp, add_ok fits, checked_bind, sub_ok last, sub_ok positive, checked_pure, without_mask power]

/-- What rounding up to a multiple yields lies less than one unit higher. -/
theorem ceil_bounds {n unit : Nat} (positive : 0 < unit) :
    n ≤ (n + unit - 1) / unit * unit ∧ (n + unit - 1) / unit * unit < n + unit := by
  have split := Nat.div_add_mod (n + unit - 1) unit
  have rest := Nat.mod_lt (n + unit - 1) positive
  rw [Nat.mul_comm] at split
  constructor <;> omega

end Size
end SlabAllocator
