import SlabAllocator.Pool.Owners
import Mathlib.Data.List.TakeWhile

/-! The owners stay in increasing order, so the greatest base below an address is the last of
those that are not above it. -/

namespace SlabAllocator.Owners

def Sorted (owners : Owners) : Prop :=
  List.Pairwise (fun first second : Nat => first < second) owners

variable {owners : Owners} {base addr frameLen : Nat}

theorem Sorted.nodup (sorted : Sorted owners) : owners.Nodup :=
  List.Pairwise.imp Nat.ne_of_lt sorted

theorem insert_perm (fresh : base ∉ owners) : (owners.insert base).Perm (base :: owners) := by
  induction owners with
  | nil => exact .refl _
  | cons other rest ih =>
    have different : base ≠ other := fun same => fresh (by simp [same])
    unfold Owners.insert
    split
    · exact .refl _
    · exact ((ih fun member => fresh (List.mem_cons_of_mem _ member)).cons other).trans (.swap base other rest)

theorem Sorted.insert (sorted : Sorted owners) (fresh : base ∉ owners) : Sorted (owners.insert base) := by
  induction owners with
  | nil => exact List.pairwise_singleton _ _
  | cons other rest ih =>
    obtain ⟨least, ordered⟩ := List.pairwise_cons.mp sorted
    have different : base ≠ other := fun same => fresh (by simp [same])
    have fresh' : base ∉ rest := fun member => fresh (List.mem_cons_of_mem _ member)
    unfold Owners.insert
    split
    next below =>
      refine List.pairwise_cons.mpr ⟨fun owner member => ?_, sorted⟩
      rcases List.mem_cons.mp member with rfl | later
      · exact below
      · exact Nat.lt_trans below (least owner later)
    next above =>
      refine List.pairwise_cons.mpr ⟨fun owner member => ?_, ih ordered fresh'⟩
      rcases List.mem_cons.mp ((insert_perm fresh').mem_iff.mp member) with rfl | later
      · have : ¬ owner < other := above
        have : owner ≠ other := different
        omega
      · exact least owner later

theorem Sorted.erase (sorted : Sorted owners) (base : Nat) : Sorted (owners.erase base) :=
  List.Pairwise.sublist List.erase_sublist sorted

/-- An owner whose frame spans an address is the last one not above it, when no other starts in that frame. -/
theorem find?_eq (sorted : Sorted owners) (member : base ∈ owners)
    (apart : ∀ other ∈ owners, base < other → base + frameLen ≤ other) (low : base ≤ addr)
    (high : addr < base + frameLen) : owners.find? frameLen addr = some base := by
  have last : (owners.takeWhile fun owner => decide (owner ≤ addr)).getLast? = some base := by
    obtain ⟨left, right, rfl⟩ := List.append_of_mem member
    have order := List.pairwise_append.mp sorted
    have before : ∀ owner ∈ left, decide (owner ≤ addr) = true := fun owner inside => by
      have below : owner < base := order.2.2 owner inside base (by simp)
      exact decide_eq_true (by omega)
    have after : right.takeWhile (fun owner => decide (owner ≤ addr)) = [] := by
      cases right with
      | nil => rfl
      | cons next rest =>
        have above : base < next := (List.pairwise_cons.mp order.2.1).1 next (by simp)
        have beyond := apart next (by simp) above
        rw [List.takeWhile_cons, if_neg (by rw [decide_eq_true_eq]; omega)]
    rw [List.takeWhile_append_of_pos before, List.takeWhile_cons, if_pos (decide_eq_true low), after]
    simp
  have near : addr - base < frameLen := by omega
  rw [find?, floor?, show (owners.takeWhile (· ≤ addr)).getLast? = some base from last, Option.filter_some,
    if_pos (decide_eq_true near)]

theorem find?_some (found : owners.find? frameLen addr = some base) :
    base ∈ owners ∧ base ≤ addr ∧ addr < base + frameLen := by
  obtain ⟨last, near⟩ := Option.filter_eq_some_iff.mp found
  have inside := List.mem_of_getLast? last
  have low : base ≤ addr := by simpa using List.mem_takeWhile_imp inside
  have short : addr - base < frameLen := by simpa using near
  exact ⟨(List.takeWhile_sublist _).subset inside, low, by omega⟩

end SlabAllocator.Owners
