import Mathlib.Algebra.GroupWithZero.Nat
import Mathlib.Data.List.Basic
import Mathlib.Order.Interval.Finset.Nat
import SlabAllocator.Memory
import SlabAllocator.Size

/-! Blocks spread over the address space: none is empty, none starts at the null address or
runs past the greatest one, and no two share a byte. -/

namespace SlabAllocator

/-- A range of bytes: where it starts and how long it is. -/
abbrev Extent := Nat × Nat

namespace Extent

def Apart (first second : Extent) : Prop :=
  first.1 + first.2 ≤ second.1 ∨ second.1 + second.2 ≤ first.1

def Within (inner outer : Extent) : Prop :=
  outer.1 ≤ inner.1 ∧ inner.1 + inner.2 ≤ outer.1 + outer.2

theorem Apart.symm {first second : Extent} (apart : Apart first second) : Apart second first :=
  Or.symm apart

instance : Std.Symm Apart := ⟨fun _ _ => Apart.symm⟩

theorem Apart.mono {first second : Extent} (apart : Apart first second) {x y : Extent}
    (left : Within x first) (right : Within y second) : Apart x y := by
  unfold Apart Within at *
  omega

theorem Within.trans {x y z : Extent} (inner : Within x y) (outer : Within y z) : Within x z := by
  unfold Within at *
  omega

def Placed (extent : Extent) : Prop :=
  0 < extent.1 ∧ 0 < extent.2 ∧ extent.1 + extent.2 ≤ Size.bound

end Extent

/-- What a set of live blocks looks like on any host. -/
structure Spread (live : List Extent) : Prop where
  placed : ∀ extent ∈ live, extent.Placed
  apart : live.Pairwise Extent.Apart

namespace Spread

theorem nil : Spread [] := ⟨by simp, .nil⟩

theorem perm {live other : List Extent} (spread : Spread live) (same : live.Perm other) :
    Spread other :=
  ⟨fun extent member => spread.placed extent (same.mem_iff.mpr member),
    (same.pairwise_iff Extent.Apart.symm).mp spread.apart⟩

theorem cons_iff {extent : Extent} {live : List Extent} :
    Spread (extent :: live) ↔
      extent.Placed ∧ (∀ other ∈ live, extent.Apart other) ∧ Spread live := by
  constructor
  · intro spread
    obtain ⟨apart, rest⟩ := List.pairwise_cons.mp spread.apart
    exact ⟨spread.placed extent (by simp), apart,
      fun other member => spread.placed other (by simp [member]), rest⟩
  · intro ⟨placed, apart, spread⟩
    refine ⟨?_, List.pairwise_cons.mpr ⟨apart, spread.apart⟩⟩
    intro other member
    rcases List.mem_cons.mp member with rfl | member
    · exact placed
    · exact spread.placed other member

theorem apart_of_ne {live : List Extent} (spread : Spread live) {first second : Extent}
    (left : first ∈ live) (right : second ∈ live) (different : first ≠ second) :
    first.Apart second :=
  spread.apart.forall left right different

theorem eq_of_common {live : List Extent} (spread : Spread live) {first second : Extent}
    (left : first ∈ live) (right : second ∈ live) (addr : Nat)
    (inFirst : first.1 ≤ addr ∧ addr < first.1 + first.2)
    (inSecond : second.1 ≤ addr ∧ addr < second.1 + second.2) : first = second := by
  by_contra different
  have apart := spread.apart_of_ne left right different
  unfold Extent.Apart at apart
  omega

theorem eq_of_base {live : List Extent} (spread : Spread live) {first second : Extent}
    (left : first ∈ live) (right : second ∈ live) (same : first.1 = second.1) : first = second := by
  have leftPlaced := spread.placed first left
  have rightPlaced := spread.placed second right
  unfold Extent.Placed at leftPlaced rightPlaced
  exact spread.eq_of_common left right first.1 (by omega) (by omega)

theorem nodup {live : List Extent} (spread : Spread live) : (live.map Prod.fst).Nodup := by
  refine List.pairwise_map.mpr (spread.apart.imp_of_mem ?_)
  intro first second left right apart same
  have leftPlaced := spread.placed first left
  have rightPlaced := spread.placed second right
  unfold Extent.Apart Extent.Placed at *
  omega

/-- The bytes of the blocks, as places of the address space. -/
private theorem covered {live : List Extent} (spread : Spread live) :
    ∃ places : Finset Nat, places ⊆ Finset.Ico 1 Size.bound ∧
      places.card = (live.map Prod.snd).sum ∧
      ∀ place ∈ places, ∃ extent ∈ live, extent.1 ≤ place ∧ place < extent.1 + extent.2 := by
  induction live with
  | nil => exact ⟨∅, by simp, rfl, by simp⟩
  | cons extent live ih =>
    obtain ⟨placed, apart, rest⟩ := cons_iff.mp spread
    obtain ⟨places, within, count, origin⟩ := ih rest
    have disjoint : Disjoint (Finset.Ico extent.1 (extent.1 + extent.2)) places := by
      refine Finset.disjoint_left.mpr fun place own other => ?_
      obtain ⟨block, member, inside⟩ := origin place other
      have separate := apart block member
      have own := Finset.mem_Ico.mp own
      unfold Extent.Apart at separate
      omega
    refine ⟨Finset.Ico extent.1 (extent.1 + extent.2) ∪ places, ?_, ?_, ?_⟩
    · refine Finset.union_subset (fun place own => ?_) within
      have own := Finset.mem_Ico.mp own
      unfold Extent.Placed at placed
      exact Finset.mem_Ico.mpr (by omega)
    · rw [Finset.card_union_of_disjoint disjoint, count, Nat.card_Ico, List.map_cons, List.sum_cons]
      omega
    · intro place member
      rcases Finset.mem_union.mp member with own | other
      · exact ⟨extent, by simp, Finset.mem_Ico.mp own⟩
      · obtain ⟨block, member, inside⟩ := origin place other
        exact ⟨block, by simp [member], inside⟩

/-- All live blocks together are shorter than the address space. -/
theorem sum_lt {live : List Extent} (spread : Spread live) : (live.map Prod.snd).sum < Size.bound := by
  obtain ⟨places, within, count, -⟩ := spread.covered
  have bounded := Finset.card_le_card within
  rw [count, Nat.card_Ico] at bounded
  have : 0 < Size.bound := by decide
  omega

theorem length_le_sum {live : List Extent} (spread : Spread live) :
    live.length ≤ (live.map Prod.snd).sum := by
  induction live with
  | nil => simp
  | cons extent live ih =>
    obtain ⟨placed, -, rest⟩ := cons_iff.mp spread
    have := ih rest
    unfold Extent.Placed at placed
    simp only [List.length_cons, List.map_cons, List.sum_cons]
    omega

theorem length_lt {live : List Extent} (spread : Spread live) : live.length < Size.bound :=
  Nat.lt_of_le_of_lt spread.length_le_sum spread.sum_lt

end Spread
end SlabAllocator
