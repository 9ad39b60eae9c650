import SlabAllocator.Host.Fixed
import SlabAllocator.Host.Heap
import SlabAllocator.Host.Kernel
import SlabAllocator.Host.Quota
import SlabAllocator.Proofs.Journal
import SlabAllocator.Proofs.Run
import SlabAllocator.Proofs.Size

/-! The laws of a host: as long as the calls name live blocks it keeps to the blocks that it
granted, which share no byte. It may deny whatever it likes. -/

namespace SlabAllocator

class LawfulHost (σ : Type) [Host σ] where
  /-- Whether these are the live blocks of the host. -/
  Holds : σ → List Extent → Prop
  perm {host live other} : Holds host live → live.Perm other → Holds host other
  request {host : σ} {live : List Extent} {len : Nat} :
    Holds host live → Spread live → Proper (Host.pageSize host) len →
    (Host.request len).Ends host fun granted after => Host.pageSize after = Host.pageSize host ∧
      match granted with
      | some base => Holds after ((base, len) :: live) ∧ Spread ((base, len) :: live)
      | none => Holds after live
  resize {host : σ} {live : List Extent} {base oldLen newLen : Nat} :
    Holds host ((base, oldLen) :: live) → Spread ((base, oldLen) :: live) → Proper (Host.pageSize host) newLen →
    (Host.resize base oldLen newLen).Ends host fun moved after => Host.pageSize after = Host.pageSize host ∧
      match moved with
      | some target => Holds after ((target, newLen) :: live) ∧ Spread ((target, newLen) :: live)
      | none => Holds after ((base, oldLen) :: live)
  giveBack {host : σ} {live : List Extent} {base len : Nat} :
    Holds host ((base, len) :: live) → Spread ((base, len) :: live) →
    (Host.giveBack base len).Ends host fun _ after => Host.pageSize after = Host.pageSize host ∧ Holds after live
  protect {host : σ} {live : List Extent} {base len : Nat} (mode : Protection) :
    Holds host live → (base, len) ∈ live →
    (Host.protect base len mode).Ends host fun _ after => Host.pageSize after = Host.pageSize host ∧
      Holds after live

abbrev LawfulHost.Fresh [Host σ] [LawfulHost σ] (host : σ) : Prop :=
  LawfulHost.Holds host []

namespace Placement

/-- Each block lies in a region of its own. -/
structure Holds (placement : Placement) (live : List Extent) : Prop where
  few : placement.used ≤ regions
  placed : ∀ extent ∈ live, ∃ number, number < placement.used ∧ extent.1 = regionStart number ∧
    extent.2 < regionLen

variable {placement : Placement} {live : List Extent} {base oldLen len : Nat}

theorem Holds.perm {other : List Extent} (held : placement.Holds live) (same : live.Perm other) :
    placement.Holds other :=
  ⟨held.few, fun extent member => held.placed extent (same.mem_iff.mpr member)⟩

theorem holds_start : start.Holds [] := ⟨by decide, by simp⟩

private theorem placed_region {number : Nat} (inside : number < regions) (positive : 0 < len)
    (short : len < regionLen) : Extent.Placed (regionStart number, len) := by
  unfold Extent.Placed regionStart regions regionLen Size.bound at *
  omega

/-- Blocks in different regions are apart. -/
private theorem apart_region {first second : Extent} {i j : Nat} (different : i ≠ j)
    (left : first.1 = regionStart i) (right : second.1 = regionStart j) (short : first.2 < regionLen)
    (short' : second.2 < regionLen) : first.Apart second := by
  unfold Extent.Apart regionStart regionLen at *
  omega

theorem place_spec (held : placement.Holds live) (spread : Spread live) (positive : 0 < len) :
    (place len).Ends placement fun granted after =>
      match granted with
      | some base => after.Holds ((base, len) :: live) ∧ Spread ((base, len) :: live)
      | none => after.Holds live := by
  simp only [place, Run.meets_bind, Run.meets_get]
  split
  next room =>
    obtain ⟨short, more⟩ : len < regionLen ∧ placement.used < regions := by
      simpa [holds] using room
    simp only [Run.meets_bind, Run.meets_set, Run.meets_pure]
    refine ⟨⟨more, fun extent member => ?_⟩, Spread.cons_iff.mpr ⟨placed_region more positive short, ?_, spread⟩⟩
    · rcases List.mem_cons.mp member with rfl | old
      · exact ⟨placement.used, Nat.lt_succ_self _, rfl, short⟩
      · obtain ⟨number, inside, place⟩ := held.placed extent old
        exact ⟨number, Nat.lt_succ_of_lt inside, place⟩
    · intro other member
      obtain ⟨number, inside, place, short'⟩ := held.placed other member
      exact apart_region (Nat.ne_of_gt inside) rfl place short short'
  next => simpa only [Run.meets_pure] using held

/-- A block that stays in its region can have any length that fits there. -/
theorem Holds.resize (held : placement.Holds ((base, oldLen) :: live)) (spread : Spread ((base, oldLen) :: live))
    (positive : 0 < len) (short : len < regionLen) :
    placement.Holds ((base, len) :: live) ∧ Spread ((base, len) :: live) := by
  obtain ⟨number, inside, here, -⟩ := held.placed (base, oldLen) (by simp)
  have bases := spread.nodup
  obtain ⟨-, -, rest⟩ := Spread.cons_iff.mp spread
  refine ⟨⟨held.few, fun extent member => ?_⟩, Spread.cons_iff.mpr ⟨?_, fun other member => ?_, rest⟩⟩
  · rcases List.mem_cons.mp member with rfl | old
    · exact ⟨number, inside, here, short⟩
    · exact held.placed extent (by simp [old])
  · rw [show base = regionStart number from here]
    exact placed_region (Nat.lt_of_lt_of_le inside held.few) positive short
  · obtain ⟨number', -, there, short'⟩ := held.placed other (by simp [member])
    refine apart_region (fun same => ?_) here there short short'
    have absent := (List.nodup_cons.mp bases).1
    have same_base : base = other.1 := by rw [there, ← same]; exact here
    exact absent (List.mem_map.mpr ⟨other, member, same_base.symm⟩)

end Placement

instance : LawfulHost Kernel where
  Holds kernel live := kernel.placement.Holds live
  perm := Placement.Holds.perm
  request held spread proper := by
    simp only [Host.request, Kernel.request, if_neg (Nat.ne_of_gt proper.1), Run.meets_focus]
    exact (Placement.place_spec held spread proper.1).imp fun granted after granted' => ⟨rfl, granted'⟩
  resize {kernel live base oldLen newLen} held spread proper := by
    simp only [Host.resize, Kernel.resize, Run.meets_pure]
    refine ⟨trivial, ?_⟩
    split
    next fits =>
      split at fits
      · cases fits
        rename_i room
        simp only [Placement.holds, Bool.and_eq_true, decide_eq_true_eq] at room
        exact held.resize spread proper.1 room.2
      · cases fits
    next => exact held
  giveBack held _ :=
    (Run.meets_pure ()).mpr ⟨rfl, held.few, fun extent member => held.placed extent (by simp [member])⟩
  protect _ held _ := (Run.meets_pure true).mpr ⟨rfl, held⟩

instance : LawfulHost Heap where
  Holds heap live := heap.placement.Holds live
  perm := Placement.Holds.perm
  request {heap live len} held spread proper := by
    simp only [Host.request, Heap.request, Run.meets_bind, Run.meets_get]
    split
    · simp only [Run.meets_focus]
      exact (Placement.place_spec held spread proper.1).imp fun granted after granted' => ⟨rfl, granted'⟩
    · exact (Run.meets_pure none).mpr ⟨rfl, held⟩
  resize {heap live base oldLen newLen} held spread proper := by
    simp only [Host.resize, Heap.resize, Run.meets_bind, Run.meets_get]
    split
    next room =>
      simp only [Placement.holds, Bool.and_eq_true, decide_eq_true_eq] at room
      exact (Run.meets_pure (some base)).mpr ⟨rfl, held.resize spread proper.1 room.2⟩
    next => exact (Run.meets_pure none).mpr ⟨rfl, held⟩
  giveBack held _ :=
    (Run.meets_pure ()).mpr ⟨rfl, held.few, fun extent member => held.placed extent (by simp [member])⟩
  protect _ held _ := (Run.meets_pure false).mpr ⟨rfl, held⟩

private theorem quota_add {quota : Quota σ} {extra : Nat} (fits : quota.fits extra = true) :
    Size.add quota.inUse extra = .ok (quota.inUse + extra) := by
  unfold Quota.fits Size.add? at fits
  by_cases small : quota.inUse + extra < Size.bound
  · exact Size.add_ok small
  · rw [if_neg small] at fits
    cases fits

section Wrapped

variable [Host σ] [LawfulHost σ]

instance : LawfulHost (Fixed σ) where
  Holds fixed live := LawfulHost.Holds fixed.inner live
  perm := LawfulHost.perm
  request held spread proper := by
    simp only [Host.request, Fixed.onInner, Run.meets_focus]
    exact LawfulHost.request held spread proper
  resize held _ _ := (Run.meets_pure none).mpr ⟨rfl, held⟩
  giveBack held spread := by
    simp only [Host.giveBack, Fixed.onInner, Run.meets_focus]
    exact LawfulHost.giveBack held spread
  protect mode held member := by
    simp only [Host.protect, Fixed.onInner, Run.meets_focus]
    exact LawfulHost.protect mode held member

/-- The bytes in use are those of the live blocks. -/
instance : LawfulHost (Quota σ) where
  Holds quota live := LawfulHost.Holds quota.inner live ∧ quota.inUse = Extent.total live
  perm held same := ⟨LawfulHost.perm held.1 same, held.2.trans (Extent.total_perm same)⟩
  request {quota live len} held spread proper := by
    simp only [Host.request, Quota.request, Run.meets_bind, Run.meets_get]
    by_cases fits : quota.fits len = true
    · simp only [fits, Bool.not_true, Bool.false_eq_true, if_false, Quota.onInner,
        Run.meets_bind, Run.meets_focus]
      refine (LawfulHost.request held.1 spread proper).imp fun granted inner granted' => ?_
      cases granted with
      | none => exact (Run.meets_pure none).mpr ⟨granted'.1, granted'.2, held.2⟩
      | some base =>
        simp only [Run.meets_bind, Run.meets_get, Run.meets_lift (quota_add fits), Quota.setInUse,
          Run.meets_modify, Run.meets_pure]
        refine ⟨granted'.1, ⟨granted'.2.1, ?_⟩, granted'.2.2⟩
        rw [held.2, Extent.total_cons, Nat.add_comm]
    · simp only [Bool.eq_false_iff.mpr fits, Bool.not_false, if_true, Run.meets_pure]
      exact ⟨trivial, held⟩
  resize {quota live base oldLen newLen} held spread proper := by
    have inUse : quota.inUse = oldLen + Extent.total live := held.2
    simp only [Host.resize, Quota.resize, Run.meets_bind, Run.meets_get]
    by_cases refused : (decide (oldLen < newLen) && !quota.fits (newLen - oldLen)) = true
    · simp only [if_pos refused, Run.meets_pure]
      exact ⟨trivial, held⟩
    · simp only [if_neg refused, Quota.onInner, Run.meets_bind, Run.meets_focus]
      refine (LawfulHost.resize held.1 spread proper).imp fun moved inner moved' => ?_
      cases moved with
      | none => exact (Run.meets_pure none).mpr ⟨moved'.1, moved'.2, held.2⟩
      | some target =>
        have room := moved'.2.2.sum_lt
        have total := Extent.total_cons (target, newLen) live
        rw [show ((((target, newLen) :: live).map Prod.snd).sum) = newLen + Extent.total live from total] at room
        have taken : Size.sub quota.inUse oldLen = .ok (Extent.total live) := by
          rw [inUse, Size.sub_ok (by omega), Nat.add_sub_cancel_left]
        have added : Size.add (Extent.total live) newLen = .ok (Extent.total live + newLen) :=
          Size.add_ok (by omega)
        simp only [Run.meets_bind, Run.meets_get, Run.meets_lift taken, Run.meets_lift added, Quota.setInUse,
          Run.meets_modify, Run.meets_pure]
        refine ⟨moved'.1, ⟨moved'.2.1, ?_⟩, moved'.2.2⟩
        rw [Extent.total_cons, Nat.add_comm]
  giveBack {quota live base len} held spread := by
    have inUse : quota.inUse = len + Extent.total live := held.2
    have taken : Size.sub quota.inUse len = .ok (Extent.total live) := by
      rw [inUse, Size.sub_ok (by omega), Nat.add_sub_cancel_left]
    simp only [Host.giveBack, Quota.giveBack, Quota.onInner, Run.meets_bind, Run.meets_focus]
    refine (LawfulHost.giveBack held.1 spread).imp fun _ inner back => ?_
    simp only [Run.meets_get, Run.meets_lift taken, Quota.setInUse, Run.meets_modify]
    exact ⟨back.1, back.2, trivial⟩
  protect mode held member := by
    simp only [Host.protect, Quota.onInner, Run.meets_focus]
    exact (LawfulHost.protect mode held.1 member).imp fun _ _ kept => ⟨kept.1, kept.2, held.2⟩

end Wrapped
end SlabAllocator
