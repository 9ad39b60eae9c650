import SlabAllocator.Journal
import SlabAllocator.Proofs.Spread
import Mathlib.Data.List.Infix

/-! What a journal says about the blocks of the host. It is read from the calls alone, so it
can be held against what the memory and the counters say. -/

namespace SlabAllocator

def Extent.total (blocks : List Extent) : Nat :=
  (blocks.map Prod.snd).sum

@[simp] theorem Extent.total_nil : total [] = 0 := rfl

@[simp] theorem Extent.total_cons (block : Extent) (blocks : List Extent) :
    total (block :: blocks) = block.2 + total blocks :=
  List.sum_cons

@[simp] theorem Extent.total_append (first second : List Extent) :
    total (first ++ second) = total first + total second := by
  simp [total]

theorem Extent.total_perm {blocks others : List Extent} (same : blocks.Perm others) :
    total blocks = total others :=
  (same.map Prod.snd).sum_nat

/-- The live blocks after a call, given those before it. -/
def Event.track (live : List Extent) : Event → List Extent
  | .request len (some base) => (base, len) :: live
  | .resize base oldLen newLen (some target) => (target, newLen) :: live.erase (base, oldLen)
  | .giveBack base len true => live.erase (base, len)
  | _ => live

/-- A length that the host can be asked for: whole pages, and not too many to address. -/
def Proper (pageSize len : Nat) : Prop :=
  0 < len ∧ pageSize ∣ len ∧ len ≤ Size.longest

/-- Whether a call respects the contract of the host: it asks for a proper length, and names a
live block by its base and exactly its length. -/
def Event.Lawful (pageSize : Nat) (live : List Extent) : Event → Prop
  | .request len _ => Proper pageSize len
  | .resize base oldLen newLen _ => (base, oldLen) ∈ live ∧ Proper pageSize newLen
  | .giveBack base len known => (base, len) ∈ live ∧ known = true
  | .protect base len _ _ => (base, len) ∈ live
  | .supply .. => False
  | _ => True

theorem Event.track_perm {live other : List Extent} (event : Event) (same : live.Perm other) :
    (event.track live).Perm (event.track other) := by
  cases event with
  | request len granted => cases granted <;> first | exact same | exact same.cons _
  | resize base oldLen newLen moved => cases moved <;> first | exact same | exact (same.erase _).cons _
  | giveBack base len known => cases known <;> first | exact same | exact same.erase _
  | _ => exact same

theorem Event.Lawful.perm {live other : List Extent} {pageSize : Nat} {event : Event}
    (lawful : event.Lawful pageSize live) (same : live.Perm other) : event.Lawful pageSize other := by
  cases event with
  | resize => exact ⟨same.mem_iff.mp lawful.1, lawful.2⟩
  | giveBack => exact ⟨same.mem_iff.mp lawful.1, lawful.2⟩
  | protect => exact same.mem_iff.mp lawful
  | _ => exact lawful

def Event.Still : Event → Prop
  | .request _ granted => granted = none
  | .resize _ _ _ moved => moved = none
  | .giveBack .. => False
  | _ => True

theorem Event.Still.track {event : Event} (still : event.Still) (live : List Extent) :
    event.track live = live := by
  cases event with
  | request len granted => cases still; rfl
  | resize base oldLen newLen moved => cases still; rfl
  | giveBack => exact still.elim
  | _ => rfl

def Event.named? : Event → Option Addr
  | .resize base .. => some base
  | .giveBack base .. => some base
  | .protect base .. => some base
  | _ => none

def Event.granted? : Event → Option Addr
  | .request _ granted => granted
  | .resize _ _ _ moved => moved
  | _ => none

theorem Event.mem_track {live : List Extent} {event : Event} {block : Extent}
    (member : block ∈ event.track live) : block ∈ live ∨ event.granted? = some block.1 := by
  cases event with
  | request len granted =>
    cases granted with
    | none => exact .inl member
    | some base =>
      rcases List.mem_cons.mp member with rfl | old
      · exact .inr rfl
      · exact .inl old
  | resize base oldLen newLen moved =>
    cases moved with
    | none => exact .inl member
    | some target =>
      rcases List.mem_cons.mp member with rfl | old
      · exact .inr rfl
      · exact .inl (List.mem_of_mem_erase old)
  | giveBack base len known =>
    cases known with
    | false => exact .inl member
    | true => exact .inl (List.mem_of_mem_erase member)
  | _ => exact .inl member

namespace Journal

def live (events : List Event) : List Extent :=
  events.foldl Event.track []

def Lawful (pageSize : Nat) (events : List Event) : Prop :=
  ∀ past event future, events = past ++ event :: future → event.Lawful pageSize (live past)

/-- At no time did two live blocks share a byte. -/
def Scattered (events : List Event) : Prop :=
  ∀ past, past <+: events → Spread (live past)

/-- A block that was given back is not named again before the host has granted one there. -/
def Final (events : List Event) : Prop :=
  ∀ past base len known middle event future,
    events = past ++ .giveBack base len known :: (middle ++ event :: future) → event.named? = some base →
    ∃ grant ∈ middle, grant.granted? = some base

structure Peak (events : List Event) (most : Nat) : Prop where
  reached : ∃ past, past <+: events ∧ Extent.total (live past) = most
  greatest : ∀ past, past <+: events → Extent.total (live past) ≤ most

variable {events : List Event} {event : Event} {pageSize most : Nat}

theorem events_note (journal : Journal) (event : Event) :
    (journal.note event).events.toList = journal.events.toList ++ [event] :=
  Array.toList_push

@[simp] theorem live_nil : live [] = [] := rfl

theorem live_push (events : List Event) (event : Event) :
    live (events ++ [event]) = event.track (live events) := by
  rw [live, List.foldl_append]; rfl

theorem lawful_nil (pageSize : Nat) : Lawful pageSize [] := by
  intro past event future same
  cases past <;> cases same

theorem Lawful.push (lawful : Lawful pageSize events) (next : event.Lawful pageSize (live events)) :
    Lawful pageSize (events ++ [event]) := by
  intro past other future same
  rcases List.eq_nil_or_concat' future with rfl | ⟨rest, last, rfl⟩
  · obtain ⟨rfl, rest⟩ := List.append_inj' same rfl
    cases rest
    exact next
  · rw [← List.cons_append, ← List.append_assoc] at same
    exact lawful past other rest (List.append_inj' same rfl).1

theorem Lawful.proper (lawful : Lawful pageSize events) : ∀ block ∈ live events, Proper pageSize block.2 := by
  induction events using List.reverseRecOn with
  | nil => simp
  | append_singleton events event ih =>
    have earlier : Lawful pageSize events := fun past other future same =>
      lawful past other (future ++ [event]) (by rw [same, List.append_assoc]; rfl)
    have now := lawful events event [] rfl
    have before := ih earlier
    intro block member
    rw [live_push] at member
    cases event with
    | request len granted =>
      cases granted with
      | none => exact before block member
      | some base =>
        rcases List.mem_cons.mp member with rfl | old
        · exact now
        · exact before block old
    | resize base oldLen newLen moved =>
      cases moved with
      | none => exact before block member
      | some target =>
        rcases List.mem_cons.mp member with rfl | old
        · exact now.2
        · exact before block (List.mem_of_mem_erase old)
    | giveBack base len known =>
      cases known with
      | false => exact before block member
      | true => exact before block (List.mem_of_mem_erase member)
    | _ => exact before block member

theorem scattered_nil : Scattered [] := fun past before => by
  rw [List.prefix_nil.mp before]
  exact .nil

theorem Scattered.push (scattered : Scattered events) (next : Spread (live (events ++ [event]))) :
    Scattered (events ++ [event]) := by
  intro past within
  rcases List.prefix_concat_iff.mp within with rfl | earlier
  · exact next
  · exact scattered past earlier

/-- Nothing is live at a base from the return of its block on, until something is granted there. -/
private theorem gone {past middle : List Event} {base len : Nat} {known : Bool} (spread : Spread (live past))
    (lawful : (Event.giveBack base len known).Lawful pageSize (live past))
    (none : ∀ grant ∈ middle, grant.granted? ≠ some base) :
    ∀ block ∈ live (past ++ .giveBack base len known :: middle), block.1 ≠ base := by
  induction middle using List.reverseRecOn with
  | nil =>
    obtain ⟨member, rfl⟩ := lawful
    intro block inside same
    rw [live_push] at inside
    have old : block = (base, len) := spread.eq_of_base (List.mem_of_mem_erase inside) member same
    rw [old] at inside
    exact (List.Nodup.of_map _ spread.nodup).not_mem_erase inside
  | append_singleton middle event ih =>
    intro block inside
    rw [← List.cons_append, ← List.append_assoc, live_push] at inside
    rcases Event.mem_track inside with old | new
    · exact ih (fun grant member => none grant (List.mem_append_left _ member)) block old
    · exact fun same => none event (List.mem_append_right _ List.mem_cons_self) (same ▸ new)

theorem Lawful.final (lawful : Lawful pageSize events) (scattered : Scattered events) : Final events := by
  intro past base len known middle event future split names
  by_contra never
  have none : ∀ grant ∈ middle, grant.granted? ≠ some base :=
    fun grant member granted => never ⟨grant, member, granted⟩
  have spread := scattered past ⟨_, split.symm⟩
  have absent := gone spread (lawful past _ _ split) none
  have allowed :=
    lawful (past ++ .giveBack base len known :: middle) event future (by rw [split, List.append_assoc]; rfl)
  cases event with
  | resize =>
    cases names
    exact absent _ allowed.1 rfl
  | giveBack =>
    cases names
    exact absent _ allowed.1 rfl
  | protect =>
    cases names
    exact absent _ allowed rfl
  | _ => cases names

theorem peak_nil : Peak [] 0 :=
  ⟨⟨[], List.prefix_rfl, rfl⟩, fun past before => by rw [List.prefix_nil.mp before]; rfl⟩

theorem Peak.push (peak : Peak events most) (event : Event) :
    Peak (events ++ [event]) (max most (Extent.total (live (events ++ [event])))) := by
  obtain ⟨past, before, reached⟩ := peak.reached
  refine ⟨?_, fun other within => ?_⟩
  · rcases Nat.le_total most (Extent.total (live (events ++ [event]))) with rise | fall
    · exact ⟨_, List.prefix_rfl, (Nat.max_eq_right rise).symm⟩
    · exact ⟨past, before.trans (List.prefix_append _ _), reached.trans (Nat.max_eq_left fall).symm⟩
  · rcases List.prefix_concat_iff.mp within with rfl | earlier
    · exact Nat.le_max_right _ _
    · exact Nat.le_trans (peak.greatest other earlier) (Nat.le_max_left _ _)

end Journal
end SlabAllocator
