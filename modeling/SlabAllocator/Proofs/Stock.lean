import Mathlib.Data.Finset.Basic
import SlabAllocator.Proofs.Frame

/-! A pool without its memory: the frames in their order, each with the set of slots that are handed
out. A request takes the least free slot of the first frame that has one, and a frame is added
only when there is none. -/

namespace SlabAllocator

/-- A frame: where it lies and which of its slots are handed out. -/
structure Shelf where
  base : Addr
  taken : Finset Nat

namespace Shelf

variable {geometry : Geometry} {shelf : Shelf} {index : Nat}

def Full (geometry : Geometry) (shelf : Shelf) : Prop :=
  ∀ index, index < geometry.slots → index ∈ shelf.taken

def vacancy? (geometry : Geometry) (shelf : Shelf) : Option Nat :=
  (List.range geometry.slots).find? (· ∉ shelf.taken)

def take (index : Nat) (shelf : Shelf) : Shelf :=
  { shelf with taken := insert index shelf.taken }

def vacate (geometry : Geometry) (addr : Addr) (shelf : Shelf) : Shelf :=
  { shelf with taken := shelf.taken.filter fun index => shelf.base + geometry.start index ≠ addr }

theorem vacancy?_eq_none : shelf.vacancy? geometry = none ↔ shelf.Full geometry := by
  simp [vacancy?, Full]

theorem vacancy?_eq_some :
    shelf.vacancy? geometry = some index ↔
      index < geometry.slots ∧ index ∉ shelf.taken ∧ ∀ other, other < index → other ∈ shelf.taken := by
  rw [vacancy?, List.find?_range_eq_some]
  constructor
  · rintro ⟨free, inside, below⟩
    exact ⟨List.mem_range.mp inside, of_decide_eq_true free, fun other less => by simpa using below other less⟩
  · rintro ⟨inside, free, below⟩
    exact ⟨decide_eq_true free, List.mem_range.mpr inside, fun other less => by simpa using below other less⟩

theorem vacancy?_empty {base : Addr} (vacant : vacancy? geometry ⟨base, ∅⟩ = some index) : index = 0 := by
  obtain ⟨-, -, below⟩ := vacancy?_eq_some.mp vacant
  by_contra more
  exact Finset.notMem_empty 0 (below 0 (Nat.pos_of_ne_zero more))

end Shelf

structure Stock where
  shelves : List Shelf
  releases : Nat

namespace Stock

variable {geometry : Geometry} {shelves after : List Shelf} {addr : Addr}

/-- Takes the first free slot: the least one in the first frame that has one. -/
def place? (geometry : Geometry) : List Shelf → Option (Addr × List Shelf)
  | [] => none
  | shelf :: rest =>
    match shelf.vacancy? geometry with
    | some index => some (shelf.base + geometry.start index, shelf.take index :: rest)
    | none => (place? geometry rest).map fun (addr, rest) => (addr, shelf :: rest)

/-- The frames that are left when the empty ones go: those with a slot handed out, or else the first one. -/
def compacted (shelves : List Shelf) : List Shelf :=
  if ∀ shelf ∈ shelves, shelf.taken = ∅ then shelves.take 1 else shelves.filter (·.taken ≠ ∅)

def Holds (geometry : Geometry) (stock : Stock) (addr : Addr) : Prop :=
  ∃ shelf ∈ stock.shelves, ∃ index ∈ shelf.taken, addr = shelf.base + geometry.start index

def vacate (geometry : Geometry) (addr : Addr) (stock : Stock) : Stock :=
  { stock with shelves := stock.shelves.map (Shelf.vacate geometry addr) }

def compact (stock : Stock) : Stock :=
  { stock with shelves := compacted stock.shelves }

def tally (interval : Nat) (stock : Stock) : Stock :=
  if interval ≤ stock.releases + 1 then ⟨compacted stock.shelves, 0⟩
    else { stock with releases := stock.releases + 1 }

theorem bases_vacate (geometry : Geometry) (addr : Addr) (stock : Stock) :
    (stock.vacate geometry addr).shelves.map Shelf.base = stock.shelves.map Shelf.base := by
  rw [vacate, List.map_map]
  rfl

theorem holds_vacate {stock : Stock} {other : Addr} :
    (stock.vacate geometry addr).Holds geometry other ↔ other ≠ addr ∧ stock.Holds geometry other := by
  constructor
  · rintro ⟨shelf, member, index, used, rfl⟩
    obtain ⟨old, listed, rfl⟩ := List.mem_map.mp member
    obtain ⟨used, away⟩ := Finset.mem_filter.mp used
    exact ⟨away, old, listed, index, used, rfl⟩
  · rintro ⟨away, shelf, member, index, used, rfl⟩
    exact ⟨shelf.vacate geometry addr, List.mem_map_of_mem member, index, Finset.mem_filter.mpr ⟨used, away⟩, rfl⟩

theorem place?_eq_none : place? geometry shelves = none ↔ ∀ shelf ∈ shelves, shelf.Full geometry := by
  induction shelves with
  | nil => simp [place?]
  | cons shelf rest ih =>
    rw [List.forall_mem_cons, ← Shelf.vacancy?_eq_none, ← ih, place?]
    cases shelf.vacancy? geometry <;> simp

theorem place?_eq_some (placed : place? geometry shelves = some (addr, after)) :
    ∃ left shelf right index, shelves = left ++ shelf :: right ∧ (∀ other ∈ left, other.Full geometry) ∧
      shelf.vacancy? geometry = some index ∧ addr = shelf.base + geometry.start index ∧
      after = left ++ shelf.take index :: right := by
  induction shelves generalizing after with
  | nil => cases placed
  | cons shelf rest ih =>
    rw [place?] at placed
    split at placed
    next index vacant =>
      cases placed
      exact ⟨[], shelf, rest, index, rfl, nofun, vacant, rfl, rfl⟩
    next full =>
      obtain ⟨⟨_, _⟩, found, same⟩ := Option.map_eq_some_iff.mp placed
      cases same
      obtain ⟨left, other, right, index, rfl, below, vacant, rfl, rfl⟩ := ih found
      exact ⟨shelf :: left, other, right, index, rfl,
        List.forall_mem_cons.mpr ⟨Shelf.vacancy?_eq_none.mp full, below⟩, vacant, rfl, rfl⟩

theorem bases_place? (placed : place? geometry shelves = some (addr, after)) :
    after.map Shelf.base = shelves.map Shelf.base := by
  obtain ⟨left, shelf, right, index, rfl, -, -, -, rfl⟩ := place?_eq_some placed
  simp only [List.map_append, List.map_cons, Shelf.take]

theorem filter_base {first last : List Shelf} {shelf : Shelf}
    (distinct : ((first ++ shelf :: last).map Shelf.base).Nodup) :
    (first ++ shelf :: last).filter (·.base ≠ shelf.base) = first ++ last := by
  rw [List.map_append, List.map_cons, List.nodup_middle, List.nodup_cons, ← List.map_append] at distinct
  have away : ∀ other ∈ first ++ last, other.base ≠ shelf.base := fun other member same =>
    distinct.1 (List.mem_map.mpr ⟨other, member, same⟩)
  rw [List.filter_append, List.filter_cons, if_neg (by simp), ← List.filter_append]
  exact List.filter_eq_self.mpr fun other member => decide_eq_true (away other member)

section Discard

def discard : List Addr → List Shelf → List Shelf
  | [], shelves => shelves
  | base :: rest, shelves =>
    if shelves.length = 1 then shelves else discard rest (shelves.filter (·.base ≠ base))

def spare (shelves : List Shelf) : List Addr :=
  ((shelves.filter (·.taken = ∅)).map Shelf.base).reverse

private theorem spare_concat (shelves : List Shelf) (shelf : Shelf) :
    spare (shelves ++ [shelf]) = if shelf.taken = ∅ then shelf.base :: spare shelves else spare shelves := by
  rw [spare, List.filter_append, List.map_append, List.reverse_append]
  by_cases empty : shelf.taken = ∅ <;> simp [empty, spare]

private theorem discard_append {first : List Shelf} : ∀ {last : List Shelf}, last ≠ [] →
    ((first ++ last).map Shelf.base).Nodup →
    discard (spare first) (first ++ last) = first.filter (·.taken ≠ ∅) ++ last := by
  -- The frames go from the back. One stays behind them all the while, so the last frame is never at stake.
  induction first using List.reverseRecOn with
  | nil => intro last _ _; rfl
  | append_singleton first shelf ih =>
    intro last more distinct
    rw [List.append_assoc, List.singleton_append] at distinct ⊢
    rw [spare_concat]
    by_cases empty : shelf.taken = ∅
    · have long : (first ++ shelf :: last).length ≠ 1 := by
        have := List.length_pos_iff.mpr more
        simp only [List.length_append, List.length_cons]
        omega
      have rest : ((first ++ last).map Shelf.base).Nodup := by
        rw [← filter_base distinct]
        exact distinct.sublist (List.filter_sublist.map _)
      rw [if_pos empty, discard, if_neg long, filter_base distinct, ih more rest, List.filter_append]
      simp [empty]
    · rw [if_neg empty, ih (List.cons_ne_nil _ _) distinct, List.filter_append]
      simp [empty]

/-- Taking the empty frames away from the last one on leaves the frames that compaction leaves. -/
theorem discard_spare (distinct : (shelves.map Shelf.base).Nodup) :
    discard (spare shelves) shelves = compacted shelves := by
  -- Up to the first frame that is in use, counted from the back, every frame goes unless it is alone. From
  -- there on that frame stays behind the others.
  induction shelves using List.reverseRecOn with
  | nil => rfl
  | append_singleton shelves shelf ih =>
    rw [spare_concat]
    by_cases empty : shelf.taken = ∅
    · rw [if_pos empty, discard]
      by_cases single : (shelves ++ [shelf]).length = 1
      · rw [if_pos single]
        obtain rfl : shelves = [] := List.length_eq_zero_iff.mp (by simpa using single)
        simp [compacted, empty]
      · have some : shelves ≠ [] := fun none => single (by rw [none]; rfl)
        have rest : (shelves ++ [shelf]).filter (·.base ≠ shelf.base) = shelves :=
          (filter_base distinct).trans (List.append_nil shelves)
        rw [if_neg single, rest, ih (by rw [List.map_append] at distinct; exact distinct.of_append_left)]
        simp only [compacted, List.forall_mem_append, List.forall_mem_singleton, empty, and_true,
          List.filter_append]
        congr 1
        · exact (List.take_append_of_le_length (List.length_pos_iff.mpr some)).symm
        · simp [empty]
    · have stays : ¬ ∀ other ∈ shelves ++ [shelf], other.taken = ∅ := fun all => empty (all shelf (by simp))
      rw [if_neg empty, discard_append (List.cons_ne_nil _ _) distinct, compacted, if_neg stays,
        List.filter_append]
      simp [empty]

def shed (shelves : List Shelf) : List Addr :=
  (spare shelves).take (shelves.length - (compacted shelves).length)

private theorem shed_empty {shelf : Shelf} (distinct : ((shelf :: shelves).map Shelf.base).Nodup)
    (empty : ∀ other ∈ shelf :: shelves, other.taken = ∅) :
    shed (shelf :: shelves) =
      (((shelf :: shelves).map Shelf.base).filter
        (· ∉ (compacted (shelf :: shelves)).map Shelf.base)).reverse := by
  obtain ⟨fresh, -⟩ := List.nodup_cons.mp distinct
  have every : (shelf :: shelves).filter (·.taken = ∅) = shelf :: shelves :=
    List.filter_eq_self.mpr fun other member => decide_eq_true (empty other member)
  have others : (shelves.map Shelf.base).filter (· ∉ [shelf.base]) = shelves.map Shelf.base := by
    apply List.filter_eq_self.mpr
    intro base member
    apply decide_eq_true
    intro same
    rw [List.mem_singleton] at same
    exact fresh (same ▸ member)
  rw [shed, spare, every, compacted, if_pos empty]
  simp only [List.take_succ_cons, List.take_zero, List.map_cons, List.map_nil, List.length_cons, List.length_nil,
    List.reverse_cons]
  rw [List.filter_cons_of_neg (by simp), others]
  exact List.take_left' (by simp)

/-- It takes away what it does not leave, from the last one on. -/
theorem shed_eq (distinct : (shelves.map Shelf.base).Nodup) :
    shed shelves = ((shelves.map Shelf.base).filter (· ∉ (compacted shelves).map Shelf.base)).reverse := by
  by_cases empty : ∀ shelf ∈ shelves, shelf.taken = ∅
  · cases shelves with
    | nil => rfl
    | cons shelf shelves => exact shed_empty distinct empty
  · have split := List.length_eq_length_filter_add (l := shelves) (fun shelf => decide (shelf.taken ≠ ∅))
    have rest : (spare shelves).length = shelves.length - (shelves.filter (·.taken ≠ ∅)).length := by
      rw [spare, List.length_reverse, List.length_map]
      simp only [ne_eq, decide_not, Bool.not_not] at split ⊢
      omega
    rw [shed, compacted, if_neg empty, List.take_of_length_le (by omega), spare, List.filter_map]
    congr 2
    apply List.filter_congr
    intro shelf member
    have stays : shelf.base ∈ (shelves.filter (·.taken ≠ ∅)).map Shelf.base ↔ shelf.taken ≠ ∅ := by
      constructor
      · intro listed
        obtain ⟨other, kept, same⟩ := List.mem_map.mp listed
        obtain ⟨there, used⟩ := List.mem_filter.mp kept
        rw [List.inj_on_of_nodup_map distinct there member same] at used
        exact of_decide_eq_true used
      · intro used
        exact List.mem_map_of_mem (List.mem_filter.mpr ⟨member, decide_eq_true used⟩)
    rw [Function.comp_apply, decide_eq_decide, stays, not_not]

private theorem length_filter_le_compacted (shelves : List Shelf) :
    (shelves.filter (·.taken ≠ ∅)).length ≤ (compacted shelves).length := by
  unfold compacted
  split
  next empty =>
    have none : shelves.filter (·.taken ≠ ∅) = [] :=
      List.filter_eq_nil_iff.mpr fun shelf member => by simpa using empty shelf member
    rw [none]
    exact Nat.zero_le _
  next => exact Nat.le_refl _

theorem length_shed (shelves : List Shelf) :
    (shed shelves).length = shelves.length - (compacted shelves).length := by
  have split := List.length_eq_length_filter_add (l := shelves) (fun shelf => decide (shelf.taken ≠ ∅))
  have enough := length_filter_le_compacted shelves
  have spare : (spare shelves).length = (shelves.filter fun shelf => !decide (shelf.taken ≠ ∅)).length := by
    rw [spare, List.length_reverse, List.length_map]
    simp only [ne_eq, decide_not, Bool.not_not]
  rw [shed, List.length_take, spare]
  omega

theorem mem_compacted_of_taken {shelf : Shelf} (member : shelf ∈ shelves) (used : shelf.taken ≠ ∅) :
    shelf ∈ compacted shelves := by
  have busy : ¬ ∀ other ∈ shelves, other.taken = ∅ := fun empty => used (empty shelf member)
  rw [compacted, if_neg busy]
  exact List.mem_filter.mpr ⟨member, decide_eq_true used⟩

theorem mem_of_mem_compacted {shelf : Shelf} (left : shelf ∈ compacted shelves) : shelf ∈ shelves := by
  unfold compacted at left
  split at left
  next => exact List.mem_of_mem_take left
  next => exact List.mem_of_mem_filter left

theorem holds_compact {stock : Stock} : stock.compact.Holds geometry addr ↔ stock.Holds geometry addr := by
  constructor
  · rintro ⟨shelf, left, held⟩
    exact ⟨shelf, mem_of_mem_compacted left, held⟩
  · rintro ⟨shelf, member, index, used, same⟩
    exact ⟨shelf, mem_compacted_of_taken member (Finset.ne_empty_of_mem used), index, used, same⟩

theorem length_compacted_le (shelves : List Shelf) : (compacted shelves).length ≤ shelves.length := by
  unfold compacted
  split
  next => exact List.length_take_le' ..
  next => exact List.length_filter_le ..

/-- What compaction leaves has no empty frame, or nothing else. -/
theorem spare_compacted (shelves : List Shelf) : spare (compacted shelves) = [] ∨
    (compacted shelves).length = 1 := by
  unfold compacted
  split
  next =>
    cases shelves with
    | nil => exact .inl rfl
    | cons shelf rest => exact .inr rfl
  next =>
    left
    rw [spare, List.filter_filter]
    simp

theorem compacted_compacted (shelves : List Shelf) : compacted (compacted shelves) = compacted shelves := by
  by_cases empty : ∀ shelf ∈ shelves, shelf.taken = ∅
  · have first : ∀ shelf ∈ shelves.take 1, shelf.taken = ∅ :=
      fun shelf member => empty shelf (List.mem_of_mem_take member)
    rw [compacted, compacted, if_pos empty, if_pos first, List.take_take, Nat.min_self]
  · obtain ⟨shelf, member, used⟩ : ∃ shelf ∈ shelves, shelf.taken ≠ ∅ := by simpa using empty
    have busy : ¬ ∀ other ∈ shelves.filter (·.taken ≠ ∅), other.taken = ∅ := fun bare =>
      used (bare shelf (List.mem_filter.mpr ⟨member, decide_eq_true used⟩))
    rw [compacted, compacted, if_neg empty, if_neg busy, List.filter_filter]
    simp

end Discard

inductive Call where
  | acquire
  | release (addr : Addr)
  | compact
  deriving DecidableEq

inductive Answer where
  | granted (addr : Addr)
  | denied
  | released
  | compacted (count : Nat)
  deriving DecidableEq

/-- How a call is answered. Whether there is a block for another frame, and where, is up to the arena. -/
inductive Step (geometry : Geometry) (interval : Nat) : Call → Answer → Stock → Stock → Prop
  | take {stock : Stock} {addr : Addr} {shelves : List Shelf}
    (place : place? geometry stock.shelves = some (addr, shelves)) :
    Step geometry interval .acquire (.granted addr) stock { stock with shelves }
  | grow {stock : Stock} {base : Addr} (full : place? geometry stock.shelves = none)
    (fresh : base ∉ stock.shelves.map Shelf.base) :
    Step geometry interval .acquire (.granted (base + geometry.start 0)) stock
      { stock with shelves := stock.shelves ++ [⟨base, {0}⟩] }
  | deny {stock : Stock} (full : place? geometry stock.shelves = none) :
    Step geometry interval .acquire .denied stock stock
  | release {stock : Stock} {addr : Addr} (holds : stock.Holds geometry addr) :
    Step geometry interval (.release addr) .released stock ((stock.vacate geometry addr).tally interval)
  | compact {stock : Stock} {count : Nat} (left : stock.compact.shelves.length + count = stock.shelves.length) :
    Step geometry interval .compact (.compacted count) stock stock.compact

/-- Only requests are denied. -/
theorem Step.acquires {interval : Nat} {call : Call} {before after : Stock}
    (step : Step geometry interval call .denied before after) : call = .acquire := by
  cases step
  rfl

inductive Serves (geometry : Geometry) (interval : Nat) : List Call → List Answer → Stock → Stock → Prop
  | nil {stock : Stock} : Serves geometry interval [] [] stock stock
  | cons {call : Call} {answer : Answer} {calls : List Call} {answers : List Answer} {before middle after : Stock}
    (step : Step geometry interval call answer before middle)
    (rest : Serves geometry interval calls answers middle after) :
    Serves geometry interval (call :: calls) (answer :: answers) before after

end Stock
end SlabAllocator
