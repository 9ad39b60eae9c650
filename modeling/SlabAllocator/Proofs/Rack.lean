import Mathlib.Logic.Function.Basic
import SlabAllocator.Proofs.Stock

/-! A pool without its addresses. Its frames go by the order in which they were added and its slots by the
requests that they answered, so there is nothing left in which two hosts differ: how it answers and what
becomes of it follow from what it is asked. -/

namespace SlabAllocator

/-- What tells the pools of one kind from those of another. -/
structure Make where
  geometry : Geometry
  interval : Nat
  /-- Whether a frame is short enough for the arena to ask for it. -/
  mappable : Bool
  deriving DecidableEq

/-- A frame: how many were added before it, and of each slot the request that it answered. -/
structure Row where
  number : Nat
  slots : List (Option Nat)
  deriving DecidableEq

namespace Row

def vacancy? (row : Row) : Option Nat :=
  row.slots.findIdx? Option.isNone

def take (turn index : Nat) (row : Row) : Row :=
  { row with slots := row.slots.set index (some turn) }

def vacate (turn : Nat) (row : Row) : Row :=
  { row with slots := row.slots.map fun slot => if slot = some turn then none else slot }

def idle (row : Row) : Bool :=
  row.slots.all Option.isNone

end Row

structure Rack where
  rows : List Row
  releases : Nat
  grown : Nat
  /-- The requests made so far. -/
  turns : Nat
  deriving DecidableEq

namespace Rack

inductive Ask where
  | acquire
  /-- Gives back the slot that a request was answered with. -/
  | release (turn : Nat)
  | compact
  deriving DecidableEq

inductive Reply where
  | placed (frame offset : Nat)
  | denied
  | released
  | compacted (count : Nat)
  deriving DecidableEq

def place? (turn : Nat) : List Row → Option ((Nat × Nat) × List Row)
  | [] => none
  | row :: rest =>
    match row.vacancy? with
    | some index => some ((row.number, index), row.take turn index :: rest)
    | none => (place? turn rest).map fun (place, rest) => (place, row :: rest)

def compacted (rows : List Row) : List Row :=
  if rows.all Row.idle then rows.take 1 else rows.filter (!·.idle)

def tally (interval : Nat) (rack : Rack) : Rack :=
  if interval ≤ rack.releases + 1 then { rack with rows := compacted rack.rows, releases := 0 }
  else { rack with releases := rack.releases + 1 }

/-- A new frame, the first slot of which answers a request. -/
def addition (make : Make) (rack : Rack) : Row :=
  ⟨rack.grown, some rack.turns :: List.replicate (make.geometry.slots - 1) none⟩

def serve (make : Make) (rack : Rack) : Ask → Reply × Rack
  | .acquire =>
    match place? rack.turns rack.rows with
    | some ((frame, index), rows) =>
      (.placed frame (make.geometry.start index), { rack with rows, turns := rack.turns + 1 })
    | none =>
      if make.mappable then
        (.placed rack.grown (make.geometry.start 0),
          { rack with
            rows := rack.rows ++ [rack.addition make], grown := rack.grown + 1, turns := rack.turns + 1 })
      else (.denied, { rack with turns := rack.turns + 1 })
  | .release turn => (.released, tally make.interval { rack with rows := rack.rows.map (Row.vacate turn) })
  | .compact =>
    (.compacted (rack.rows.length - (compacted rack.rows).length), { rack with rows := compacted rack.rows })

theorem place?_append {turn index : Nat} {left right : List Row} {row : Row}
    (full : ∀ other ∈ left, other.vacancy? = none) (vacant : row.vacancy? = some index) :
    place? turn (left ++ row :: right) = some ((row.number, index), left ++ row.take turn index :: right) := by
  induction left with
  | nil => rw [List.nil_append, place?, vacant, List.nil_append]
  | cons other left ih =>
    obtain ⟨here, later⟩ := List.forall_mem_cons.mp full
    rw [List.cons_append, place?, here, ih later, Option.map_some, List.cons_append]

theorem place?_eq_none {turn : Nat} {rows : List Row} (full : ∀ row ∈ rows, row.vacancy? = none) :
    place? turn rows = none := by
  induction rows with
  | nil => rfl
  | cons row rest ih =>
    obtain ⟨here, later⟩ := List.forall_mem_cons.mp full
    rw [place?, here, ih later, Option.map_none]

end Rack

/-- The names by which frames and slots go instead of their addresses. -/
structure Names where
  grown : Nat
  number : Addr → Nat
  turns : Nat
  turn : Addr → Nat

namespace Names

def start : Names := ⟨0, fun _ => 0, 0, fun _ => 0⟩

def enroll (base : Addr) (names : Names) : Names :=
  { names with grown := names.grown + 1, number := Function.update names.number base names.grown }

def grant (addr : Addr) (names : Names) : Names :=
  { names with turns := names.turns + 1, turn := Function.update names.turn addr names.turns }

def deny (names : Names) : Names :=
  { names with turns := names.turns + 1 }

def row (names : Names) (geometry : Geometry) (shelf : Shelf) : Row where
  number := names.number shelf.base
  slots := (List.range geometry.slots).map fun index =>
    if index ∈ shelf.taken then some (names.turn (shelf.base + geometry.start index)) else none

def rack (names : Names) (geometry : Geometry) (stock : Stock) : Rack where
  rows := stock.shelves.map (names.row geometry)
  releases := stock.releases
  grown := names.grown
  turns := names.turns

/-- No two slots that are handed out go by one name, and none by one that is still to be given. -/
structure Tell (names : Names) (geometry : Geometry) (stock : Stock) : Prop where
  inside : ∀ shelf ∈ stock.shelves, ∀ index ∈ shelf.taken, index < geometry.slots
  earlier : ∀ addr, stock.Holds geometry addr → names.turn addr < names.turns
  distinct : ∀ addr other, stock.Holds geometry addr → stock.Holds geometry other →
    names.turn addr = names.turn other → addr = other

variable {names : Names} {geometry : Geometry} {stock : Stock} {shelf : Shelf} {shelves : List Shelf}
  {addr base : Addr}
  {index : Nat} {make : Make}

theorem vacancy?_row (names : Names) (geometry : Geometry) (shelf : Shelf) :
    (names.row geometry shelf).vacancy? = shelf.vacancy? geometry := by
  have free : ∀ index,
      ((if index ∈ shelf.taken then some (names.turn (shelf.base + geometry.start index)) else none).isNone =
        true) ↔
      index ∉ shelf.taken := by
    intro index
    by_cases used : index ∈ shelf.taken <;> simp [used]
  rw [Row.vacancy?, row]
  cases vacant : shelf.vacancy? geometry with
  | none =>
    have full := Shelf.vacancy?_eq_none.mp vacant
    simp only [List.findIdx?_eq_none_iff, List.mem_map, List.mem_range, forall_exists_index, and_imp,
      forall_apply_eq_imp_iff₂]
    intro index inside
    rw [← Bool.not_eq_true, free, not_not]
    exact full index inside
  | some index =>
    obtain ⟨inside, unused, below⟩ := Shelf.vacancy?_eq_some.mp vacant
    simp only [List.findIdx?_eq_some_iff_getElem, List.length_map, List.length_range, List.getElem_map,
      List.getElem_range, free]
    exact ⟨inside, unused, fun other less => not_not.mpr (below other less)⟩

/-- A slot that is not handed out can be given a name. -/
theorem row_grant (away : ∀ index ∈ shelf.taken, shelf.base + geometry.start index ≠ addr) :
    (names.grant addr).row geometry shelf = names.row geometry shelf := by
  rw [row, row]
  congr 1
  apply List.map_congr_left
  intro index _
  by_cases used : index ∈ shelf.taken
  · rw [if_pos used, if_pos used]
    exact congrArg some (Function.update_of_ne (away index used) ..)
  · rw [if_neg used, if_neg used]

theorem row_take (away : ∀ other ∈ shelf.taken, shelf.base + geometry.start other ≠
    shelf.base + geometry.start index) :
    (names.grant (shelf.base + geometry.start index)).row geometry (shelf.take index) =
      (names.row geometry shelf).take names.turns index := by
  rw [Row.take, row, row]
  congr 1
  apply List.ext_getElem (by simp)
  intro other _ _
  simp only [List.getElem_map, List.getElem_range, List.getElem_set, Shelf.take, Finset.mem_insert, grant]
  by_cases same : index = other
  · subst same
    simp
  · rw [if_neg same]
    by_cases used : other ∈ shelf.taken
    · simp [used, Function.update_of_ne (away other used)]
    · simp [used, Ne.symm same]

theorem row_vacate (single : ∀ index ∈ shelf.taken, names.turn (shelf.base + geometry.start index) =
    names.turn addr → shelf.base + geometry.start index = addr) :
    names.row geometry (shelf.vacate geometry addr) = (names.row geometry shelf).vacate (names.turn addr) := by
  rw [Row.vacate, row, row]
  congr 1
  rw [List.map_map]
  apply List.map_congr_left
  intro index _
  simp only [Shelf.vacate, Finset.mem_filter, Function.comp_apply]
  by_cases used : index ∈ shelf.taken
  · by_cases here : shelf.base + geometry.start index = addr
    · simp [used, here]
    · have other : names.turn (shelf.base + geometry.start index) ≠ names.turn addr :=
        fun same => here (single index used same)
      simp [used, here, other]
  · simp [used]

theorem idle_row (inside : ∀ index ∈ shelf.taken, index < geometry.slots) :
    (names.row geometry shelf).idle = decide (shelf.taken = ∅) := by
  rw [Bool.eq_iff_iff, decide_eq_true_iff, Row.idle, row, List.all_map, List.all_eq_true]
  constructor
  · intro free
    apply Finset.eq_empty_of_forall_notMem
    intro index used
    have none := free index (List.mem_range.mpr (inside index used))
    simp [used] at none
  · rintro empty index -
    simp [empty]

theorem compacted_rows (inside : ∀ shelf ∈ shelves, ∀ index ∈ shelf.taken, index < geometry.slots) :
    Rack.compacted (shelves.map (names.row geometry)) = (Stock.compacted shelves).map (names.row geometry) := by
  have idle : ∀ shelf ∈ shelves, (names.row geometry shelf).idle = decide (shelf.taken = ∅) := fun shelf member =>
    idle_row (inside shelf member)
  have all : (shelves.map (names.row geometry)).all Row.idle = true ↔ ∀ shelf ∈ shelves, shelf.taken = ∅ := by
    rw [List.all_map, List.all_eq_true]
    refine forall₂_congr fun shelf member => ?_
    rw [Function.comp_apply, idle shelf member, decide_eq_true_iff]
  unfold Rack.compacted Stock.compacted
  by_cases empty : ∀ shelf ∈ shelves, shelf.taken = ∅
  · rw [if_pos (all.mpr empty), if_pos empty, List.map_take]
  · rw [if_neg (all.not.mpr empty), if_neg empty, List.filter_map]
    congr 1
    apply List.filter_congr
    intro shelf member
    rw [Function.comp_apply, idle shelf member, ← decide_not]

/-- A frame is added with its first slot taken. -/
theorem row_addition (inhabited : 0 < make.geometry.slots) :
    ((names.enroll base).grant (base + make.geometry.start 0)).row make.geometry ⟨base, {0}⟩ =
      (names.rack make.geometry stock).addition make := by
  obtain ⟨rest, count⟩ := Nat.exists_eq_add_of_lt inhabited
  rw [Nat.zero_add] at count
  rw [row, Rack.addition]
  congr 1
  · exact Function.update_self ..
  · rw [count, List.range_succ_eq_map, Nat.add_sub_cancel, List.map_cons, List.map_map]
    congr 1
    · rw [if_pos (Finset.mem_singleton_self 0)]
      exact congrArg some (Function.update_self ..)
    · rw [List.eq_replicate_iff]
      refine ⟨by simp, ?_⟩
      intro slot member
      obtain ⟨index, -, rfl⟩ := List.mem_map.mp member
      simp

theorem rack_full (full : Stock.place? geometry stock.shelves = none) :
    Rack.place? names.turns (names.rack geometry stock).rows = none := by
  apply Rack.place?_eq_none
  intro row member
  obtain ⟨shelf, listed, rfl⟩ := List.mem_map.mp member
  rw [vacancy?_row, Shelf.vacancy?_eq_none]
  exact Stock.place?_eq_none.mp full shelf listed

namespace Tell

/-- Frames can go, and slots can be given back. -/
theorem fewer {after : Stock} (tell : names.Tell geometry stock)
    (less : ∀ shelf ∈ after.shelves, ∃ old ∈ stock.shelves, shelf.base = old.base ∧ shelf.taken ⊆ old.taken) :
    names.Tell geometry after := by
  have held : ∀ addr, after.Holds geometry addr → stock.Holds geometry addr := by
    rintro _ ⟨shelf, member, index, used, rfl⟩
    obtain ⟨old, listed, same, within⟩ := less shelf member
    exact ⟨old, listed, index, within used, by rw [same]⟩
  refine ⟨?_, fun addr still => tell.earlier addr (held addr still),
    fun addr other still still' => tell.distinct addr other (held addr still) (held other still')⟩
  intro shelf member index used
  obtain ⟨old, listed, -, within⟩ := less shelf member
  exact tell.inside old listed index (within used)

/-- A slot that was free is handed out. -/
theorem grant {after : Stock} (tell : names.Tell geometry stock) (free : ¬ stock.Holds geometry addr)
    (inside : ∀ shelf ∈ after.shelves, ∀ index ∈ shelf.taken, index < geometry.slots)
    (more : ∀ other, after.Holds geometry other → other = addr ∨ stock.Holds geometry other) :
    (names.grant addr).Tell geometry after := by
  have old : ∀ other, stock.Holds geometry other → (names.grant addr).turn other = names.turn other := by
    intro other held
    apply Function.update_of_ne
    rintro rfl
    exact free held
  have new : (names.grant addr).turn addr = names.turns := Function.update_self ..
  refine ⟨inside, ?_, ?_⟩
  · intro other held
    change _ < names.turns + 1
    rcases more other held with rfl | held
    · rw [new]
      exact Nat.lt_succ_self _
    · rw [old other held]
      exact Nat.lt_succ_of_lt (tell.earlier other held)
  · intro first second held held' same
    rcases more first held with rfl | held <;> rcases more second held' with rfl | held'
    · rfl
    · rw [new, old second held'] at same
      exact absurd same (Nat.ne_of_gt (tell.earlier second held'))
    · rw [new, old first held] at same
      exact absurd same (Nat.ne_of_lt (tell.earlier first held))
    · rw [old first held, old second held'] at same
      exact tell.distinct first second held held' same

private theorem taken (tell : names.Tell geometry stock)
    (place : Stock.place? geometry stock.shelves = some (addr, shelves))
    (free : ¬ stock.Holds geometry addr) : (names.grant addr).Tell geometry { stock with shelves } := by
  obtain ⟨left, shelf, right, index, shape, -, vacant, rfl, rfl⟩ := Stock.place?_eq_some place
  obtain ⟨inside, -, -⟩ := Shelf.vacancy?_eq_some.mp vacant
  have here : shelf ∈ stock.shelves := by simp [shape]
  apply tell.grant free
  · intro other member place used
    rcases List.mem_append.mp member with first | later
    · exact tell.inside other (by simp [shape, first]) place used
    rcases List.mem_cons.mp later with rfl | last
    · rcases Finset.mem_insert.mp used with rfl | old
      · exact inside
      · exact tell.inside shelf here place old
    · exact tell.inside other (by simp [shape, last]) place used
  · rintro _ ⟨other, member, place, used, rfl⟩
    rcases List.mem_append.mp member with first | later
    · exact .inr ⟨other, by simp [shape, first], place, used, rfl⟩
    rcases List.mem_cons.mp later with rfl | last
    · rcases Finset.mem_insert.mp used with rfl | old
      · exact .inl rfl
      · exact .inr ⟨shelf, here, place, old, rfl⟩
    · exact .inr ⟨other, by simp [shape, last], place, used, rfl⟩

/-- The first free slot is handed out. -/
theorem take (tell : names.Tell make.geometry stock)
    (place : Stock.place? make.geometry stock.shelves = some (addr, shelves))
    (free : ¬ stock.Holds make.geometry addr) :
    (names.grant addr).Tell make.geometry { stock with shelves } ∧
      ∃ base ∈ stock.shelves.map Shelf.base, ∃ index < make.geometry.slots, addr =
        base + make.geometry.start index ∧
        Rack.serve make (names.rack make.geometry stock) .acquire =
          (.placed (names.number base) (make.geometry.start index),
            (names.grant addr).rack make.geometry { stock with shelves }) := by
  refine ⟨tell.taken place free, ?_⟩
  obtain ⟨left, shelf, right, index, shape, full, vacant, rfl, rfl⟩ := Stock.place?_eq_some place
  obtain ⟨inside, -, -⟩ := Shelf.vacancy?_eq_some.mp vacant
  have here : shelf ∈ stock.shelves := by simp [shape]
  have away : ∀ other ∈ stock.shelves, ∀ place ∈ other.taken,
      other.base + make.geometry.start place ≠ shelf.base + make.geometry.start index :=
    fun other member place used same => free ⟨other, member, place, used, same.symm⟩
  refine ⟨shelf.base, List.mem_map_of_mem here, index, inside, rfl, ?_⟩
  have served : Rack.place? names.turns (names.rack make.geometry stock).rows =
      some ((names.number shelf.base, index),
      left.map (names.row make.geometry) ++ (names.row make.geometry shelf).take names.turns index ::
        right.map (names.row make.geometry)) := by
    rw [rack, shape, List.map_append, List.map_cons]
    apply Rack.place?_append
    · intro other member
      obtain ⟨old, listed, rfl⟩ := List.mem_map.mp member
      rw [vacancy?_row, Shelf.vacancy?_eq_none]
      exact full old listed
    · rw [vacancy?_row, vacant]
  have kept : ∀ part : List Shelf, (∀ other ∈ part, other ∈ stock.shelves) →
      part.map ((names.grant (shelf.base + make.geometry.start index)).row make.geometry) =
        part.map (names.row make.geometry) :=
    fun part among => List.map_congr_left fun other member => row_grant (away other (among other member))
  simp only [Rack.serve, show (names.rack make.geometry stock).turns = names.turns from rfl, served]
  congr 1
  rw [rack, rack, List.map_append, List.map_cons, row_take (away shelf here),
    kept left (fun other member => by simp [shape, member]),
    kept right (fun other member => by simp [shape, member])]
  rfl

private theorem grown (tell : names.Tell geometry stock) (free : ¬ stock.Holds geometry (base + geometry.start 0))
    (inhabited : 0 < geometry.slots) :
    ((names.enroll base).grant (base + geometry.start 0)).Tell geometry
      { stock with shelves := stock.shelves ++ [⟨base, {0}⟩] } := by
  have enrolled : (names.enroll base).Tell geometry stock := ⟨tell.inside, tell.earlier, tell.distinct⟩
  apply enrolled.grant free
  · intro shelf member index used
    rcases List.mem_append.mp member with old | new
    · exact tell.inside shelf old index used
    · rw [List.mem_singleton] at new
      subst new
      rw [Finset.mem_singleton.mp used]
      exact inhabited
  · rintro _ ⟨shelf, member, index, used, rfl⟩
    rcases List.mem_append.mp member with old | new
    · exact .inr ⟨shelf, old, index, used, rfl⟩
    · rw [List.mem_singleton] at new
      subst new
      rw [Finset.mem_singleton.mp used]
      exact .inl rfl

/-- A frame is added when all others are full. -/
theorem grow (tell : names.Tell make.geometry stock) (full : Stock.place? make.geometry stock.shelves = none)
    (fresh : base ∉ stock.shelves.map Shelf.base)
    (free : ¬ stock.Holds make.geometry (base + make.geometry.start 0))
    (mappable : make.mappable = true) (inhabited : 0 < make.geometry.slots) :
    ((names.enroll base).grant (base + make.geometry.start 0)).Tell make.geometry
        { stock with shelves := stock.shelves ++ [⟨base, {0}⟩] } ∧
      Rack.serve make (names.rack make.geometry stock) .acquire = (.placed names.grown (make.geometry.start 0),
        ((names.enroll base).grant (base + make.geometry.start 0)).rack make.geometry
          { stock with shelves := stock.shelves ++ [⟨base, {0}⟩] }) := by
  refine ⟨tell.grown free inhabited, ?_⟩
  have kept : ∀ shelf ∈ stock.shelves,
      ((names.enroll base).grant (base + make.geometry.start 0)).row make.geometry shelf =
        names.row make.geometry shelf := by
    intro shelf member
    rw [row_grant fun index used same => free ⟨shelf, member, index, used, same.symm⟩, row, row]
    congr 1
    exact Function.update_of_ne (fun same => fresh (List.mem_map.mpr ⟨shelf, member, same⟩)) ..
  simp only [Rack.serve, show (names.rack make.geometry stock).turns = names.turns from rfl,
    rack_full full, if_pos mappable]
  congr 1
  rw [rack, rack, List.map_append, List.map_singleton, row_addition inhabited, List.map_congr_left kept]
  rfl

theorem deny (tell : names.Tell make.geometry stock) (full : Stock.place? make.geometry stock.shelves = none)
    (unmappable : make.mappable = false) :
    names.deny.Tell make.geometry stock ∧
      Rack.serve make (names.rack make.geometry stock) .acquire =
        (.denied, names.deny.rack make.geometry stock) := by
  constructor
  · exact ⟨tell.inside, fun addr held => Nat.lt_succ_of_lt (tell.earlier addr held), tell.distinct⟩
  · have short : ¬ make.mappable = true := by rw [unmappable]; exact Bool.false_ne_true
    simp only [Rack.serve, show (names.rack make.geometry stock).turns = names.turns from rfl,
      rack_full full, if_neg short]
    rfl

theorem compact (tell : names.Tell make.geometry stock) :
    names.Tell make.geometry stock.compact ∧
      Rack.serve make (names.rack make.geometry stock) .compact =
        (.compacted (stock.shelves.length - stock.compact.shelves.length),
          names.rack make.geometry stock.compact) := by
  constructor
  · apply tell.fewer
    intro shelf left
    exact ⟨shelf, Stock.mem_of_mem_compacted left, rfl, Finset.Subset.refl _⟩
  · have rows : Rack.compacted (names.rack make.geometry stock).rows =
        (names.rack make.geometry stock.compact).rows :=
      compacted_rows tell.inside
    simp only [Rack.serve, rows]
    rw [rack, rack, List.length_map, List.length_map]
    rfl

theorem tally (tell : names.Tell geometry stock) (interval : Nat) :
    names.Tell geometry (stock.tally interval) ∧
      Rack.tally interval (names.rack geometry stock) = names.rack geometry (stock.tally interval) := by
  have rows : Rack.compacted (names.rack geometry stock).rows =
      (Stock.compacted stock.shelves).map (names.row geometry) :=
    compacted_rows tell.inside
  rw [Rack.tally, Stock.tally, rows]
  change _ ∧ (if interval ≤ stock.releases + 1 then _ else _) = _
  split
  · refine ⟨tell.fewer fun shelf left => ?_, rfl⟩
    exact ⟨shelf, Stock.mem_of_mem_compacted left, rfl, Finset.Subset.refl _⟩
  · exact ⟨⟨tell.inside, tell.earlier, tell.distinct⟩, rfl⟩

/-- A slot goes back under the name that it was handed out by. -/
theorem release (tell : names.Tell make.geometry stock) (holds : stock.Holds make.geometry addr) :
    names.Tell make.geometry ((stock.vacate make.geometry addr).tally make.interval) ∧
      Rack.serve make (names.rack make.geometry stock) (.release (names.turn addr)) =
        (.released, names.rack make.geometry ((stock.vacate make.geometry addr).tally make.interval)) := by
  have vacated : names.Tell make.geometry (stock.vacate make.geometry addr) := by
    apply tell.fewer
    intro shelf member
    obtain ⟨old, listed, rfl⟩ := List.mem_map.mp member
    exact ⟨old, listed, rfl, Finset.filter_subset _ _⟩
  have rows : (names.rack make.geometry stock).rows.map (Row.vacate (names.turn addr)) =
      (names.rack make.geometry (stock.vacate make.geometry addr)).rows := by
    rw [rack, rack, Stock.vacate, List.map_map, List.map_map]
    apply List.map_congr_left
    intro shelf member
    refine (row_vacate fun index used same => ?_).symm
    exact tell.distinct _ _ ⟨shelf, member, index, used, rfl⟩ holds same
  obtain ⟨tell', tallied⟩ := vacated.tally make.interval
  refine ⟨tell', ?_⟩
  rw [← tallied, Rack.serve, rows]
  rfl

end Tell
end Names
end SlabAllocator
