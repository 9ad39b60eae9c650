import Mathlib.Data.List.Forall2
import SlabAllocator.Proofs.Rack
import SlabAllocator.Proofs.Slots

/-! What a client can see of a pool, frame by frame. It follows from the frames without their addresses,
down to the words of their bitmaps. -/

namespace SlabAllocator

@[ext]
structure Outlook where
  frameCount : Nat
  liveSlots : Option Nat
  /-- The bitmap of each frame in the order of the chain, with the number that the frame goes by. -/
  bitmaps : List (Nat × Bitmap)
  releases : Nat
  deriving DecidableEq

namespace Row

def count (row : Row) : Nat :=
  row.slots.countP Option.isSome

/-- A frame as it is seen. The bits that stand for no slot are set. -/
structure Shows (geometry : Geometry) (row : Row) (seen : Nat × Bitmap) : Prop where
  number : seen.1 = row.number
  words : seen.2.length = geometry.bitmapWords
  bits : ∀ index, index < 64 * geometry.bitmapWords → (seen.2.has index = true ↔ row.slots[index]? ≠ some none)

theorem Shows.unique {geometry : Geometry} {row : Row} {seen other : Nat × Bitmap}
    (shows : Shows geometry row seen) (again : Shows geometry row other) : seen = other := by
  apply Prod.ext (shows.number.trans again.number.symm)
  apply Bitmap.eq_of_has (shows.words.trans again.words.symm)
  intro index inside
  rw [shows.words] at inside
  rw [Bool.eq_iff_iff, shows.bits index inside, again.bits index inside]

end Row

namespace Rack

structure Shows (geometry : Geometry) (rack : Rack) (outlook : Outlook) : Prop where
  frameCount : outlook.frameCount = rack.rows.length
  liveSlots : outlook.liveSlots = some (rack.rows.map Row.count).sum
  bitmaps : List.Forall₂ (Row.Shows geometry) rack.rows outlook.bitmaps
  releases : outlook.releases = rack.releases

theorem Shows.unique {geometry : Geometry} {rack : Rack} {outlook other : Outlook}
    (shows : Shows geometry rack outlook) (again : Shows geometry rack other) : outlook = other := by
  have single : Relator.RightUnique (Row.Shows geometry) := fun _ _ _ first second => first.unique second
  apply Outlook.ext
  · exact shows.frameCount.trans again.frameCount.symm
  · exact shows.liveSlots.trans again.liveSlots.symm
  · exact List.right_unique_forall₂' single shows.bitmaps again.bitmaps
  · exact shows.releases.trans again.releases.symm

/-- What a pool is asked, how it answers and what it looks like then. -/
structure Entry where
  ask : Ask
  reply : Reply
  outlook : Outlook
  deriving DecidableEq

inductive Follows (make : Make) : Rack → List Entry → Prop
  | nil {rack : Rack} : Follows make rack []
  | cons {rack : Rack} {ask : Ask} {outlook : Outlook} {entries : List Entry}
    (shows : Shows make.geometry (serve make rack ask).2 outlook)
    (rest : Follows make (serve make rack ask).2 entries) :
    Follows make rack (⟨ask, (serve make rack ask).1, outlook⟩ :: entries)

theorem Follows.unique {make : Make} {rack : Rack} {entries others : List Entry}
    (follows : Follows make rack entries) (again : Follows make rack others)
    (same : entries.map Entry.ask = others.map Entry.ask) : entries = others := by
  induction follows generalizing others with
  | nil =>
    rw [List.map_nil, eq_comm, List.map_eq_nil_iff] at same
    exact same.symm
  | cons shows rest ih =>
    cases again with
    | nil => cases same
    | cons shows' rest' =>
      obtain ⟨rfl, later⟩ := List.cons.inj same
      rw [shows.unique shows', ih rest' later]

end Rack

namespace Pool

variable {pool : Pool} {memory : Memory} {names : Names} {base : Addr}

/-- What is seen of a pool when its frames go by these names. -/
def outlook (names : Names) (pool : Pool) (memory : Memory) : Outlook where
  frameCount := pool.frameCount
  liveSlots := (pool.liveSlots memory).toOption
  bitmaps := ((pool.frames.nodes memory).toOption.getD []).map fun base =>
    (names.number base, Frame.bitmap pool.geometry (memory.block base))
  releases := pool.releases

private theorem row_shows (names : Names) {geometry : Geometry} {block : Block}
    (found : memory.find? base = some block) (frame : Frame.Valid geometry block) :
    (names.row geometry (shelf geometry memory base)).Shows geometry
      (names.number base, Frame.bitmap geometry (memory.block base)) := by
  constructor
  case number => rfl
  case words => exact Frame.length_bitmap ..
  case bits =>
    intro index tracked
    rw [Memory.block_eq found, Names.row]
    by_cases inside : index < geometry.slots
    · have used : index ∈ (shelf geometry memory base).taken ↔
          (Frame.bitmap geometry block).has index = true := by
        rw [shelf, List.mem_toFinset, Memory.block_eq found, Frame.mem_taken, and_iff_right inside]
      rw [List.getElem?_map, List.getElem?_range inside, Option.map_some, ← used]
      by_cases taken : index ∈ (shelf geometry memory base).taken <;> simp [taken]
    · have beyond := Nat.le_of_not_lt inside
      rw [List.getElem?_eq_none (by simpa using beyond)]
      exact iff_of_true (frame.padding index beyond tracked) (Option.some_ne_none _).symm

private theorem count_row (names : Names) (geometry : Geometry) (memory : Memory) (base : Addr) :
    (names.row geometry (shelf geometry memory base)).count = (slotsAt geometry memory base).length := by
  rw [slotsAt, List.length_map, Frame.taken, ← List.countP_eq_length_filter, Row.count,
    Names.row, List.countP_map]
  apply List.countP_congr
  intro index listed
  have inside := List.mem_range.mp listed
  have used : index ∈ (shelf geometry memory base).taken ↔
      (Frame.bitmap geometry (memory.block base)).has index = true := by
    rw [shelf, List.mem_toFinset, Frame.mem_taken, and_iff_right inside]
  rw [Function.comp_apply, ← used]
  by_cases taken : index ∈ (shelf geometry memory base).taken <;> simp [taken]

/-- A pool looks like its frames without their addresses. -/
theorem Valid.shows (valid : pool.Valid memory) (counts : pool.liveSlots memory = .ok (pool.live memory).length)
    (names : Names) :
    (names.rack pool.geometry (pool.stock memory)).Shows pool.geometry (pool.outlook names memory) := by
  obtain ⟨nodes, lists, order⟩ := valid.lists
  have rows : (names.rack pool.geometry (pool.stock memory)).rows =
      nodes.map fun base => names.row pool.geometry (shelf pool.geometry memory base) := by
    rw [Names.rack, shelves_eq lists, List.map_map]
    rfl
  constructor
  case frameCount => rw [outlook, valid.frameCount_eq, rows, shelves_eq lists, List.length_map, List.length_map]
  case liveSlots =>
    have counted : (nodes.map fun base => (slotsAt pool.geometry memory base).length).sum =
        (pool.live memory).length := by
      rw [live, List.length_flatMap, (order.map _).sum_nat]
    rw [outlook, counts, rows, List.map_map, ← counted]
    exact congrArg (some <| List.sum ·)
      (List.map_congr_left fun base _ => (count_row names pool.geometry memory base).symm)
  case bitmaps =>
    rw [outlook, lists.nodes_ok, rows, List.forall₂_map_left_iff]
    apply List.forall₂_map_right_iff.mpr
    apply List.forall₂_same.mpr
    intro base member
    obtain ⟨block, found, frame⟩ := valid.frames base (order.mem_iff.mp member)
    exact row_shows names found frame
  case releases => rfl

end Pool
end SlabAllocator
