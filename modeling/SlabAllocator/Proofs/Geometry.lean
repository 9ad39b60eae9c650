import Mathlib.Algebra.Order.Floor.Div
import Mathlib.Order.Bounds.Basic
import SlabAllocator.Geometry
import SlabAllocator.Proofs.Size

/-! A geometry lays header, bitmap and slots out behind each other, with room for at least
one slot. The bitmap grows with the slots, so that their number is found by a search; it
ends at the greatest number for which there is room. -/

namespace SlabAllocator.Geometry

/-- What a pool relies on in each of its frames. -/
structure Sound (geometry : Geometry) : Prop where
  sized : 0 < geometry.entitySize
  inhabited : 0 < geometry.slots
  few : geometry.slots ≤ mostSlots
  tracked : geometry.bitmapWords = Bitmap.wordsFor geometry.slots
  header : headerSize + 8 * geometry.bitmapWords ≤ geometry.slotsOffset
  aligned : slotAlign ∣ geometry.slotsOffset
  room : geometry.slotsOffset + geometry.slots * geometry.entitySize ≤ geometry.frameLen
  small : geometry.frameLen < Size.bound

theorem Sound.frameLen_pos {geometry : Geometry} (sound : geometry.Sound) : 0 < geometry.frameLen := by
  have header : 0 < headerSize := by decide
  have fits := sound.header
  have room := sound.room
  omega

/-- Where the first of `slots` slots starts, when none of the steps overflows. -/
def slotsOffsetOf (slots : Nat) : Nat :=
  (headerSize + Bitmap.wordsFor slots * 8 + slotAlign - 1) / slotAlign * slotAlign

private theorem slotsOffsetFor_ok {slots : Nat} (few : slots ≤ mostSlots) :
    slotsOffsetFor slots = .ok (slotsOffsetOf slots) := by
  have words : Bitmap.wordsFor slots ≤ 8 := by
    unfold Bitmap.wordsFor Bitmap.wordBits mostSlots at *
    omega
  have size : Size.bound = 18446744073709551616 := rfl
  have header : headerSize = 40 := rfl
  have align : slotAlign = 16 := rfl
  simp only [slotsOffsetFor, Size.mul_ok (a := Bitmap.wordsFor slots) (b := 8) (by omega), checked_bind,
    Size.add_ok (a := headerSize) (b := Bitmap.wordsFor slots * 8) (by omega)]
  exact Size.roundUp_ok (by decide) (by omega)

private theorem le_slotsOffsetOf (slots : Nat) :
    headerSize + 8 * Bitmap.wordsFor slots ≤ slotsOffsetOf slots := by
  have above := (Size.ceil_bounds (n := headerSize + Bitmap.wordsFor slots * 8) (show 0 < slotAlign by decide)).1
  unfold slotsOffsetOf
  omega

private theorem slotsOffsetOf_le {slots : Nat} (few : slots ≤ mostSlots) : slotsOffsetOf slots ≤ 112 := by
  unfold slotsOffsetOf Bitmap.wordsFor Bitmap.wordBits headerSize slotAlign mostSlots at *
  omega

private theorem footprint_ok {slots : Nat} (few : slots ≤ mostSlots) (entitySize : Nat) :
    footprint slots entitySize =
      .ok (if slots * entitySize + slotsOffsetOf slots < Size.bound
        then some (slots * entitySize + slotsOffsetOf slots) else none) := by
  rw [footprint, Size.mul?]
  by_cases fits : slots * entitySize < Size.bound
  · simp only [if_pos fits, slotsOffsetFor_ok few, checked_bind, checked_pure, Size.add?]
  · rw [if_neg fits, if_neg (by omega)]
    rfl

/-- The counts of slots that a frame has room for. -/
def capacities (entitySize frameLen : Nat) : Set Nat :=
  {slots | 0 < slots ∧ slots ≤ mostSlots ∧
    ∃ offset, slotsOffsetFor slots = .ok offset ∧ slots * entitySize + offset ≤ frameLen}

theorem mem_capacities {entitySize frameLen slots : Nat} :
    slots ∈ capacities entitySize frameLen ↔
      0 < slots ∧ slots ≤ mostSlots ∧ slots * entitySize + slotsOffsetOf slots ≤ frameLen := by
  refine and_congr_right fun _ => and_congr_right fun few => ?_
  simp [slotsOffsetFor_ok few]

/-- The search from `slots` down ends at the greatest count with room, provided that one slot has. -/
private theorem fitting_ok {entitySize frameLen : Nat} (one : 1 ∈ capacities entitySize frameLen) {slots : Nat}
    (inhabited : 0 < slots) (few : slots ≤ mostSlots)
    (small : ∀ count ≤ slots, count * entitySize + slotsOffsetOf count < Size.bound) :
    ∃ count, fitting entitySize frameLen slots = .ok (some count) ∧
      IsGreatest {count | count ∈ capacities entitySize frameLen ∧ count ≤ slots} count := by
  induction slots with
  | zero => omega
  | succ slots ih =>
    rw [fitting, footprint_ok few, if_pos (small _ (Nat.le_refl _))]
    simp only [checked_bind]
    by_cases fits : (slots + 1) * entitySize + slotsOffsetOf (slots + 1) ≤ frameLen
    · rw [if_pos fits]
      exact ⟨slots + 1, rfl, ⟨mem_capacities.mpr ⟨inhabited, few, fits⟩, Nat.le_refl _⟩, fun _ other => other.2⟩
    · rw [if_neg fits]
      have more : 0 < slots := by
        apply Nat.pos_of_ne_zero
        intro none
        subst none
        exact fits (mem_capacities.mp one).2.2
      obtain ⟨count, found, greatest⟩ :=
        ih more (by omega) fun count below => small count (by omega)
      refine ⟨count, found, ⟨greatest.1.1, Nat.le_succ_of_le greatest.1.2⟩, ?_⟩
      intro other room
      apply greatest.2
      refine ⟨room.1, Nat.le_of_lt_succ (Nat.lt_of_le_of_ne room.2 ?_)⟩
      intro same
      subst same
      exact fits (mem_capacities.mp room.1).2.2

/-- The bytes of the pages that one slot with its overhead spans. -/
def spanOf (entitySize pageSize : Nat) : Nat :=
  Size.without (entitySize + slotsOffsetOf 1 + (pageSize - 1)) (pageSize - 1)

private theorem one_mem_capacities {entitySize frameLen : Nat} :
    1 ∈ capacities entitySize frameLen ↔ entitySize + slotsOffsetOf 1 ≤ frameLen := by
  rw [mem_capacities, Nat.one_mul]
  exact ⟨fun one => one.2.2, fun room => ⟨Nat.one_pos, by decide, room⟩⟩

private theorem le_spanOf (entitySize pageSize : Nat) :
    entitySize + slotsOffsetOf 1 ≤ spanOf entitySize pageSize :=
  Size.le_without_add ..

/-- No count that the search tries has a footprint past the greatest size. Only frames that
end within the overhead of the last slots from there could have one, and a page size that
rounds to such a frame leaves room for a single slot. -/
private theorem footprint_lt {entitySize pageSize : Nat}
    (small : entitySize + slotsOffsetOf 1 + (pageSize - 1) < Size.bound) {count : Nat} (few : count ≤ mostSlots)
    (room : count * entitySize ≤ spanOf entitySize pageSize - headerSize) :
    count * entitySize + slotsOffsetOf count < Size.bound := by
  have spare : spanOf entitySize pageSize + (pageSize - 1) < Size.bound := Size.without_add_lt small (by omega)
  have below : spanOf entitySize pageSize ≤ entitySize + slotsOffsetOf 1 + (pageSize - 1) := Size.without_le ..
  have overhead : slotsOffsetOf count ≤ 112 := slotsOffsetOf_le few
  have first : slotsOffsetOf 1 = 48 := by decide
  have header : headerSize = 40 := rfl
  have size : Size.bound = 18446744073709551616 := rfl
  rcases count with _ | _ | count
  · omega
  · rw [Nat.zero_add, Nat.one_mul]
    omega
  · have two : 2 * entitySize ≤ (count + 1 + 1) * entitySize := Nat.mul_le_mul_right _ (by omega)
    omega

private theorem ofEntity_none {entitySize pageSize : Nat} (paged : 0 < pageSize)
    (large : entitySize = 0 ∨ Size.bound ≤ entitySize + slotsOffsetOf 1 + (pageSize - 1)) :
    ofEntity entitySize pageSize = .ok none := by
  unfold ofEntity
  by_cases empty : entitySize = 0
  · exact if_pos empty
  rw [if_neg empty, footprint_ok (by decide), Nat.one_mul]
  by_cases small : entitySize + slotsOffsetOf 1 < Size.bound
  · simp only [if_pos small, checked_bind, Size.roundUp?_eq paged, Size.add?]
    rw [if_neg (Nat.not_lt_of_le (large.resolve_left empty))]
    rfl
  · rw [if_neg small]
    rfl

private theorem ofEntity_some {entitySize pageSize : Nat} (paged : 0 < pageSize) (sized : 0 < entitySize)
    (small : entitySize + slotsOffsetOf 1 + (pageSize - 1) < Size.bound) :
    ∃ slots, IsGreatest (capacities entitySize (spanOf entitySize pageSize)) slots ∧
      ofEntity entitySize pageSize = .ok (some {
        entitySize, slots
        bitmapWords := Bitmap.wordsFor slots
        slotsOffset := slotsOffsetOf slots
        frameLen := spanOf entitySize pageSize }) := by
  unfold ofEntity
  rw [if_neg (Nat.ne_of_gt sized), footprint_ok (by decide), Nat.one_mul, if_pos (by omega)]
  have rounded : Size.roundUp? (entitySize + slotsOffsetOf 1) pageSize =
      .ok (some (spanOf entitySize pageSize)) := by
    rw [Size.roundUp?_eq paged, Size.add?, if_pos small]
    rfl
  simp only [checked_bind, rounded]
  have above := le_spanOf entitySize pageSize
  have header : headerSize ≤ slotsOffsetOf 1 := by decide
  rw [Size.sub_ok (by omega), checked_bind, Size.div_ok sized, checked_bind]
  have room : 1 ≤ (spanOf entitySize pageSize - headerSize) / entitySize :=
    (Nat.le_div_iff_mul_le sized).mpr (by omega)
  have few : min mostSlots ((spanOf entitySize pageSize - headerSize) / entitySize) ≤ mostSlots :=
    Nat.min_le_left ..
  obtain ⟨slots, found, greatest⟩ :=
    fitting_ok (one_mem_capacities.mpr above) (Nat.lt_min.mpr ⟨by decide, room⟩) few (by
      intro count below
      apply footprint_lt small (Nat.le_trans below few)
      exact (Nat.le_div_iff_mul_le sized).mp (Nat.le_trans below (Nat.min_le_right ..)))
  refine ⟨slots, ⟨greatest.1.1, ?_⟩, ?_⟩
  · intro other roomy
    obtain ⟨-, fewer, fits⟩ := mem_capacities.mp roomy
    apply greatest.2
    refine ⟨roomy, Nat.le_min.mpr ⟨fewer, (Nat.le_div_iff_mul_le sized).mpr ?_⟩⟩
    have overhead := le_slotsOffsetOf other
    omega
  · rw [found]
    simp only [checked_bind, slotsOffsetFor_ok (mem_capacities.mp greatest.1.1).2.1, checked_pure]

/-- Whatever the sizes, a geometry is refused or sound. -/
theorem ofEntity_spec (entitySize : Nat) {pageSize : Nat} (paged : 0 < pageSize) :
    ofEntity entitySize pageSize = .ok none ∨
      ∃ geometry, ofEntity entitySize pageSize = .ok (some geometry) ∧ geometry.Sound ∧
        geometry.entitySize = entitySize := by
  by_cases large : entitySize = 0 ∨ Size.bound ≤ entitySize + slotsOffsetOf 1 + (pageSize - 1)
  · exact .inl (ofEntity_none paged large)
  obtain ⟨sized, small⟩ := not_or.mp large
  obtain ⟨slots, greatest, found⟩ := ofEntity_some paged (Nat.pos_of_ne_zero sized) (by omega)
  obtain ⟨inhabited, few, fits⟩ := mem_capacities.mp greatest.1
  refine .inr ⟨_, found, ?_, rfl⟩
  exact {
    sized := Nat.pos_of_ne_zero sized
    inhabited
    few
    tracked := rfl
    header := le_slotsOffsetOf slots
    aligned := Nat.dvd_mul_left ..
    room := by
      rw [Nat.add_comm]
      exact fits
    small := Nat.lt_of_le_of_lt (Size.without_le ..) (Nat.lt_of_not_le small) }

/-- What a geometry for entities of a size and pages of a size promises: its parts follow each
other without overlap, and neither a slot more nor a shorter frame would do. -/
structure Tight (geometry : Geometry) (entitySize pageSize : Nat) : Prop where
  entity : geometry.entitySize = entitySize
  words : geometry.bitmapWords = geometry.slots ⌈/⌉ 64
  offset : slotsOffsetFor geometry.slots = .ok geometry.slotsOffset
  header : 40 + 8 * geometry.bitmapWords ≤ geometry.slotsOffset
  aligned : 16 ∣ geometry.slotsOffset
  room : geometry.slotsOffset + geometry.slots * entitySize ≤ geometry.frameLen
  most : IsGreatest (capacities entitySize geometry.frameLen) geometry.slots
  pages : Size.isPowerOfTwo pageSize = true →
    IsLeast {frameLen | pageSize ∣ frameLen ∧ 1 ∈ capacities entitySize frameLen} geometry.frameLen

private theorem isLeast_spanOf {entitySize pageSize : Nat} (power : Size.isPowerOfTwo pageSize = true) :
    IsLeast {frameLen | pageSize ∣ frameLen ∧ 1 ∈ capacities entitySize frameLen}
      (spanOf entitySize pageSize) := by
  have paged := Size.pos_of_isPowerOfTwo power
  have rounded : spanOf entitySize pageSize =
      (entitySize + slotsOffsetOf 1 + pageSize - 1) / pageSize * pageSize := by
    rw [spanOf, Size.without_mask power, Nat.add_sub_assoc paged]
  constructor
  · refine ⟨?_, one_mem_capacities.mpr (le_spanOf ..)⟩
    rw [rounded]
    exact Nat.dvd_mul_left ..
  · intro frameLen
    rintro ⟨⟨pages, rfl⟩, one⟩
    have room := one_mem_capacities.mp one
    rw [rounded, Nat.mul_comm pageSize pages]
    apply Nat.mul_le_mul_right
    apply Nat.le_of_lt_succ
    apply (Nat.div_lt_iff_lt_mul paged).mpr
    rw [Nat.succ_mul, Nat.mul_comm pages pageSize]
    omega

/-- Every page size gives a geometry for every size of entity, up to the sizes whose frames
would end past the greatest size. The search for its slots always ends, with as many of them as there is room for. -/
theorem ofEntity_tight (entitySize : Nat) {pageSize : Nat} (paged : 0 < pageSize) :
    ∃ result, ofEntity entitySize pageSize = .ok result ∧
      (result = none ↔ entitySize = 0 ∨ Size.bound ≤ entitySize + 48 + (pageSize - 1)) ∧
      ∀ geometry, result = some geometry → geometry.Tight entitySize pageSize := by
  change ∃ result, _ ∧ (_ ↔ entitySize = 0 ∨ Size.bound ≤ entitySize + slotsOffsetOf 1 + (pageSize - 1)) ∧ _
  by_cases large : entitySize = 0 ∨ Size.bound ≤ entitySize + slotsOffsetOf 1 + (pageSize - 1)
  · refine ⟨none, ofEntity_none paged large, by simp [large], ?_⟩
    intro geometry absent
    cases absent
  obtain ⟨sized, small⟩ := not_or.mp large
  obtain ⟨slots, greatest, found⟩ := ofEntity_some paged (Nat.pos_of_ne_zero sized) (by omega)
  obtain ⟨-, few, fits⟩ := mem_capacities.mp greatest.1
  refine ⟨_, found, by simp [large], ?_⟩
  intro geometry shaped
  cases shaped
  exact {
    entity := rfl
    words := (Nat.ceilDiv_eq_add_pred_div slots 64).symm
    offset := slotsOffsetFor_ok few
    header := le_slotsOffsetOf slots
    aligned := Nat.dvd_mul_left ..
    room := by
      rw [Nat.add_comm]
      exact fits
    most := greatest
    pages := isLeast_spanOf }

/-- Slots of twelve bytes leave four bytes of a page unused, fewer than one slot more would take. -/
theorem ofEntity_tight_page :
    0 < 4096 ∧ ofEntity 12 4096 = .ok (some ⟨12, 333, 6, 96, 4096⟩) ∧ Tight ⟨12, 333, 6, 96, 4096⟩ 12 4096 := by
  have shaped : ofEntity 12 4096 = .ok (some ⟨12, 333, 6, 96, 4096⟩) := by decide +kernel
  refine ⟨by decide, shaped, ?_⟩
  obtain ⟨result, found, -, tight⟩ := ofEntity_tight 12 (show 0 < 4096 by decide)
  rw [shaped] at found
  exact tight _ (Except.ok.inj found).symm

/-- The length of a frame is that of one slot with its overhead, in whole pages. -/
theorem rounded_of_ofEntity {entitySize pageSize : Nat} {geometry : Geometry}
    (found : ofEntity entitySize pageSize = .ok (some geometry)) :
    ∃ smallest, footprint 1 entitySize = .ok (some smallest) ∧
      Size.roundUp? smallest pageSize = .ok (some geometry.frameLen) := by
  unfold ofEntity at found
  split at found
  · cases found
  obtain ⟨smallest?, needed, found⟩ := checked_bind_eq_ok.mp found
  cases smallest? with
  | none => cases found
  | some smallest =>
    obtain ⟨frameLen?, rounded, found⟩ := checked_bind_eq_ok.mp found
    cases frameLen? with
    | none => cases found
    | some frameLen =>
      obtain ⟨room, -, found⟩ := checked_bind_eq_ok.mp found
      obtain ⟨free, -, found⟩ := checked_bind_eq_ok.mp found
      obtain ⟨slots?, -, found⟩ := checked_bind_eq_ok.mp found
      cases slots? with
      | none => cases found
      | some slots =>
        obtain ⟨offset, -, found⟩ := checked_bind_eq_ok.mp found
        cases found
        exact ⟨smallest, needed, rounded⟩

theorem pos_of_ofEntity {entitySize pageSize : Nat} {geometry : Geometry}
    (found : ofEntity entitySize pageSize = .ok (some geometry)) : 0 < pageSize := by
  rcases Nat.eq_zero_or_pos pageSize with rfl | positive
  · obtain ⟨smallest, -, rounded⟩ := rounded_of_ofEntity found
    cases rounded
  · exact positive

theorem dvd_frameLen {entitySize pageSize : Nat} {geometry : Geometry} (power : Size.isPowerOfTwo pageSize = true)
    (found : ofEntity entitySize pageSize = .ok (some geometry)) : pageSize ∣ geometry.frameLen := by
  obtain ⟨smallest, -, rounded⟩ := rounded_of_ofEntity found
  rw [Size.roundUp?_of_isPowerOfTwo power] at rounded
  split at rounded
  · rw [← Option.some.inj (Except.ok.inj rounded)]
    exact Nat.dvd_mul_left ..
  · cases rounded

end SlabAllocator.Geometry
