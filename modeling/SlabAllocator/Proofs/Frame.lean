import SlabAllocator.Frame
import SlabAllocator.Proofs.Bitmap
import SlabAllocator.Proofs.Block
import SlabAllocator.Proofs.Geometry
import Mathlib.Data.List.Basic

/-! A frame whose bitmap and count agree. Taking and giving back a slot keep it so, and
write nothing but the count and the bitmap. -/

namespace SlabAllocator

namespace Geometry

def start (geometry : Geometry) (index : Nat) : Nat :=
  geometry.slotsOffset + index * geometry.entitySize

variable {geometry : Geometry}

theorem within (geometry : Geometry) {index : Nat} (inside : index < geometry.slots) :
    geometry.start index + geometry.entitySize ≤ geometry.slotsOffset + geometry.slots * geometry.entitySize := by
  have last : (index + 1) * geometry.entitySize ≤ geometry.slots * geometry.entitySize :=
    Nat.mul_le_mul_right _ inside
  rw [Nat.succ_mul] at last
  unfold start
  omega

theorem Sound.start_injective (sound : geometry.Sound) {first second : Nat}
    (same : geometry.start first = geometry.start second) : first = second :=
  Nat.eq_of_mul_eq_mul_right sound.sized (Nat.add_left_cancel same)

theorem Sound.slots_le (sound : geometry.Sound) : geometry.slots ≤ 64 * geometry.bitmapWords := by
  rw [sound.tracked, Bitmap.wordsFor, Bitmap.wordBits]
  omega

end Geometry

namespace Frame

variable {geometry : Geometry} {frame changed : Block}

def taken (geometry : Geometry) (frame : Block) : List Nat :=
  (List.range geometry.slots).filter fun index => (bitmap geometry frame).has index

structure Valid (geometry : Geometry) (frame : Block) : Prop where
  long : geometry.frameLen ≤ frame.len
  entitySize : entitySize frame = geometry.entitySize
  slots : slots frame = geometry.slots
  /-- The bits past the last slot are set, so that no search finds them. -/
  padding : ∀ i, geometry.slots ≤ i → i < 64 * geometry.bitmapWords → (bitmap geometry frame).has i = true
  occupied : occupied frame = (taken geometry frame).length

theorem mem_taken {index : Nat} :
    index ∈ taken geometry frame ↔ index < geometry.slots ∧ (bitmap geometry frame).has index = true := by
  simp [taken]

theorem nodup_taken (geometry : Geometry) (frame : Block) : (taken geometry frame).Nodup :=
  List.nodup_range.filter _

theorem length_taken_le (geometry : Geometry) (frame : Block) :
    (taken geometry frame).length ≤ geometry.slots := by
  have short := List.length_filter_le (fun index => (bitmap geometry frame).has index) (List.range geometry.slots)
  rwa [List.length_range] at short

@[simp] theorem length_bitmap (geometry : Geometry) (frame : Block) :
    (bitmap geometry frame).length = geometry.bitmapWords := by
  simp [bitmap, Block.words]

/-- What a frame says of itself lies between its links and its slots. -/
theorem bitmap_eq {low high : Nat} (beside : Block.Beside low high frame changed)
    (outside : high ≤ 40 ∨ 40 + 8 * geometry.bitmapWords ≤ low) :
    bitmap geometry changed = bitmap geometry frame := by
  rw [bitmap, bitmap, beside.words (by unfold Geometry.headerSize; omega)]

theorem taken_eq (same : bitmap geometry changed = bitmap geometry frame) :
    taken geometry changed = taken geometry frame := by
  rw [taken, taken, same]

theorem Valid.beside (valid : Valid geometry frame) {low high : Nat}
    (beside : Block.Beside low high frame changed) (outside : high ≤ 16 ∨ 40 + 8 * geometry.bitmapWords ≤ low) :
    Valid geometry changed := by
  have same : bitmap geometry changed = bitmap geometry frame := bitmap_eq beside (by omega)
  have payload : ∀ i, i < 3 → Node.payload changed i = Node.payload frame i := fun i inside =>
    beside.word (by unfold Node.payloadOffset; omega)
  exact {
    long := by rw [beside.len]; exact valid.long
    entitySize := (payload 0 (by decide)).trans valid.entitySize
    slots := (payload 1 (by decide)).trans valid.slots
    padding := by rw [same]; exact valid.padding
    occupied := by rw [taken_eq same]; exact (payload 2 (by decide)).trans valid.occupied }

private theorem bitmap_setBitmap (sound : geometry.Sound) (long : geometry.frameLen ≤ frame.len) {words : Bitmap}
    (sized : words.length = geometry.bitmapWords) : bitmap geometry (setBitmap words frame) = words := by
  have room := sound.room
  have header := sound.header
  have read := Block.words_setWords frame Geometry.headerSize (words.map UInt64.toNat)
    (by rw [List.length_map]; omega) (fun value member => by
      obtain ⟨word, -, rfl⟩ := List.mem_map.mp member
      exact word.toNat_lt)
  rw [List.length_map, sized] at read
  rw [bitmap, setBitmap, read, Bitmap.map_toNat_toUInt64]

theorem setBitmap_beside {words : Bitmap} (sized : words.length = geometry.bitmapWords) (frame : Block) :
    Block.Beside 40 (40 + 8 * geometry.bitmapWords) frame (setBitmap words frame) := by
  have beside := Block.Beside.setWords frame Geometry.headerSize (words.map UInt64.toNat)
  rwa [List.length_map, sized] at beside

theorem occupied_setBitmap (words : Bitmap) (frame : Block) : occupied (setBitmap words frame) = occupied frame :=
  Block.word_setWords_of_apart 40 32 (.inl (Nat.le_refl 40))

theorem setOccupied_beside (count : Nat) (frame : Block) : Block.Beside 32 40 frame (setOccupied count frame) :=
  Block.Beside.setWord frame 32 count

private theorem Valid.mark (sound : geometry.Sound) (valid : Valid geometry frame) (words : Bitmap) (count : Nat)
    (sized : words.length = geometry.bitmapWords)
    (padding : ∀ i, geometry.slots ≤ i → i < 64 * geometry.bitmapWords → words.has i = true)
    (counted : count = ((List.range geometry.slots).filter fun index => words.has index).length) :
    Valid geometry (setOccupied count (setBitmap words frame)) ∧
      taken geometry (setOccupied count (setBitmap words frame)) =
        (List.range geometry.slots).filter (fun index => words.has index) ∧
      Block.Beside 32 (40 + 8 * geometry.bitmapWords) frame (setOccupied count (setBitmap words frame)) := by
  have first := setBitmap_beside sized frame
  have second := setOccupied_beside count (setBitmap words frame)
  have stored : bitmap geometry (setOccupied count (setBitmap words frame)) = words :=
    (bitmap_eq second (by omega)).trans (bitmap_setBitmap sound valid.long sized)
  have marked : taken geometry (setOccupied count (setBitmap words frame)) =
      (List.range geometry.slots).filter (fun index => words.has index) := by
    rw [taken, stored]
  have payload : ∀ i, i < 2 →
      Node.payload (setOccupied count (setBitmap words frame)) i = Node.payload frame i := fun i inside =>
    (second.word (by unfold Node.payloadOffset; omega)).trans (first.word (by unfold Node.payloadOffset; omega))
  have room := sound.room
  have header := sound.header
  have long := valid.long
  have few := sound.few
  refine ⟨?_, marked, (first.widen (by omega) (by omega)).trans (second.widen (by omega) (by omega))⟩
  exact {
    long := valid.long
    entitySize := (payload 0 (by decide)).trans valid.entitySize
    slots := (payload 1 (by decide)).trans valid.slots
    padding := by rw [stored]; exact padding
    occupied := by
      rw [marked, ← counted]
      refine Block.word_setWord (setBitmap words frame) 32 ?_ ?_
      · change 40 ≤ frame.len
        unfold Geometry.headerSize at header
        omega
      · have short := List.length_filter_le (fun index => words.has index) (List.range geometry.slots)
        rw [List.length_range] at short
        unfold Geometry.mostSlots at few
        omega }

theorem slotAt_ok (sound : geometry.Sound) {index : Nat} (inside : index < geometry.slots) :
    slotAt geometry index = .ok (geometry.start index) := by
  have within := geometry.within inside
  have room := sound.room
  have small := sound.small
  unfold Geometry.start at within ⊢
  rw [slotAt, Size.mul_ok (by omega), checked_bind, Size.add_ok (by omega)]

theorem takeSlot_full (valid : Valid geometry frame) (full : (taken geometry frame).length = geometry.slots) :
    takeSlot geometry frame = .ok none := by
  rw [takeSlot, if_pos (by rw [valid.occupied, valid.slots, full])]
  rfl

theorem takeSlot_free (sound : geometry.Sound) (valid : Valid geometry frame)
    (free : (taken geometry frame).length < geometry.slots) :
    ∃ index changed, takeSlot geometry frame = .ok (some (geometry.start index, changed)) ∧
      index < geometry.slots ∧ index ∉ taken geometry frame ∧ (∀ i, i < index → i ∈ taken geometry frame) ∧
      Valid geometry changed ∧ (taken geometry changed).Perm (index :: taken geometry frame) ∧
      Block.Beside 32 (40 + 8 * geometry.bitmapWords) frame changed := by
  have reach := sound.slots_le
  have some_clear : ¬ ∀ j, j < 64 * (bitmap geometry frame).length → (bitmap geometry frame).has j = true := by
    intro all
    rw [length_bitmap] at all
    have whole : taken geometry frame = List.range geometry.slots :=
      List.filter_eq_self.mpr fun index member => all index (by have := List.mem_range.mp member; omega)
    rw [whole, List.length_range] at free
    omega
  rcases Bitmap.firstFree_spec (bitmap geometry frame) with ⟨index, found, within, clear, below⟩ | ⟨-, all⟩
  case inr => exact absurd all some_clear
  rw [length_bitmap] at within
  have inside : index < geometry.slots := by
    by_contra beyond
    have padded := valid.padding index (by omega) within
    rw [clear] at padded
    cases padded
  obtain ⟨words, set, sized, marks⟩ := Bitmap.set_ok (bitmap geometry frame) index
    (by rw [length_bitmap]; exact within)
  rw [length_bitmap] at sized
  have absent : index ∉ taken geometry frame := fun member => by
    have present := (mem_taken.mp member).2
    rw [clear] at present
    cases present
  have gained : ((List.range geometry.slots).filter fun i => words.has i).Perm
      (index :: taken geometry frame) := by
    refine (List.perm_ext_iff_of_nodup (List.nodup_range.filter _)
      (List.nodup_cons.mpr ⟨absent, nodup_taken geometry frame⟩)).mpr fun i => ?_
    simp only [List.mem_filter, List.mem_range, marks, Bool.or_eq_true, beq_iff_eq, List.mem_cons, mem_taken]
    constructor
    · rintro ⟨low, present | rfl⟩
      · exact .inr ⟨low, present⟩
      · exact .inl rfl
    · rintro (rfl | ⟨low, present⟩)
      · exact ⟨inside, .inr rfl⟩
      · exact ⟨low, .inl present⟩
  obtain ⟨valid', marked, beside⟩ := valid.mark sound words ((taken geometry frame).length + 1)
    sized (fun i high low => by rw [marks, valid.padding i high low]; rfl) gained.length_eq.symm
  refine ⟨index, _, ?_, inside, absent, fun i less => mem_taken.mpr ⟨by omega, below i less⟩, valid',
    by rw [marked]; exact gained, beside⟩
  have small := sound.few
  have few : (taken geometry frame).length + 1 < Size.bound := by
    have bound : Size.bound = 18446744073709551616 := rfl
    have most : Geometry.mostSlots = 512 := rfl
    omega
  rw [takeSlot]
  simp only [valid.occupied, valid.slots, if_neg (Nat.ne_of_lt free), found, checked_bind, set, Size.add_ok few,
    slotAt_ok sound inside, checked_pure]

theorem giveBack_ok (sound : geometry.Sound) (valid : Valid geometry frame) {index : Nat}
    (member : index ∈ taken geometry frame) :
    ∃ changed, giveBack geometry frame (geometry.start index) = .ok changed ∧ Valid geometry changed ∧
      (taken geometry frame).Perm (index :: taken geometry changed) ∧
      Block.Beside 32 (40 + 8 * geometry.bitmapWords) frame changed := by
  obtain ⟨inside, present⟩ := mem_taken.mp member
  have reach := sound.slots_le
  have within : index < 64 * (bitmap geometry frame).length := by rw [length_bitmap]; omega
  obtain ⟨words, cleared, sized, marks⟩ := Bitmap.clear_ok within
  rw [length_bitmap] at sized
  have lost : (taken geometry frame).Perm (index :: (List.range geometry.slots).filter fun i => words.has i) := by
    refine (List.perm_ext_iff_of_nodup (nodup_taken geometry frame)
      (List.nodup_cons.mpr ⟨fun again => ?_, List.nodup_range.filter _⟩)).mpr fun i => ?_
    · have still := (List.mem_filter.mp again).2
      rw [marks, bne_self_eq_false, Bool.and_false] at still
      cases still
    · simp only [List.mem_filter, List.mem_range, marks, Bool.and_eq_true, bne_iff_ne, List.mem_cons, mem_taken]
      constructor
      · rintro ⟨low, has⟩
        by_cases same : i = index
        · exact .inl same
        · exact .inr ⟨low, has, same⟩
      · rintro (rfl | ⟨low, has, -⟩)
        · exact ⟨inside, present⟩
        · exact ⟨low, has⟩
  have count := lost.length_eq
  rw [List.length_cons] at count
  obtain ⟨valid', marked, beside⟩ := valid.mark sound words ((taken geometry frame).length - 1)
    sized (fun i high low => by
      rw [marks, valid.padding i high low, bne_iff_ne.mpr (by omega)]; rfl) (by omega)
  refine ⟨_, ?_, valid', by rw [marked]; exact lost, beside⟩
  have past : geometry.start index - geometry.slotsOffset = index * geometry.entitySize := by
    unfold Geometry.start; omega
  have low : geometry.slotsOffset ≤ geometry.start index := Nat.le_add_right ..
  have exact_slot : index * geometry.entitySize / geometry.entitySize = index := Nat.mul_div_cancel _ sound.sized
  simp only [giveBack, valid.entitySize, valid.slots, beq_self_eq_true, expect_true, checked_bind,
    decide_eq_true low, Size.sub_ok low, past, Size.div_ok sound.sized, exact_slot, Size.rem_ok sound.sized,
    Nat.mul_mod_left, decide_eq_true inside, Bitmap.isSet_ok within, present, cleared,
    occupied_setBitmap, valid.occupied, Size.sub_ok (a := (taken geometry frame).length) (b := 1)
      (by omega), checked_pure]

/-- Nothing but a slot that is taken can be given back. -/
theorem giveBack_refused (sound : geometry.Sound) (valid : Valid geometry frame) {offset : Nat}
    (free : ∀ index ∈ taken geometry frame, offset ≠ geometry.start index) :
    giveBack geometry frame offset = .error .violated := by
  have reach := sound.slots_le
  simp only [giveBack, valid.entitySize, valid.slots, beq_self_eq_true, expect_true]
  -- One case for each check, in the order of the checks.
  by_cases low : geometry.slotsOffset ≤ offset
  case neg => simp only [decide_eq_false low, expect_false]
  simp only [decide_eq_true low, expect_true, checked_bind, Size.sub_ok low, Size.div_ok sound.sized,
    Size.rem_ok sound.sized]
  generalize past : offset - geometry.slotsOffset = distance
  by_cases whole : distance % geometry.entitySize = 0
  case neg => simp only [beq_eq_false_iff_ne.mpr whole, expect_false]
  simp only [whole, beq_self_eq_true, expect_true]
  by_cases inside : distance / geometry.entitySize < geometry.slots
  case neg => simp only [decide_eq_false inside, expect_false]
  have start : offset = geometry.start (distance / geometry.entitySize) := by
    have exact_slot := Nat.div_mul_cancel (Nat.dvd_of_mod_eq_zero whole)
    unfold Geometry.start
    omega
  have clear : (bitmap geometry frame).has (distance / geometry.entitySize) = false := by
    by_contra set
    exact free _ (mem_taken.mpr ⟨inside, eq_true_of_ne_false set⟩) start
  have within : distance / geometry.entitySize < 64 * (bitmap geometry frame).length := by
    rw [length_bitmap]
    omega
  simp only [decide_eq_true inside, expect_true, checked_bind, Bitmap.isSet_ok within, clear, expect_false]

/-- A written header and a reset bitmap make an empty frame out of any block that is long enough. -/
theorem reset_ok (sound : geometry.Sound) (long : geometry.frameLen ≤ frame.len)
    (header : ∀ i (inside : i < 3), Node.payload frame i = (Frame.header geometry)[i]) :
    Valid geometry (reset geometry frame) ∧ taken geometry (reset geometry frame) = [] ∧
      Block.Beside 40 (40 + 8 * geometry.bitmapWords) frame (reset geometry frame) := by
  have sized : ((bitmap geometry frame).reset geometry.slots).length = geometry.bitmapWords := by simp
  have beside := setBitmap_beside sized frame
  have stored := bitmap_setBitmap sound long sized
  have payload : ∀ i, i < 3 → Node.payload (reset geometry frame) i = Node.payload frame i := fun i inside =>
    beside.word (by unfold Node.payloadOffset; omega)
  have reach := sound.slots_le
  have none : taken geometry (reset geometry frame) = [] := by
    rw [taken, reset, stored]
    refine List.filter_eq_nil_iff.mpr fun index member => ?_
    have inside := List.mem_range.mp member
    rw [Bitmap.has_reset (by rw [length_bitmap]; omega), decide_eq_false (by omega)]
    exact Bool.false_ne_true
  refine ⟨?_, none, beside⟩
  exact {
    long
    entitySize := (payload 0 (by decide)).trans (header 0 (by decide))
    slots := (payload 1 (by decide)).trans (header 1 (by decide))
    padding := fun i high low => by
      rw [reset, stored, Bitmap.has_reset (by rw [length_bitmap]; exact low), decide_eq_true high]
    occupied := by rw [none]; exact (payload 2 (by decide)).trans (header 2 (by decide)) }

end Frame
end SlabAllocator
