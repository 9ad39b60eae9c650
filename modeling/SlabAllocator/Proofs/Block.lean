import SlabAllocator.Memory
import SlabAllocator.Proofs.Bytes

/-! Blocks word by word. A word survives every write beside it, and words written together
are read back one by one. -/

namespace SlabAllocator.Block

@[simp] theorem write_len (block : Block) (offset : Nat) (bytes : List UInt8) :
    (block.write offset bytes).len = block.len := rfl

@[simp] theorem write_hosted (block : Block) (offset : Nat) (bytes : List UInt8) :
    (block.write offset bytes).hosted = block.hosted := rfl

@[simp] theorem setWord_len (block : Block) (offset value : Nat) :
    (block.setWord offset value).len = block.len := rfl

@[simp] theorem setWord_hosted (block : Block) (offset value : Nat) :
    (block.setWord offset value).hosted = block.hosted := rfl

@[simp] theorem setWords_len (block : Block) (offset : Nat) (values : List Nat) :
    (block.setWords offset values).len = block.len := rfl

@[simp] theorem setWords_hosted (block : Block) (offset : Nat) (values : List Nat) :
    (block.setWords offset values).hosted = block.hosted := rfl

@[simp] theorem resize_len (block : Block) (len : Nat) : (block.resize len).len = len := rfl

@[simp] theorem resize_hosted (block : Block) (len : Nat) :
    (block.resize len).hosted = block.hosted := rfl

def byte (block : Block) (i : Nat) : UInt8 :=
  block.content.get i

theorem byte_write (block : Block) (offset i : Nat) (bytes : List UInt8) :
    (block.write offset bytes).byte i =
      if offset ≤ i ∧ i < offset + bytes.length ∧ i < block.len then bytes.getD (i - offset) 0
      else block.byte i := by
  simp only [byte, write, Bytes.get_setAll, List.length_take]
  by_cases inside : offset ≤ i ∧ i < offset + bytes.length ∧ i < block.len
  · rw [if_pos inside, if_pos (by omega), List.getD_eq_getElem?_getD, List.getD_eq_getElem?_getD,
      List.getElem?_take_of_lt (by omega)]
  · rw [if_neg inside, if_neg (by omega)]

theorem byte_write_of_outside {block : Block} {offset i : Nat} {bytes : List UInt8}
    (outside : i < offset ∨ offset + bytes.length ≤ i) :
    (block.write offset bytes).byte i = block.byte i := by
  rw [byte_write, if_neg (by omega)]

theorem byte_resize (block : Block) {len i : Nat} (inside : i < len) :
    (block.resize len).byte i = block.byte i := by
  rw [byte, resize, Bytes.get_cut, if_pos inside, byte]

theorem read_eq (block : Block) {offset count : Nat} (inside : offset + count ≤ block.len) :
    block.read offset count = (List.range count).map fun k => block.byte (offset + k) := by
  rw [read, Bytes.slice_eq, Nat.min_eq_left (by omega)]
  rfl

theorem word_eq (block : Block) (offset : Nat) : block.word offset = numberAt block.byte offset 8 :=
  Bytes.word_eq ..

theorem word_congr {block other : Block} {offset : Nat}
    (same : ∀ k, k < 8 → other.byte (offset + k) = block.byte (offset + k)) :
    other.word offset = block.word offset := by
  rw [word_eq, word_eq]
  exact numberAt_congr same

theorem word_write_of_apart {block : Block} {offset at' : Nat} {bytes : List UInt8}
    (apart : at' + 8 ≤ offset ∨ offset + bytes.length ≤ at') :
    (block.write offset bytes).word at' = block.word at' :=
  word_congr fun _ _ => byte_write_of_outside (by omega)

theorem word_setWord (block : Block) (offset : Nat) {value : Nat} (fits : offset + 8 ≤ block.len)
    (small : value < 2 ^ 64) : (block.setWord offset value).word offset = value := by
  have written : ∀ k, k < 8 →
      (block.setWord offset value).byte (offset + k) = (toBytes 8 value).getD k 0 := by
    intro k inside
    rw [setWord, byte_write, if_pos (by rw [length_toBytes]; omega), Nat.add_sub_cancel_left]
  rw [word_eq, numberAt_toBytes written]
  exact Nat.mod_eq_of_lt small

theorem word_setWord_of_apart {block : Block} {offset at' value : Nat}
    (apart : at' + 8 ≤ offset ∨ offset + 8 ≤ at') :
    (block.setWord offset value).word at' = block.word at' :=
  word_write_of_apart (by rw [length_toBytes]; omega)

theorem length_flatMap_toBytes (values : List Nat) :
    (values.flatMap (toBytes 8)).length = 8 * values.length := by
  induction values with
  | nil => rfl
  | cons value rest ih =>
    simp only [List.flatMap_cons, List.length_append, length_toBytes, ih, List.length_cons]
    omega

private theorem getD_flatMap_toBytes (values : List Nat) {i k : Nat} (inside : k < 8) :
    (values.flatMap (toBytes 8)).getD (8 * i + k) 0 =
      (toBytes 8 (values.getD i 0)).getD k 0 ∨ values.length ≤ i := by
  induction values generalizing i with
  | nil => right; simp
  | cons value rest ih =>
    simp only [List.flatMap_cons, List.getD_eq_getElem?_getD, List.length_cons] at ih ⊢
    cases i with
    | zero =>
      left
      rw [List.getElem?_append_left (by rw [length_toBytes]; omega)]
      simp
    | succ i =>
      rw [List.getElem?_append_right (by rw [length_toBytes]; omega), length_toBytes,
        show 8 * (i + 1) + k - 8 = 8 * i + k by omega]
      rcases ih (i := i) with found | beyond
      · left; simpa using found
      · right; omega

theorem word_setWords {block : Block} {offset : Nat} {values : List Nat} {i : Nat}
    (fits : offset + 8 * values.length ≤ block.len) (inside : i < values.length)
    (small : values[i] < 2 ^ 64) : (block.setWords offset values).word (offset + 8 * i) = values[i] := by
  have written : ∀ k, k < 8 →
      (block.setWords offset values).byte (offset + 8 * i + k) = (toBytes 8 values[i]).getD k 0 := by
    intro k within
    rw [setWords, byte_write, if_pos (by rw [length_flatMap_toBytes]; omega),
      show offset + 8 * i + k - offset = 8 * i + k by omega]
    rcases getD_flatMap_toBytes values (i := i) within with found | beyond
    · rw [found, values.getD_eq_getElem?_getD, List.getElem?_eq_getElem inside]; rfl
    · omega
  rw [word_eq, numberAt_toBytes written]
  exact Nat.mod_eq_of_lt small

theorem word_setWords_of_apart {block : Block} (offset at' : Nat) {values : List Nat}
    (apart : at' + 8 ≤ offset ∨ offset + 8 * values.length ≤ at') :
    (block.setWords offset values).word at' = block.word at' :=
  word_write_of_apart (by rw [length_flatMap_toBytes]; omega)

theorem byte_setWords_of_outside {block : Block} {offset i : Nat} {values : List Nat}
    (outside : i < offset ∨ offset + 8 * values.length ≤ i) :
    (block.setWords offset values).byte i = block.byte i :=
  byte_write_of_outside (by rw [length_flatMap_toBytes]; omega)

theorem byte_setWord_of_outside {block : Block} {offset i value : Nat}
    (outside : i < offset ∨ offset + 8 ≤ i) :
    (block.setWord offset value).byte i = block.byte i :=
  byte_write_of_outside (by rw [length_toBytes]; omega)

theorem words_setWords (block : Block) (offset : Nat) (values : List Nat)
    (fits : offset + 8 * values.length ≤ block.len) (small : ∀ value ∈ values, value < 2 ^ 64) :
    (block.setWords offset values).words offset values.length = values := by
  apply List.ext_getElem
  · simp [words]
  · intro i left right
    simp only [words, List.getElem_map, List.getElem_range]
    exact word_setWords fits right (small _ (List.getElem_mem right))

theorem words_congr {block other : Block} {offset count : Nat}
    (same : ∀ i, i < count → other.word (offset + 8 * i) = block.word (offset + 8 * i)) :
    other.words offset count = block.words offset count :=
  List.map_congr_left fun i member => same i (List.mem_range.mp member)

/-- The second block differs from the first at most in its protection and in the bytes from
`low` up to `high`. -/
structure Beside (low high : Nat) (before after : Block) : Prop where
  len : after.len = before.len
  hosted : after.hosted = before.hosted
  byte : ∀ i, i < low ∨ high ≤ i → after.byte i = before.byte i

namespace Beside

variable {low high : Nat} {before middle after : Block}

theorem refl (low high : Nat) (block : Block) : Beside low high block block :=
  ⟨rfl, rfl, fun _ _ => rfl⟩

theorem widen (beside : Beside low high before after) {lower higher : Nat} (below : lower ≤ low)
    (above : high ≤ higher) : Beside lower higher before after :=
  ⟨beside.len, beside.hosted, fun i outside => beside.byte i (by omega)⟩

theorem trans (first : Beside low high before middle) (second : Beside low high middle after) :
    Beside low high before after :=
  ⟨second.len.trans first.len, second.hosted.trans first.hosted,
    fun i outside => (second.byte i outside).trans (first.byte i outside)⟩

theorem word (beside : Beside low high before after) {offset : Nat} (outside : offset + 8 ≤ low ∨ high ≤ offset) :
    after.word offset = before.word offset :=
  word_congr fun _ _ => beside.byte _ (by omega)

theorem words (beside : Beside low high before after) {offset count : Nat}
    (outside : offset + 8 * count ≤ low ∨ high ≤ offset) :
    after.words offset count = before.words offset count :=
  words_congr fun _ _ => beside.word (by omega)

theorem write (block : Block) (offset : Nat) (bytes : List UInt8) :
    Beside offset (offset + bytes.length) block (block.write offset bytes) :=
  ⟨rfl, rfl, fun _ outside => byte_write_of_outside outside⟩

theorem setWord (block : Block) (offset value : Nat) :
    Beside offset (offset + 8) block (block.setWord offset value) :=
  ⟨rfl, rfl, fun _ outside => byte_setWord_of_outside outside⟩

theorem setWords (block : Block) (offset : Nat) (values : List Nat) :
    Beside offset (offset + 8 * values.length) block (block.setWords offset values) :=
  ⟨rfl, rfl, fun _ outside => byte_setWords_of_outside outside⟩

end Beside
end SlabAllocator.Block
