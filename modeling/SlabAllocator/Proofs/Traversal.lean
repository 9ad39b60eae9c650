import Mathlib.Order.Interval.Finset.Nat
import SlabAllocator.Proofs.Chain

/-! A chain as a sequence. Nodes are appended and removed in any order, each with a payload of its own, and at
any time the chain can be walked from either end: it passes the nodes that were appended and not removed
since, in the order in which they were appended. -/

namespace SlabAllocator

/-- Whether a node with this payload can be written: there is room for it, and its values are words. -/
structure Node.Fits (memory : Memory) (node : Addr) (payload : List Nat) : Prop where
  real : Node.Real (some node)
  room : ∃ block, memory.find? node = some block ∧ 16 + 8 * payload.length ≤ block.len
  words : ∀ value ∈ payload, value < 2 ^ 64

theorem Node.Fits.edited {memory written : Memory} {node : Addr} {payload : List Nat}
    (fits : Node.Fits memory node payload) {bases : List Nat} {low high : Nat}
    (edited : Memory.Edited bases low high memory written) : Node.Fits written node payload := by
  obtain ⟨block, found, long⟩ := fits.room
  obtain ⟨block', found', beside⟩ := edited.kept found
  exact ⟨fits.real, ⟨block', found', by rw [beside.len]; exact long⟩, fits.words⟩

/-- A walk of at most `count` steps: the nodes it passes, and where it stands then. -/
def Cursor.steps (memory : Memory) : (count : Nat) → Cursor → Checked (List Addr × Cursor)
  | 0, cursor => return ([], cursor)
  | count + 1, cursor => do
    let some (node, onward) ← cursor.next memory | return ([], cursor)
    let (nodes, last) ← steps memory count onward
    return (node :: nodes, last)

namespace Chain

def Path (link : Addr → Option Addr) (start : Option Addr) : List Addr → Prop
  | [] => start = none
  | node :: rest => start = some node ∧ Path link (link node) rest

variable {chain changed : Chain} {memory written : Memory} {nodes : List Addr} {node : Addr}
  {payload : List Nat} {entries : List (Addr × List Nat)} {before after : Option Addr}

theorem Segment.path_next (segment : Segment memory before nodes none) :
    Path (fun node => Node.next (memory.block node)) nodes.head? nodes := by
  induction nodes generalizing before with
  | nil => rfl
  | cons node rest ih =>
    obtain ⟨-, next, onward⟩ := segment
    rw [Option.or_none] at next
    refine ⟨rfl, ?_⟩
    beta_reduce
    rw [next]
    exact ih onward

theorem Segment.path_prev (segment : Segment memory none nodes after) :
    Path (fun node => Node.prev (memory.block node)) nodes.getLast? nodes.reverse := by
  induction nodes using List.reverseRecOn generalizing after with
  | nil => rfl
  | append_singleton nodes node ih =>
    obtain ⟨first, prev, -⟩ := Segment.append.mp segment
    rw [Option.or_none] at prev
    rw [List.getLast?_concat, List.reverse_concat]
    refine ⟨rfl, ?_⟩
    beta_reduce
    rw [prev]
    exact ih first

/-- A walk counts down the nodes ahead of it, and beyond the last one it stays. -/
theorem Segment.steps (segment : Segment memory before nodes none) (count : Nat) :
    Cursor.steps memory count ⟨nodes.head?, nodes.length⟩ =
      .ok (nodes.take count, ⟨(nodes.drop count).head?, nodes.length - count⟩) := by
  induction count generalizing nodes before with
  | zero => rfl
  | succ count ih =>
    cases nodes with
    | nil =>
      rw [List.take_nil, List.drop_nil, List.length_nil, Nat.zero_sub]
      rfl
    | cons node rest =>
      obtain ⟨-, next, onward⟩ := segment
      rw [Option.or_none] at next
      have moved : Cursor.next ⟨some node, rest.length + 1⟩ memory =
          .ok (some (node, ⟨rest.head?, rest.length⟩)) := by
        simp only [Cursor.next, next, Size.sub_ok (Nat.le_add_left 1 _), Nat.add_sub_cancel,
          checked_bind, checked_pure]
      simp only [List.head?_cons, List.length_cons, Cursor.steps, moved, checked_bind, ih onward, checked_pure,
        List.take_succ_cons, List.drop_succ_cons, Nat.add_sub_add_right]

namespace Lists

/-- There are fewer addresses than a length can count. -/
private theorem few (lists : Lists chain memory nodes) (fresh : node ∉ nodes) (real : Node.Real (some node)) :
    nodes.length + 1 < Size.bound := by
  have distinct : (node :: nodes).Nodup := List.nodup_cons.mpr ⟨fresh, lists.nodup⟩
  have addresses : (node :: nodes).toFinset ⊆ Finset.Ioo 0 Size.bound := by
    intro other member
    rw [List.mem_toFinset, List.mem_cons] at member
    rw [Finset.mem_Ioo]
    rcases member with rfl | old
    · exact real other rfl
    · exact (lists.ready other old).1 other rfl
  have count := Finset.card_le_card addresses
  rw [List.toFinset_card_of_nodup distinct, List.length_cons, Nat.card_Ioo] at count
  have positive : 0 < Size.bound := by decide
  omega

/-- Appending a node writes its payload and leaves that of every other node alone. -/
theorem append_fits (lists : Lists chain memory nodes) (fresh : node ∉ nodes)
    (fits : Node.Fits memory node payload) :
    ∃ changed written, chain.append memory node payload = .ok (changed, written) ∧
      Lists changed written (nodes ++ [node]) ∧
      (∀ i (inside : i < payload.length), Node.payload (written.block node) i = payload[i]) ∧
      (∀ other, other ≠ node → Block.Beside 0 Node.payloadOffset (memory.block other) (written.block other)) ∧
      ∀ other values, Node.Fits memory other values → Node.Fits written other values := by
  obtain ⟨block, found, long⟩ := fits.room
  obtain ⟨changed, written, appended, lists', edited⟩ :=
    lists.append_ok found fits.real fresh long fits.words (lists.few fresh fits.real)
  obtain ⟨-, -, values, wrote⟩ := Node.write_spec lists.tail_real long fits.words
  refine ⟨changed, written, appended, lists', fun i inside => ?_, fun other different => ?_,
    fun other values room => ?_⟩
  · have beside := edited.block node
    rw [Memory.block_update_self _ found] at beside
    exact (beside.word (.inr (by unfold Node.payloadOffset; omega))).trans (values i inside)
  · have beside := edited.block other
    rwa [Memory.block_update_of_ne _ different.symm] at beside
  · exact (room.edited (.update found wrote)).edited edited

end Lists

/-- Removing a node leaves every payload alone. -/
theorem Lists.remove_leaves (lists : Lists chain memory nodes) (member : node ∈ nodes) :
    ∃ changed unlinked, chain.remove memory node = .ok (changed, unlinked) ∧
      Lists changed unlinked (nodes.filter (· != node)) ∧
      (∀ other, Block.Beside 0 Node.payloadOffset (memory.block other) (unlinked.block other)) ∧
      ∀ other values, Node.Fits memory other values → Node.Fits unlinked other values := by
  obtain ⟨left, right, rfl⟩ := List.append_of_mem member
  obtain ⟨changed, unlinked, removed, lists', edited⟩ := lists.remove_ok
  have absent : node ∉ left := fun again =>
    List.disjoint_of_nodup_append lists.nodup again List.mem_cons_self
  have rest : (left ++ node :: right).filter (· != node) = left ++ right := by
    rw [← lists.nodup.erase_eq_filter, List.erase_append_right _ absent, List.erase_cons_head]
  exact ⟨changed, unlinked, removed, rest ▸ lists', edited.block, fun _ _ fits => fits.edited edited⟩

/-- A chain that began empty, the memory of its nodes, and the nodes with their payloads, after nodes were
appended and removed. One that was removed may have been appended again. -/
inductive Made (start : Memory) : Chain → Memory → List (Addr × List Nat) → Prop where
  | empty : Made start .empty start []
  | append {chain longer : Chain} {memory written : Memory} {entries : List (Addr × List Nat)} {node : Addr}
      {payload : List Nat} (made : Made start chain memory entries) (fresh : node ∉ entries.map Prod.fst)
      (fits : Node.Fits memory node payload)
      (appended : chain.append memory node payload = .ok (longer, written)) :
      Made start longer written (entries ++ [(node, payload)])
  | remove {chain shorter : Chain} {memory unlinked : Memory} {entries : List (Addr × List Nat)} {node : Addr}
      (made : Made start chain memory entries) (member : node ∈ entries.map Prod.fst)
      (removed : chain.remove memory node = .ok (shorter, unlinked)) :
      Made start shorter unlinked (entries.filter fun entry => entry.1 != node)

structure Carries (chain : Chain) (memory : Memory) (entries : List (Addr × List Nat)) : Prop where
  lists : Lists chain memory (entries.map Prod.fst)
  payload : ∀ entry ∈ entries, ∀ i (inside : i < entry.2.length),
    Node.payload (memory.block entry.1) i = entry.2[i]

/-- A payload stays where only links change. -/
private theorem payload_beside {block block' : Block}
    (beside : Block.Beside 0 Node.payloadOffset block block') (i : Nat) :
    Node.payload block' i = Node.payload block i :=
  beside.word (.inr (Nat.le_add_right ..))

theorem Carries.append (carries : Carries chain memory entries) (fresh : node ∉ entries.map Prod.fst)
    (fits : Node.Fits memory node payload)
    (appended : chain.append memory node payload = .ok (changed, written)) :
    Carries changed written (entries ++ [(node, payload)]) := by
  obtain ⟨_, _, appended', lists, values, others, -⟩ := carries.lists.append_fits fresh fits
  cases appended.symm.trans appended'
  refine ⟨by rw [List.map_append]; exact lists, fun entry member i inside => ?_⟩
  rcases List.mem_append.mp member with old | new
  · have different : entry.1 ≠ node := fun same => fresh (same ▸ List.mem_map_of_mem old)
    exact (payload_beside (others entry.1 different) i).trans (carries.payload entry old i inside)
  · cases List.mem_singleton.mp new
    exact values i inside

theorem Carries.remove (carries : Carries chain memory entries) (member : node ∈ entries.map Prod.fst)
    (removed : chain.remove memory node = .ok (changed, written)) :
    Carries changed written (entries.filter fun entry => entry.1 != node) := by
  obtain ⟨_, _, removed', lists, others, -⟩ := carries.lists.remove_leaves member
  cases removed.symm.trans removed'
  refine ⟨by rw [List.filter_map] at lists; exact lists, fun entry kept i inside => ?_⟩
  exact (payload_beside (others entry.1) i).trans (carries.payload entry (List.mem_of_mem_filter kept) i inside)

theorem Made.carries {start : Memory} (made : Made start chain memory entries) :
    Carries chain memory entries := by
  induction made with
  | empty => exact ⟨.empty start, by simp⟩
  | append made fresh fits appended ih => exact ih.append fresh fits appended
  | remove made member removed ih => exact ih.remove member removed

/-- All ways to go through a chain agree with the sequence of its nodes. -/
structure Sequenced (chain : Chain) (memory : Memory) (entries : List (Addr × List Nat)) : Prop where
  nodes : chain.nodes memory = .ok (entries.map Prod.fst)
  forward : Path (fun node => Node.next (memory.block node)) chain.head (entries.map Prod.fst)
  backward : Path (fun node => Node.prev (memory.block node)) chain.tail (entries.map Prod.fst).reverse
  length : chain.length = entries.length
  isEmpty : chain.isEmpty = entries.isEmpty
  /-- A walk that has passed some nodes expects as many as are left, and no more when there are none. -/
  steps : ∀ count, chain.cursor.steps memory count = .ok ((entries.map Prod.fst).take count,
    ⟨((entries.map Prod.fst).drop count).head?, entries.length - count⟩)
  payload : ∀ entry ∈ entries, ∀ i (inside : i < entry.2.length),
    Node.payload (memory.block entry.1) i = entry.2[i]

/-- Any node that is not in the chain can be appended, and any node in it removed, which can then be appended
again. Beside the node that is written only links change, and nothing gets too small for what it can carry. -/
structure Editable (chain : Chain) (memory : Memory) (entries : List (Addr × List Nat)) : Prop where
  append : ∀ node payload, node ∉ entries.map Prod.fst → Node.Fits memory node payload →
    ∃ longer written, chain.append memory node payload = .ok (longer, written) ∧
      (∀ other, other ≠ node → Block.Beside 0 Node.payloadOffset (memory.block other) (written.block other)) ∧
      ∀ other values, Node.Fits memory other values → Node.Fits written other values
  remove : ∀ node ∈ entries.map Prod.fst, ∃ shorter unlinked, chain.remove memory node = .ok (shorter, unlinked) ∧
    (∀ other, Block.Beside 0 Node.payloadOffset (memory.block other) (unlinked.block other)) ∧
    (∀ other values, Node.Fits memory other values → Node.Fits unlinked other values) ∧
    ∀ payload, Node.Fits memory node payload → ∃ again written,
      shorter.append unlinked node payload = .ok (again, written)

theorem Carries.sequenced (carries : Carries chain memory entries) : Sequenced chain memory entries where
  nodes := carries.lists.nodes_ok
  forward := by
    rw [carries.lists.head]
    exact carries.lists.segment.path_next
  backward := by
    rw [carries.lists.tail]
    exact carries.lists.segment.path_prev
  length := by rw [carries.lists.length, List.length_map]
  isEmpty := by
    rw [isEmpty, carries.lists.length, List.length_map]
    cases entries <;> rfl
  steps count := by
    rw [cursor, carries.lists.head, carries.lists.length, carries.lists.segment.steps, List.length_map]
  payload := carries.payload

theorem Carries.editable (carries : Carries chain memory entries) : Editable chain memory entries where
  append node payload fresh fits := by
    obtain ⟨longer, written, appended, -, -, others, kept⟩ := carries.lists.append_fits fresh fits
    exact ⟨longer, written, appended, others, kept⟩
  remove node member := by
    obtain ⟨shorter, unlinked, removed, lists, others, kept⟩ := carries.lists.remove_leaves member
    refine ⟨shorter, unlinked, removed, others, kept, fun payload fits => ?_⟩
    have fresh : node ∉ (entries.map Prod.fst).filter (· != node) := by simp
    obtain ⟨again, written, appended, -⟩ := lists.append_fits fresh (kept node payload fits)
    exact ⟨again, written, appended⟩

/-- A chain that is appended to and removed from behaves as the sequence of its nodes does. -/
theorem Made.traversable {start : Memory} (made : Made start chain memory entries) :
    Sequenced chain memory entries ∧ Editable chain memory entries :=
  ⟨made.carries.sequenced, made.carries.editable⟩

def threeBlocks : Memory :=
  ((Memory.empty.map 64 64 true).map 128 64 true).map 192 64 true

private theorem fits_threeBlocks {node value : Nat} (known : node ∈ [64, 128, 192]) (word : value < 2 ^ 64) :
    Node.Fits threeBlocks node [value] := by
  have real : ∀ node ∈ [64, 128, 192], 0 < node ∧ node < Size.bound := by decide
  have found : threeBlocks.find? node = some (.fresh 64 true) := by
    simp only [List.mem_cons, List.not_mem_nil, or_false] at known
    rcases known with rfl | rfl | rfl <;> simp [threeBlocks, Memory.find?_map]
  refine ⟨fun other same => ?_, ⟨_, found, by simp [Block.fresh]⟩, by simpa using word⟩
  cases same
  exact real node known

/-- Of three nodes the middle one was removed and appended again: now it is the last one. -/
theorem traversable_of_threeBlocks :
    ∃ chain memory, Made threeBlocks chain memory [(64, [7]), (192, [9]), (128, [10])] ∧
    Sequenced chain memory [(64, [7]), (192, [9]), (128, [10])] ∧
    Editable chain memory [(64, [7]), (192, [9]), (128, [10])] := by
  have first : Node.Fits threeBlocks 64 [7] := fits_threeBlocks (by decide) (by decide)
  have second : Node.Fits threeBlocks 128 [8] := fits_threeBlocks (by decide) (by decide)
  have third : Node.Fits threeBlocks 192 [9] := fits_threeBlocks (by decide) (by decide)
  have last : Node.Fits threeBlocks 128 [10] := fits_threeBlocks (by decide) (by decide)
  have made : Made threeBlocks .empty threeBlocks [] := .empty
  obtain ⟨_, _, appended, -, kept⟩ := made.carries.editable.append 64 [7] (by simp) first
  have made := made.append (by simp) first appended
  have second := kept _ _ second
  have third := kept _ _ third
  have last := kept _ _ last
  obtain ⟨_, _, appended, -, kept⟩ := made.carries.editable.append 128 [8] (by simp) second
  have made := made.append (by simp) second appended
  have third := kept _ _ third
  have last := kept _ _ last
  obtain ⟨_, _, appended, -, kept⟩ := made.carries.editable.append 192 [9] (by simp) third
  have made := made.append (by simp) third appended
  have last := kept _ _ last
  obtain ⟨_, _, removed, -, kept, -⟩ := made.carries.editable.remove 128 (by simp)
  have made := made.remove (by simp) removed
  have last := kept _ _ last
  obtain ⟨_, _, appended, -⟩ := made.carries.editable.append 128 [10] (by simp) last
  have made := made.append (by simp) last appended
  exact ⟨_, _, made, made.traversable⟩

end Chain
end SlabAllocator
