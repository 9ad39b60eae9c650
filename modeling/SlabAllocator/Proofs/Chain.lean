import SlabAllocator.Chain
import SlabAllocator.Proofs.Memory
import SlabAllocator.Proofs.Size

/-! A chain as the list of its nodes. Every link is tied to the neighbour in the list, in both
directions, so a change of two links is a change of the list. -/

namespace SlabAllocator

/-- Whether a link leads to an address that a word can hold and that is not the missing one. -/
def Node.Real (link : Option Nat) : Prop :=
  ∀ node ∈ link, 0 < node ∧ node < Size.bound

namespace Node

variable {link : Option Nat} {block changed : Block}

theorem ofLink_toLink (real : Real link) : ofLink (toLink link) = link := by
  cases link with
  | none => rfl
  | some node => exact if_neg (Nat.ne_of_gt (real node rfl).1)

theorem toLink_lt (real : Real link) : toLink link < 2 ^ 64 := by
  cases link with
  | none => exact Nat.two_pow_pos 64
  | some node => exact (real node rfl).2

theorem next_setNext (real : Real link) (long : 16 ≤ block.len) : next (setNext link block) = link := by
  rw [next, setNext, Block.word_setWord _ _ (by omega) (toLink_lt real), ofLink_toLink real]

theorem prev_setNext (link : Option Nat) (block : Block) : prev (setNext link block) = prev block := by
  rw [prev, setNext, Block.word_setWord_of_apart (.inr (by decide))]; rfl

theorem prev_setPrev (real : Real link) (long : 16 ≤ block.len) : prev (setPrev link block) = link := by
  rw [prev, setPrev, Block.word_setWord _ _ (by unfold prevOffset; omega) (toLink_lt real), ofLink_toLink real]

theorem next_setPrev (link : Option Nat) (block : Block) : next (setPrev link block) = next block := by
  rw [next, setPrev, Block.word_setWord_of_apart (.inl (by decide))]; rfl

theorem setNext_beside (link : Option Nat) (block : Block) : Block.Beside 0 16 block (setNext link block) :=
  (Block.Beside.setWord block 0 (toLink link)).widen (by decide) (by decide)

theorem setPrev_beside (link : Option Nat) (block : Block) : Block.Beside 0 16 block (setPrev link block) :=
  (Block.Beside.setWord block prevOffset (toLink link)).widen (by decide) (by decide)

theorem write_spec {values : List Nat} (real : Real link) (long : 16 + 8 * values.length ≤ block.len)
    (small : ∀ value ∈ values, value < 2 ^ 64) :
    next (write link values block) = none ∧ prev (write link values block) = link ∧
      (∀ i (inside : i < values.length), payload (write link values block) i = values[i]) ∧
      Block.Beside 0 (16 + 8 * values.length) block (write link values block) := by
  have fits : 0 + 8 * (0 :: toLink link :: values).length ≤ block.len := by
    simp only [List.length_cons]; omega
  have word : ∀ i (inside : i < (0 :: toLink link :: values).length), (0 :: toLink link :: values)[i] < 2 ^ 64 →
      (write link values block).word (0 + 8 * i) = (0 :: toLink link :: values)[i] := fun i inside =>
    Block.word_setWords fits inside
  refine ⟨?_, ?_, fun i inside => ?_, ?_⟩
  · rw [next, show (write link values block).word 0 = 0 from word 0 (by simp) (by simp)]
    rfl
  · rw [prev, show (write link values block).word prevOffset = toLink link from
      word 1 (by simp) (toLink_lt real), ofLink_toLink real]
  · have read := word (i + 2) (by simp only [List.length_cons]; omega) (small _ (List.getElem_mem inside))
    rwa [show 0 + 8 * (i + 2) = payloadOffset + 8 * i by unfold payloadOffset; omega] at read
  · have beside := Block.Beside.setWords block 0 (0 :: toLink link :: values)
    exact beside.widen (Nat.le_refl 0) (by simp only [List.length_cons]; omega)

def Ready (memory : Memory) (node : Nat) : Prop :=
  Real (some node) ∧ ∃ block, memory.find? node = some block ∧ 16 ≤ block.len

end Node

namespace Chain

/-- The nodes are linked in this order, from one neighbour to the other. -/
def Segment (memory : Memory) (before : Option Nat) : List Nat → (after : Option Nat) → Prop
  | [], _ => True
  | node :: rest, after =>
    Node.prev (memory.block node) = before ∧ Node.next (memory.block node) = rest.head?.or after ∧
      Segment memory (some node) rest after

variable {memory changed : Memory} {before after link : Option Nat} {nodes left right : List Nat} {node : Nat}

theorem Segment.append :
    Segment memory before (left ++ right) after ↔
      Segment memory before left (right.head?.or after) ∧
      Segment memory (left.getLast?.or before) right after := by
  induction left generalizing before with
  | nil => simp [Segment]
  | cons first left ih =>
    simp only [List.cons_append, Segment, ih, List.head?_append, Option.or_assoc, and_assoc]
    cases left <;> simp [List.getLast?_cons]

theorem Segment.links (segment : Segment memory before (left ++ node :: right) after) :
    Node.prev (memory.block node) = left.getLast?.or before ∧
    Node.next (memory.block node) = right.head?.or after :=
  let ⟨_, prev, next, _⟩ := Segment.append.mp segment
  ⟨prev, next⟩

theorem Segment.congr (segment : Segment memory before nodes after)
    (same : ∀ node ∈ nodes, changed.block node = memory.block node) : Segment changed before nodes after := by
  induction nodes generalizing before with
  | nil => exact trivial
  | cons node rest ih =>
    obtain ⟨prev, next, onward⟩ := segment
    rw [← same node (by simp)] at prev next
    exact ⟨prev, next, ih onward fun other member => same other (by simp [member])⟩

/-- A segment that ends elsewhere once its last node says so. -/
private theorem Segment.end_at (segment : Segment memory before (nodes ++ [node]) after) (fresh : node ∉ nodes)
    (ready : Node.Ready memory node) (real : Node.Real link) :
    Segment (memory.update node (Node.setNext link)) before (nodes ++ [node]) link := by
  obtain ⟨-, block, found, long⟩ := ready
  obtain ⟨first, last⟩ := Segment.append.mp segment
  have other : ∀ base ∈ nodes, (memory.update node (Node.setNext link)).block base = memory.block base :=
    fun base member => Memory.block_update_of_ne _ fun same => fresh (same ▸ member)
  refine Segment.append.mpr ⟨first.congr other, ?_⟩
  simp only [Segment, Memory.block_update_self _ found, List.head?_nil, Option.none_or] at last ⊢
  rw [Memory.block_eq found] at last
  exact ⟨(Node.prev_setNext link block).trans last.1, Node.next_setNext real long, trivial⟩

private theorem Segment.start_at (segment : Segment memory before (node :: nodes) after) (fresh : node ∉ nodes)
    (ready : Node.Ready memory node) (real : Node.Real link) :
    Segment (memory.update node (Node.setPrev link)) link (node :: nodes) after := by
  obtain ⟨-, block, found, long⟩ := ready
  obtain ⟨-, next, rest⟩ := segment
  rw [Memory.block_eq found] at next
  refine ⟨?_, ?_, rest.congr fun base member => Memory.block_update_of_ne _ fun same => fresh (same ▸ member)⟩
  · rw [Memory.block_update_self _ found, Node.prev_setPrev real long]
  · rw [Memory.block_update_self _ found, Node.next_setPrev, next]

structure Lists (chain : Chain) (memory : Memory) (nodes : List Nat) : Prop where
  segment : Segment memory none nodes none
  head : chain.head = nodes.head?
  tail : chain.tail = nodes.getLast?
  length : chain.length = nodes.length
  nodup : nodes.Nodup
  ready : ∀ node ∈ nodes, Node.Ready memory node

namespace Lists

variable {chain : Chain}

theorem empty (memory : Memory) : Lists .empty memory [] :=
  ⟨trivial, rfl, rfl, rfl, .nil, by simp⟩

theorem congr (lists : Lists chain memory nodes)
    (same : ∀ node ∈ nodes, changed.find? node = memory.find? node) : Lists chain changed nodes where
  segment := lists.segment.congr fun node member => Memory.block_congr (same node member)
  head := lists.head
  tail := lists.tail
  length := lists.length
  nodup := lists.nodup
  ready := fun node member => by
    obtain ⟨real, block, found, long⟩ := lists.ready node member
    exact ⟨real, block, (same node member).trans found, long⟩

theorem next_iff_prev (lists : Lists chain memory nodes) {first second : Nat} (member : first ∈ nodes)
    (other : second ∈ nodes) :
    Node.next (memory.block first) = some second ↔ Node.prev (memory.block second) = some first := by
  constructor
  · intro next
    obtain ⟨left, right, rfl⟩ := List.append_of_mem member
    rw [lists.segment.links.2, Option.or_none] at next
    obtain ⟨rest, rfl⟩ := List.head?_eq_some_iff.mp next
    have segment := lists.segment
    rw [List.append_cons] at segment
    rw [segment.links.1, List.getLast?_concat]
    rfl
  · intro prev
    obtain ⟨left, right, rfl⟩ := List.append_of_mem other
    rw [lists.segment.links.1, Option.or_none] at prev
    obtain ⟨rest, rfl⟩ := List.getLast?_eq_some_iff.mp prev
    have segment := lists.segment
    rw [List.append_assoc, List.singleton_append] at segment
    rw [segment.links.2]
    rfl

theorem beside (lists : Lists chain memory nodes) {bases : List Nat} {low high : Nat} (low_le : 16 ≤ low)
    (edited : Memory.Edited bases low high memory changed) : Lists chain changed nodes := by
  have links : ∀ node ∈ nodes, Node.prev (changed.block node) = Node.prev (memory.block node) ∧
      Node.next (changed.block node) = Node.next (memory.block node) := by
    intro node member
    rw [Node.prev, Node.prev, Node.next, Node.next,
      (edited.block node).word (.inl (by unfold Node.prevOffset; omega)),
      (edited.block node).word (.inl (by omega))]
    exact ⟨rfl, rfl⟩
  have segment : ∀ (nodes : List Nat) (before after : Option Nat),
      (∀ node ∈ nodes, Node.prev (changed.block node) = Node.prev (memory.block node) ∧
        Node.next (changed.block node) = Node.next (memory.block node)) →
      Segment memory before nodes after → Segment changed before nodes after := by
    intro nodes
    induction nodes with
    | nil => intro _ _ _ _; exact trivial
    | cons node rest ih =>
      intro before after links ⟨prev, next, onward⟩
      obtain ⟨left, right⟩ := links node (by simp)
      exact ⟨left.trans prev, right.trans next,
        ih _ _ (fun other member => links other (by simp [member])) onward⟩
  exact {
    segment := segment nodes none none links lists.segment
    head := lists.head
    tail := lists.tail
    length := lists.length
    nodup := lists.nodup
    ready := fun node member => by
      obtain ⟨real, block, found, long⟩ := lists.ready node member
      obtain ⟨block', found', beside⟩ := edited.kept found
      exact ⟨real, block', found', by rw [beside.len]; exact long⟩ }

private theorem walk_ok {nodes : List Nat} {before : Option Nat} (segment : Segment memory before nodes none) :
    walk memory nodes.length nodes.head? = .ok nodes := by
  induction nodes generalizing before with
  | nil => rfl
  | cons node rest ih =>
    obtain ⟨-, next, onward⟩ := segment
    rw [Option.or_none] at next
    simp only [List.length_cons, List.head?_cons, walk, next, ih onward, checked_bind, checked_pure]

theorem nodes_ok (lists : Lists chain memory nodes) : chain.nodes memory = .ok nodes := by
  rw [Chain.nodes, lists.length, lists.head]
  exact walk_ok lists.segment

theorem tail_real (lists : Lists chain memory nodes) : Node.Real chain.tail := by
  intro last member
  rw [lists.tail] at member
  exact (lists.ready last (List.mem_of_getLast? member)).1 last rfl

/-- Appending writes the node first. What it then changes are links. -/
theorem append_ok (lists : Lists chain memory nodes) {node : Nat} {block : Block} {payload : List Nat}
    (found : memory.find? node = some block) (real : Node.Real (some node)) (fresh : node ∉ nodes)
    (long : 16 + 8 * payload.length ≤ block.len) (small : ∀ value ∈ payload, value < 2 ^ 64)
    (few : nodes.length + 1 < Size.bound) :
    ∃ chain' changed, chain.append memory node payload = .ok (chain', changed) ∧
      Lists chain' changed (nodes ++ [node]) ∧
      Memory.Edited nodes 0 16 (memory.update node (Node.write chain.tail payload)) changed := by
  obtain ⟨next, prev, -, beside⟩ := Node.write_spec lists.tail_real long small
  have found' := Memory.find?_update_self (Node.write chain.tail payload) found
  have other : ∀ base ∈ nodes, (memory.update node (Node.write chain.tail payload)).find? base =
      memory.find? base :=
    fun base member => Memory.find?_update_of_ne _ fun same => fresh (same ▸ member)
  have written := lists.congr other
  generalize written_eq : memory.update node (Node.write chain.tail payload) = middle at found' other written ⊢
  have ready : ∀ base ∈ nodes ++ [node], Node.Ready middle base := by
    intro base member
    rcases List.mem_append.mp member with old | new
    · exact written.ready base old
    · obtain rfl := List.mem_singleton.mp new
      exact ⟨real, _, found', by rw [beside.len]; omega⟩
  have nodup : (nodes ++ [node]).Nodup :=
    List.nodup_append.mpr ⟨lists.nodup, by simp, fun a old b new same => by
      rw [same, List.mem_singleton.mp new] at old
      exact fresh old⟩
  have length : Size.add chain.length 1 = .ok (nodes ++ [node]).length := by
    rw [lists.length, Size.add_ok few, List.length_append]; rfl
  have last := lists.tail
  rcases List.eq_nil_or_concat' nodes with rfl | ⟨init, tail, rfl⟩
  · rw [List.getLast?_nil] at last
    rw [last] at found' next prev written_eq
    refine ⟨⟨some node, some node, ([] ++ [node]).length⟩, middle, ?_, ?_, .refl (by simp) 0 16⟩
    · simp only [Chain.append, last, length, checked_bind, checked_pure, written_eq]
    · have block_eq := Memory.block_eq found'
      refine ⟨?_, rfl, rfl, rfl, nodup, ready⟩
      simp only [List.nil_append, Segment, block_eq, next, prev, List.head?_nil, Option.or_none, and_self]
  · rw [List.getLast?_concat] at last
    rw [last] at found' next prev written_eq
    have tail_mem : tail ∈ init ++ [tail] := by simp
    obtain ⟨_, tail_block, tail_found, -⟩ := written.ready tail tail_mem
    have tail_fresh : tail ∉ init := fun again =>
      List.disjoint_of_nodup_append lists.nodup again (List.mem_singleton.mpr rfl)
    have different : tail ≠ node := fun same => fresh (same ▸ tail_mem)
    have relinked : Memory.Edited (init ++ [tail]) 0 16 middle (middle.update tail (Node.setNext (some node))) :=
      (Memory.Edited.update tail_found (Node.setNext_beside (some node) tail_block)).mono (by simp)
        fun base member => (written.ready base member).2.imp fun _ here => here.1
    have kept : (middle.update tail (Node.setNext (some node))).block node = middle.block node :=
      Memory.block_update_of_ne _ different
    refine ⟨⟨chain.head, some node, ((init ++ [tail]) ++ [node]).length⟩, _, ?_, ?_, relinked⟩
    · simp only [Chain.append, last, length, checked_bind, checked_pure, written_eq]
    · exact {
        segment := by
          refine Segment.append.mpr ⟨written.segment.end_at tail_fresh (written.ready tail tail_mem) real, ?_⟩
          simp only [Segment, kept, Memory.block_eq found', next, prev, List.getLast?_concat, Option.or_none,
            List.head?_nil, and_self]
        head := by rw [lists.head]; simp
        tail := by simp
        length := rfl
        nodup
        ready := fun base member => by
          obtain ⟨real, block, here, long⟩ := ready base member
          by_cases same : tail = base
          · subst same
            exact ⟨real, _, Memory.find?_update_self _ here, long⟩
          · exact ⟨real, block, (Memory.find?_update_of_ne _ same).trans here, long⟩ }

private theorem ready_edited {bases : List Nat} {low high : Nat}
    (edited : Memory.Edited bases low high memory changed) (ready : Node.Ready memory node) :
    Node.Ready changed node := by
  obtain ⟨real, block, found, long⟩ := ready
  obtain ⟨block', found', beside⟩ := edited.kept found
  exact ⟨real, block', found', by rw [beside.len]; exact long⟩

def relink (memory : Memory) (neighbour : Option Nat) (change : Block → Block) : Memory :=
  neighbour.elim memory fun node => memory.update node change

theorem remove_eq (chain : Chain) (memory : Memory) (node : Nat) {prev next : Option Nat}
    (prev_eq : Node.prev (memory.block node) = prev) (next_eq : Node.next (memory.block node) = next) :
    chain.remove memory node = (Size.sub chain.length 1).map fun length =>
      (⟨if prev.isSome then chain.head else next, if next.isSome then chain.tail else prev, length⟩,
        relink (relink memory prev (Node.setNext next)) next (Node.setPrev prev)) := by
  rw [Chain.remove, prev_eq, next_eq]
  cases prev <;> cases next <;> rfl

private theorem relink_left (segment : Segment memory before left after) (nodup : left.Nodup)
    (ready : ∀ node ∈ left, Node.Ready memory node) (real : Node.Real link) :
    Segment (relink memory left.getLast? (Node.setNext link)) before left link ∧
      Memory.Edited left 0 16 memory (relink memory left.getLast? (Node.setNext link)) := by
  rcases List.eq_nil_or_concat' left with rfl | ⟨init, last, rfl⟩
  · exact ⟨trivial, .refl (by simp) 0 16⟩
  · have member : last ∈ init ++ [last] := by simp
    have fresh : last ∉ init :=
      fun again => List.disjoint_of_nodup_append nodup again (List.mem_singleton.mpr rfl)
    obtain ⟨_, block, found, -⟩ := ready last member
    rw [List.getLast?_concat]
    exact ⟨segment.end_at fresh (ready last member) real,
      (Memory.Edited.update found (Node.setNext_beside link block)).mono (by simp)
        fun base inside => (ready base inside).2.imp fun _ here => here.1⟩

private theorem relink_right (segment : Segment memory before right after) (nodup : right.Nodup)
    (ready : ∀ node ∈ right, Node.Ready memory node) (real : Node.Real link) :
    Segment (relink memory right.head? (Node.setPrev link)) link right after ∧
      Memory.Edited right 0 16 memory (relink memory right.head? (Node.setPrev link)) := by
  cases right with
  | nil => exact ⟨trivial, .refl (by simp) 0 16⟩
  | cons first rest =>
    have fresh : first ∉ rest := (List.nodup_cons.mp nodup).1
    obtain ⟨_, block, found, -⟩ := ready first (by simp)
    exact ⟨segment.start_at fresh (ready first (by simp)) real,
      (Memory.Edited.update found (Node.setPrev_beside link block)).mono (by simp)
        fun base inside => (ready base inside).2.imp fun _ here => here.1⟩

/-- Removing links the neighbours past the node, which keeps its own bytes. -/
theorem remove_ok (lists : Lists chain memory (left ++ node :: right)) :
    ∃ chain' changed, chain.remove memory node = .ok (chain', changed) ∧ Lists chain' changed (left ++ right) ∧
      Memory.Edited (left ++ right) 0 16 memory changed := by
  obtain ⟨first, last⟩ := Segment.append.mp lists.segment
  obtain ⟨prev, next, last⟩ := last
  rw [Option.or_none] at prev next
  have nodup : (left ++ right).Nodup := lists.nodup.sublist ((List.sublist_cons_self node right).append_left left)
  have ready : ∀ base ∈ left ++ right, Node.Ready memory base := fun base member =>
    lists.ready base (((List.sublist_cons_self node right).append_left left).subset member)
  have present : ∀ base ∈ left ++ right, ∃ block, memory.find? base = some block := fun base member =>
    (ready base member).2.imp fun _ here => here.1
  have apart : ∀ base ∈ left, base ∉ right := fun base here there =>
    List.disjoint_of_nodup_append nodup here there
  have onward : Node.Real right.head? := fun base member =>
    (ready base (List.mem_append_right _ (List.mem_of_head? member))).1 base rfl
  have backward : Node.Real left.getLast? := fun base member =>
    (ready base (List.mem_append_left _ (List.mem_of_getLast? member))).1 base rfl
  obtain ⟨first, edited⟩ := relink_left first (List.Nodup.of_append_left nodup)
    (fun base member => ready base (List.mem_append_left _ member)) onward
  generalize middle_eq : relink memory left.getLast? (Node.setNext right.head?) = middle at first edited
  have last :=
    last.congr fun base member => Memory.block_congr (edited.other base fun here => apart base here member)
  obtain ⟨last, edited'⟩ := relink_right last (List.Nodup.of_append_right nodup)
    (fun base member => ready_edited edited (ready base (List.mem_append_right _ member))) backward
  have first := first.congr fun base member => Memory.block_congr (edited'.other base (apart base member))
  have whole : Memory.Edited (left ++ right) 0 16 memory middle :=
    edited.mono (fun base => List.mem_append_left _) present
  have whole' : Memory.Edited (left ++ right) 0 16 middle _ :=
    edited'.mono (fun base => List.mem_append_right _) fun base member =>
      (ready_edited edited (ready base member)).2.imp fun _ here => here.1
  have removed := remove_eq chain memory node prev next
  rw [middle_eq, lists.length, List.length_append, List.length_cons, Size.sub_ok (by omega)] at removed
  exact ⟨_, _, removed, {
    segment := Segment.append.mpr ⟨by rw [Option.or_none]; exact first, by rw [Option.or_none]; exact last⟩
    head := by cases left <;> simp [lists.head]
    tail := by cases right <;> simp [lists.tail, List.getLast?_append]
    length := by rw [List.length_append]; rfl
    nodup
    ready := fun base member => ready_edited whole' (ready_edited whole (ready base member)) },
    whole.trans whole'⟩

end Lists
end Chain
end SlabAllocator
