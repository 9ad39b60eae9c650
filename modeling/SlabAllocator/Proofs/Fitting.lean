import SlabAllocator.Proofs.Lookup
import SlabAllocator.Proofs.Reclaim

/-! Where a block of some size lies. The slots of a frame start at a multiple of sixteen bytes behind its
header and its bitmap, and follow each other at a multiple of the alignment, so they are aligned as far as
their frame is. A block of the arena starts where the host has put it. -/

namespace SlabAllocator

theorem Geometry.Sound.header_le_start {geometry : Geometry} (sound : geometry.Sound) (index : Nat) :
    40 + 8 * geometry.bitmapWords ≤ geometry.start index :=
  Nat.le_trans sound.header (Nat.le_add_right ..)

theorem Geometry.Sound.dvd_start {geometry : Geometry} {unit : Nat} (sound : geometry.Sound)
    (first : unit ∣ Geometry.slotAlign) (stride : unit ∣ geometry.entitySize) (index : Nat) :
    unit ∣ geometry.start index :=
  Nat.dvd_add (first.trans sound.aligned) (stride.mul_left index)

/-- The alignments of a policy divide the one that every first slot has. -/
theorem Policy.Sound.dvd_slotAlign {policy : Policy} (sound : policy.Sound) :
    policy.alignment ∣ Geometry.slotAlign := by
  have every : ∀ few ≤ Policy.greatestAlignment, Size.isPowerOfTwo few = true → few ∣ Geometry.slotAlign := by
    decide
  exact every _ sound.aligned sound.power

namespace Session

variable [Host σ] [LawfulHost σ]
variable {session after : Session σ ω} {slot : Slot} {block : Holding} {index size addr : Nat}

/-- A range of bytes that nobody else has a part of. -/
structure Alone (session : Session σ ω) (extent : Extent) : Prop where
  apart : ∃ rest, session.handedOut.Perm (extent :: rest) ∧ ∀ other ∈ rest, Extent.Apart extent other
  preludes : ∀ source pool base, session.pool? source = some pool → base ∈ pool.listed session.memory →
    Extent.Apart extent (pool.prelude base)

/-- What was handed out for a size, and the block of the host that it lies in. -/
structure Fitted (session : Session σ ω) (size : Nat) (extent block : Extent) : Prop where
  room : size ≤ extent.2 ∧ 0 < extent.2
  alone : Alone session extent
  given : block ∈ Journal.live session.arena.machine.journal.events.toList
  within : Extent.Within extent block
  /-- Below the cutoff it is a slot of the pool of its class, behind the header and the bitmap of a frame. -/
  pooled : size < session.allocator.policy.cutoff → ∃ pool index,
    session.pool? (.registry (session.allocator.policy.entry size)) = some pool ∧
    block.1 ∈ pool.listed session.memory ∧
      index < pool.geometry.slots ∧ extent = (block.1 + pool.geometry.start index, pool.entitySize) ∧
      40 + 8 * pool.geometry.bitmapWords ≤ extent.1 - block.1
  aside : session.allocator.policy.cutoff ≤ size → extent = block ∧
    session.arena.blockLen size = .ok (some extent.2)
  offset : session.allocator.policy.alignment ∣ extent.1 - block.1
  aligned : session.arena.pageSize ∣ block.1 → session.allocator.policy.alignment ∣ session.arena.pageSize →
    session.allocator.policy.alignment ∣ extent.1

theorem Sound.slot_alone (sound : Sound session) (member : slot ∈ session.slots) :
    Alone session (session.slotExtent slot) := by
  obtain ⟨pool, base, here, owned, inside, within⟩ := sound.frame_of member
  constructor
  case apart =>
    refine ⟨(session.slots.erase slot).map session.slotExtent ++ session.held.map session.blockExtent, ?_, ?_⟩
    · exact ((List.perm_cons_erase member).map session.slotExtent).append_right _
    · intro extent other
      rcases List.mem_append.mp other with fromSlot | fromBlock
      · obtain ⟨slot', left, rfl⟩ := List.mem_map.mp fromSlot
        obtain ⟨different, member'⟩ := sound.nodup_slots.mem_erase_iff.mp left
        exact sound.slots_apart member member' different.symm
      · exact (sound.block_apart here owned fromBlock).mono within ⟨Nat.le_refl _, Nat.le_refl _⟩
  case preludes =>
    intro source candidate other there listed
    have valid := sound.valid_of there
    have claimed := valid.mem_listed.mp listed
    by_cases same : base = other
    · subst same
      cases sound.owner_unique here there owned claimed
      rw [here] at there
      cases there
      exact (valid.prelude_apart base).mono inside ⟨Nat.le_refl _, Nat.le_refl _⟩
    · exact (sound.frames_apart here there owned claimed same).mono within
        (valid.prelude_within other sound.accounts.power)

theorem Sound.block_alone (sound : Sound session) (member : block ∈ session.held) :
    Alone session (session.blockExtent block) := by
  have among : session.blockExtent block ∈ session.held.map session.blockExtent := List.mem_map_of_mem member
  constructor
  case apart =>
    have split := (List.perm_cons_erase member).map session.blockExtent
    have blocks := (split.pairwise_iff Extent.Apart.symm).mp (List.pairwise_append.mp sound.spread.apart).2.1
    refine ⟨session.slots.map session.slotExtent ++ (session.held.erase block).map session.blockExtent, ?_, ?_⟩
    · exact (split.append_left _).trans List.perm_middle
    · intro extent other
      rcases List.mem_append.mp other with fromSlot | fromBlock
      · obtain ⟨slot, inHand, rfl⟩ := List.mem_map.mp fromSlot
        obtain ⟨pool, base, here, owned, -, within⟩ := sound.frame_of inHand
        exact ((sound.block_apart here owned among).mono within ⟨Nat.le_refl _, Nat.le_refl _⟩).symm
      · exact (List.pairwise_cons.mp blocks).1 extent fromBlock
  case preludes =>
    intro source pool base here listed
    have valid := sound.valid_of here
    have apart := sound.block_apart here (valid.mem_listed.mp listed) among
    exact apart.symm.mono ⟨Nat.le_refl _, Nat.le_refl _⟩ (valid.prelude_within base sound.accounts.power)

theorem Sound.slot_fitted (sound : Sound session) (member : slot ∈ session.slots)
    (registered : slot.source = .registry index) (kind : session.allocator.class? slot.size = some index) :
    ∃ host, Fitted session slot.size (session.slotExtent slot) host := by
  obtain ⟨pool, here, taken, place⟩ := sound.pool_of member
  have valid := sound.valid_of here
  obtain ⟨base, owned, position, used, start⟩ := Pool.mem_live.mp taken
  have inside := (Frame.mem_taken.mp used).1
  have policy := sound.registry.policy
  obtain ⟨below, -, room, -⟩ := policy.class?_spec kind
  have entry : session.allocator.policy.entry slot.size = index := by
    rw [Allocator.class?, Policy.class?_eq below] at kind
    exact Option.some.inj kind
  have registry := registered ▸ here
  have width : pool.entitySize = session.allocator.policy.entitySize index :=
    sound.registry.entitySize index pool (Option.join_eq_some_iff.mp registry)
  have offset : session.allocator.policy.alignment ∣ pool.geometry.start position := by
    refine valid.geometry.dvd_start policy.dvd_slotAlign ?_ position
    change _ ∣ pool.entitySize
    rw [width]
    exact Nat.dvd_mul_left ..
  have extent : session.slotExtent slot = (base + pool.geometry.start position, pool.entitySize) := by
    rw [place, Pool.slot, start]
  have given := sound.mem_given (List.mem_append_left _ (mem_frames here owned))
  have alone := sound.slot_alone member
  rw [extent] at alone ⊢
  refine ⟨(base, pageBytes session.arena.pageSize pool.frameLen), ?_⟩
  constructor
  case room => exact ⟨width ▸ room, valid.geometry.sized⟩
  case alone => exact alone
  case given => exact given
  case within =>
    have ends := pool.geometry.within inside
    have fits := valid.geometry.room
    have covers := le_pageBytes sound.accounts.power pool.geometry.frameLen
    simp only [Extent.Within, Pool.entitySize, Pool.frameLen]
    omega
  case pooled =>
    intro _
    refine ⟨pool, position, by rw [entry]; exact registry, valid.mem_listed.mpr owned, inside, rfl, ?_⟩
    rw [Nat.add_sub_cancel_left]
    exact valid.geometry.header_le_start position
  case aside => exact fun above => absurd below (Nat.not_lt.mpr above)
  case offset =>
    rw [Nat.add_sub_cancel_left]
    exact offset
  case aligned => exact fun based divides => Nat.dvd_add (divides.trans based) offset

theorem Sound.block_fitted (sound : Sound session) (member : block ∈ session.held)
    (above : session.allocator.policy.cutoff ≤ block.size) :
    Fitted session block.size (session.blockExtent block) (session.blockExtent block) := by
  have power := sound.accounts.power
  have among : session.blockExtent block ∈ session.frames ++ session.held.map session.blockExtent :=
    List.mem_append_right _ (List.mem_map_of_mem member)
  have short : pageBytes session.arena.pageSize block.size ≤ Size.longest := (sound.accounts.proper among).2.2
  constructor
  case room => exact ⟨(Nat.max_le.mp (le_pageBytes power block.size)).1, (sound.spread.placed _ among).2.1⟩
  case alone => exact sound.block_alone member
  case given => exact sound.mem_given among
  case within => exact ⟨Nat.le_refl _, Nat.le_refl _⟩
  case pooled => exact fun below => absurd below (Nat.not_lt.mpr above)
  case aside => exact fun _ => ⟨rfl, by rw [Arena.blockLen_eq power, if_pos short]; rfl⟩
  case offset =>
    rw [Nat.sub_self]
    exact Nat.dvd_zero _
  case aligned => exact fun based divides => divides.trans based

/-- What a request is granted is in the hands of the client then, with the size that was asked for. -/
theorem Sound.alloc_finds (sound : Sound session) (size : Nat) : (alloc size).Meets session
    (fun outcome after => ∀ addr, outcome = .ok addr → after.allocator.policy = session.allocator.policy ∧
      (after.find? (session.allocator.class? size) size addr).isSome) fun _ _ => True := by
  simp only [alloc, onAllocator, Run.meets_bind, Run.meets_focus]
  refine (sound.registry.alloc_spec size).mono (fun outcome allocator served => ?_) fun _ _ _ => trivial
  cases outcome with
  | error error =>
    simp only [Run.meets_pure]
    rintro _ ⟨⟩
  | ok addr =>
    obtain ⟨changes, owns, -⟩ := served
    have kind : route { session with allocator } size = .ok (session.allocator.class? size) := by
      rw [route_eq owns.sound size, Allocator.class?_congr changes.policy]
    simp only [Run.meets_bind, Run.meets_get, Run.meets_lift kind, Run.meets_modify, Run.meets_pure]
    rintro _ ⟨⟩
    refine ⟨?_, find?_gain ..⟩
    cases session.allocator.class? size <;> exact changes.policy

/-- Whatever is granted for a size has room for it, shares no byte with anything else, and is aligned in the
block of the host that it lies in. -/
theorem Attained.fitted (attained : Attained session) (granted : alloc size session = .ok (.ok addr) after) :
    ∃ usable host, Fitted after size (addr, usable) host := by
  have sound := attained.sound
  have sound' : Sound after := ((sound.alloc_spec size).of_ok granted).1
  obtain ⟨policy, found⟩ := (sound.alloc_finds size).of_ok granted addr rfl
  obtain ⟨grant, found⟩ := Option.isSome_iff_exists.mp found
  rcases find?_spec found with ⟨index, kind, -, member⟩ | ⟨block, kind, -, member, rfl, rfl⟩
  · rw [← Allocator.class?_congr policy] at kind
    obtain ⟨host, fitted⟩ := sound'.slot_fitted member rfl kind
    exact ⟨_, host, fitted⟩
  · have above : after.allocator.policy.cutoff ≤ block.size := by
      rw [policy]
      by_contra below
      rw [Allocator.class?, Policy.class?_eq (Nat.not_le.mp below)] at kind
      cases kind
    exact ⟨_, _, sound'.block_fitted member above⟩

/-- The second slot of a frame under the widest alignment. -/
theorem fitted_of_widest : ∃ session after : Session (Quota Kernel) (Option Addr),
    replay fourPages ⟨4000, 16, 300⟩ none [.alloc 40] = some session ∧
    alloc 40 session = .ok (.ok 0x10000000070) after ∧
      ∃ usable host, Fitted after 40 (0x10000000070, usable) host := by
  have ended : ((replay fourPages ⟨4000, 16, 300⟩ none [.alloc 40]).bind
      fun session : Session (Quota Kernel) (Option Addr) =>
      ((alloc 40).ended? session).map Prod.fst) = some (.ok 0x10000000070) := by
    decide +kernel
  obtain ⟨session, replayed, ended⟩ := Option.bind_eq_some_iff.mp ended
  obtain ⟨⟨_, after⟩, ran, rfl⟩ := Option.map_eq_some_iff.mp ended
  have granted : alloc 40 session = .ok (.ok 0x10000000070) after := Run.ended?_eq_some.mp ran
  have attained : Attained session :=
    (Reachable.of_replay fourPages_fresh (by decide) (by decide) replayed).attained
  exact ⟨session, after, replayed, granted, attained.fitted granted⟩

end Session
end SlabAllocator
