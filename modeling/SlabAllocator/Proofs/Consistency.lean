import SlabAllocator.Proofs.Attained

/-! What a pool writes down more than once. The links of the chain, its ends and its length, the owners,
the bitmaps and the counts of the frames are changed by different steps, and after every operation
they agree with each other and with what the client has in its hands. -/

namespace SlabAllocator

namespace Pool

variable {pool : Pool} {memory : Memory} {base addr : Nat}

def covers (pool : Pool) (base addr : Addr) : Bool :=
  base ≤ addr && addr < base + pool.frameLen

/-- A slot is handed out exactly when its own frame says so. -/
theorem Valid.start_mem_live (valid : pool.Valid memory) (spread : Spread memory.live)
    (member : base ∈ pool.owners) {index : Nat} (inside : index < pool.geometry.slots) :
    base + pool.geometry.start index ∈ pool.live memory ↔
    index ∈ Frame.taken pool.geometry (memory.block base) := by
  constructor
  · intro taken
    -- Whatever frame the address was handed out from is found by the address, so it is this one.
    obtain ⟨other, owned, place, used, same⟩ := mem_live.mp taken
    have owner := valid.owner?_eq spread member inside
    rw [same, valid.owner?_eq spread owned (Frame.mem_taken.mp used).1] at owner
    cases owner
    rwa [valid.geometry.start_injective (Nat.add_left_cancel same)]
  · exact fun used => mem_live.mpr ⟨base, member, index, used, rfl⟩

theorem Valid.live_covers (valid : pool.Valid memory) (spread : Spread memory.live)
    (member : base ∈ pool.owners) :
    ((pool.live memory).filter (pool.covers base)).Perm (slotsAt pool.geometry memory base) := by
  have split := (live_split memory member).filter (pool.covers base)
  have own : (slotsAt pool.geometry memory base).filter (pool.covers base) =
      slotsAt pool.geometry memory base := by
    refine List.filter_eq_self.mpr fun addr taken => ?_
    obtain ⟨index, used, rfl⟩ := mem_slotsAt.mp taken
    have inside := valid.slot_lt (Frame.mem_taken.mp used).1
    simp [covers, inside]
  have others : ((pool.owners.erase base).flatMap (slotsAt pool.geometry memory)).filter
      (pool.covers base) = [] := by
    refine List.filter_eq_nil_iff.mpr fun addr taken covered => ?_
    obtain ⟨other, kept, there⟩ := List.mem_flatMap.mp taken
    obtain ⟨index, used, rfl⟩ := mem_slotsAt.mp there
    obtain ⟨different, owned⟩ := valid.nodup.mem_erase_iff.mp kept
    simp only [covers, Bool.and_eq_true, decide_eq_true_eq] at covered
    have owner := valid.owner?_eq spread owned (Frame.mem_taken.mp used).1
    rw [valid.owner?_span spread member covered.1 covered.2] at owner
    exact different (Option.some.inj owner).symm
  rwa [List.filter_append, own, others, List.append_nil] at split

end Pool

namespace Session

/-- What a frame says of itself, beside what the pool and the client say of it. -/
structure Agrees (session : Session σ ω) (source : Source) (pool : Pool) (base : Addr)
    (frame : Block) : Prop where
  entitySize : Frame.entitySize frame = pool.geometry.entitySize
  slots : Frame.slots frame = pool.geometry.slots
  counted : Frame.occupied frame = (List.range pool.geometry.slots).countP (Frame.bitmap pool.geometry frame).has
  handedOut : Frame.occupied frame = ((slotsOf session.slots source).filter (pool.covers base)).length
  marked : ∀ index, index < pool.geometry.slots →
    ((Frame.bitmap pool.geometry frame).has index = true ↔
      session.HandedOut source (base + pool.geometry.start index))
  padding : ∀ index, pool.geometry.slots ≤ index → index < 64 * pool.geometry.bitmapWords →
    (Frame.bitmap pool.geometry frame).has index = true

structure Consistent (session : Session σ ω) (source : Source) (pool : Pool) (bases : List Addr) : Prop where
  nodes : pool.frames.nodes session.memory = .ok bases
  distinct : bases.Nodup
  head : pool.frames.head = bases.head?
  tail : pool.frames.tail = bases.getLast?
  length : pool.frames.length = bases.length
  links : ∀ left base right, bases = left ++ base :: right →
    Node.prev (session.memory.block base) = left.getLast? ∧ Node.next (session.memory.block base) = right.head?
  inverse : ∀ first ∈ bases, ∀ second ∈ bases, Node.next (session.memory.block first) = some second ↔
    Node.prev (session.memory.block second) = some first
  owners : pool.owners.Perm bases
  sorted : pool.owners.Pairwise (· < ·)
  frames : ∀ base ∈ bases, ∃ frame, session.memory.find? base = some frame ∧ Agrees session source pool base frame
  cadence : pool.releases < pool.interval

variable [Host σ] [LawfulHost σ]
variable {session : Session σ ω} {pool : Pool} {source : Source}

theorem Sound.agrees (sound : Sound session) (here : session.pool? source = some pool) {base : Addr}
    (member : base ∈ pool.owners) {frame : Block} (found : session.memory.find? base = some frame)
    (valid : Frame.Valid pool.geometry frame) : Agrees session source pool base frame := by
  have whole := sound.valid_of here
  have spread := sound.accounts.machine.spread
  have ledger := sound.ledger source
  rw [live_eq here] at ledger
  refine ⟨valid.entitySize, valid.slots, ?_, ?_, fun index inside => ?_, valid.padding⟩
  · rw [valid.occupied, Frame.taken, List.countP_eq_length_filter]
  · rw [← ((ledger.filter _).symm.trans (whole.live_covers spread member)).symm.length_eq, Pool.slotsAt,
      List.length_map, Memory.block_eq found, valid.occupied]
  · rw [sound.handedOut_iff here, whole.start_mem_live spread member inside,
      Memory.block_eq found, Frame.mem_taken]
    exact (and_iff_right inside).symm

theorem Attained.consistent (attained : Attained session) (here : session.pool? source = some pool) :
    ∃ bases, Consistent session source pool bases := by
  have sound := attained.sound
  have valid := sound.valid_of here
  obtain ⟨bases, lists, order⟩ := valid.lists
  refine ⟨bases, lists.nodes_ok, lists.nodup, lists.head, lists.tail, lists.length, ?_, ?_, order.symm,
    valid.sorted, ?_, valid.cadence.1⟩
  · rintro left base right rfl
    obtain ⟨prev, next⟩ := lists.segment.links
    exact ⟨prev.trans (Option.or_none ..), next.trans (Option.or_none ..)⟩
  · exact fun first member second other => lists.next_iff_prev member other
  · intro base member
    have owned := order.mem_iff.mp member
    obtain ⟨frame, found, frameValid⟩ := valid.frames base owned
    exact ⟨frame, found, sound.agrees here owned found frameValid⟩

theorem consistent_of_handmade :
    ∃ (session : Session (Quota Kernel) (Option Addr)) (pool : Pool) (bases : List Addr),
    handmade = some session ∧ session.pool? (.dedicated 0) = some pool ∧
      pool.owners = [0x10000000000, 0x20000000000, 0x30000000000] ∧ pool.releases = 1 ∧
      Consistent session (.dedicated 0) pool bases := by
  have ended :
      (handmade.bind fun session => (session.pool? (.dedicated 0)).map fun pool => (pool.owners, pool.releases)) =
      some ([0x10000000000, 0x20000000000, 0x30000000000], 1) := by
    decide +kernel
  obtain ⟨session, made, ended⟩ := Option.bind_eq_some_iff.mp ended
  obtain ⟨pool, here, same⟩ := Option.map_eq_some_iff.mp ended
  obtain ⟨owners, releases⟩ := Prod.mk.inj same
  obtain ⟨bases, consistent⟩ := Attained.consistent (attained_of_handmade made) here
  exact ⟨session, pool, bases, made, here, owners, releases, consistent⟩

end Session
end SlabAllocator
