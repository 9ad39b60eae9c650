import SlabAllocator.Proofs.Draining
import SlabAllocator.Proofs.Shedding

/-! Which pool an address belongs to. A pool looks at one frame only, the one with the greatest base that is
not above the address, and no two frames share a byte, so it finds a frame of its chain just when one spans
the address, and never finds one that another pool could find as well. -/

namespace SlabAllocator

namespace Extent

variable {extent inner outer : Extent} {addr : Nat}

def Spans (extent : Extent) (addr : Nat) : Prop :=
  extent.1 ≤ addr ∧ addr < extent.1 + extent.2

theorem Spans.mono (spans : inner.Spans addr) (within : Within inner outer) : outer.Spans addr := by
  unfold Spans Within at *
  omega

theorem Apart.not_spans {other : Extent} (apart : Apart extent other) (spans : extent.Spans addr) :
    ¬ other.Spans addr := by
  unfold Apart Spans at *
  omega

end Extent

namespace Pool

variable {pool : Pool} {memory : Memory} {base other addr : Nat}

/-- The bytes of a frame. The block behind it may be longer. -/
def frame (pool : Pool) (base : Nat) : Extent :=
  (base, pool.frameLen)

theorem Valid.mem_listed (valid : pool.Valid memory) : base ∈ pool.listed memory ↔ base ∈ pool.owners := by
  rw [valid.listed_eq, valid.mem_bases]

theorem Valid.chain_eq (valid : pool.Valid memory) : pool.frames.nodes memory = .ok (pool.listed memory) := by
  rw [valid.listed_eq, valid.nodes_eq]

theorem Valid.owner?_eq_some_iff (valid : pool.Valid memory) (spread : Spread memory.live) :
    pool.owner? addr = some base ↔ base ∈ pool.listed memory ∧ (pool.frame base).Spans addr := by
  rw [valid.mem_listed]
  constructor
  · exact Owners.find?_some
  · rintro ⟨member, low, high⟩
    exact valid.owner?_span spread member low high

theorem Valid.owns_iff (valid : pool.Valid memory) (spread : Spread memory.live) :
    pool.owns addr = true ↔ ∃ base ∈ pool.listed memory, (pool.frame base).Spans addr := by
  rw [owns, Option.isSome_iff_exists]
  exact exists_congr fun base => valid.owner?_eq_some_iff spread

/-- Two frames overlap nowhere, since the first byte of the later one would belong to both. -/
theorem Valid.frame_apart (valid : pool.Valid memory) (spread : Spread memory.live)
    (member : base ∈ pool.listed memory) (member' : other ∈ pool.listed memory) (different : base ≠ other) :
    Extent.Apart (pool.frame base) (pool.frame other) := by
  have sized : 0 < pool.frameLen := valid.geometry.frameLen_pos
  have single (addr : Nat) (spans : (pool.frame base).Spans addr) (spans' : (pool.frame other).Spans addr) :
      False := by
    have owner := (valid.owner?_eq_some_iff spread).mpr ⟨member, spans⟩
    have owner' := (valid.owner?_eq_some_iff spread).mpr ⟨member', spans'⟩
    exact different (Option.some.inj (owner.symm.trans owner'))
  by_contra overlap
  simp only [Extent.Apart, frame, not_or, Nat.not_le] at overlap
  rcases Nat.lt_or_gt_of_ne different with below | above
  · exact single other ⟨Nat.le_of_lt below, overlap.1⟩ ⟨Nat.le_refl _, Nat.lt_add_of_pos_right sized⟩
  · exact single base ⟨Nat.le_refl _, Nat.lt_add_of_pos_right sized⟩ ⟨Nat.le_of_lt above, overlap.2⟩

/-- The byte behind a frame is the first one of the next frame, or not the pool's. -/
theorem Valid.owns_past (valid : pool.Valid memory) (spread : Spread memory.live)
    (member : base ∈ pool.listed memory) (past : addr = base + pool.frameLen) : pool.owns addr = true ↔
    addr ∈ pool.listed memory := by
  have sized : 0 < pool.frameLen := valid.geometry.frameLen_pos
  rw [valid.owns_iff spread]
  constructor
  · rintro ⟨other, member', low, high⟩
    simp only [frame] at low high
    have different : base ≠ other := by omega
    have apart := valid.frame_apart spread member member' different
    simp only [Extent.Apart, frame] at apart
    obtain rfl : addr = other := by omega
    exact member'
  · intro next
    exact ⟨addr, next, Nat.le_refl _, Nat.lt_add_of_pos_right sized⟩

/-- The byte before a frame is the last one of the frame before, or not the pool's. -/
theorem Valid.owns_before (valid : pool.Valid memory) (spread : Spread memory.live)
    (member : base ∈ pool.listed memory) (before : addr + 1 = base) : pool.owns addr = true ↔ ∃ other : Nat,
      other ∈ pool.listed memory ∧ other + pool.frameLen = base := by
  have sized : 0 < pool.frameLen := valid.geometry.frameLen_pos
  rw [valid.owns_iff spread]
  constructor
  · rintro ⟨other, member', low, high⟩
    simp only [frame] at low high
    have different : base ≠ other := by omega
    have apart := valid.frame_apart spread member member' different
    simp only [Extent.Apart, frame] at apart
    exact ⟨other, member', by omega⟩
  · rintro ⟨other, member', ends⟩
    refine ⟨other, member', ?_⟩
    simp only [Extent.Spans, frame]
    omega

/-- The frames that leave take their addresses with them, and the others keep theirs. -/
theorem Valid.owner?_narrowed {changed : Memory} {after : Pool} {gone : List Addr} (valid : pool.Valid memory)
    (spread : Spread memory.live) (valid' : after.Valid changed) (spread' : Spread changed.live)
    (geometry : after.geometry = pool.geometry)
    (split : (pool.listed memory).Perm (gone ++ after.listed changed)) (addr : Addr) :
    after.owner? addr = (pool.owner? addr).filter (· ∉ gone) := by
  obtain ⟨nodes, lists, -⟩ := valid.lists
  have distinct := split.nodup_iff.mp valid.nodup_listed
  have same : ∀ base, after.frame base = pool.frame base := by
    intro base
    rw [frame, frame, frameLen, frameLen, geometry]
  ext base
  rw [valid'.owner?_eq_some_iff spread', Option.filter_eq_some_iff, valid.owner?_eq_some_iff spread,
    split.mem_iff, List.mem_append, same, decide_eq_true_iff]
  constructor
  · rintro ⟨stays, spans⟩
    exact ⟨⟨.inr stays, spans⟩, fun left => List.disjoint_of_nodup_append distinct left stays⟩
  · rintro ⟨⟨among, spans⟩, stays⟩
    exact ⟨among.resolve_left stays, spans⟩

end Pool

namespace Session

variable [Host σ] [LawfulHost σ]
variable {session : Session σ ω} {pool candidate : Pool} {source other : Source} {base addr : Nat}

structure Located (session : Session σ ω) (source : Source) (pool : Pool) : Prop where
  chain : pool.frames.nodes session.memory = .ok (pool.listed session.memory)
  owner : ∀ addr base, pool.owner? addr = some base ↔ base ∈ pool.listed session.memory ∧
    (pool.frame base).Spans addr
  owns : ∀ addr, pool.owns addr = true ↔ ∃ base ∈ pool.listed session.memory, (pool.frame base).Spans addr
  single : ∀ addr other candidate, session.pool? other = some candidate → pool.owns addr = true →
    candidate.owns addr = true →
    other = source
  foreign : ∀ other candidate base addr, session.pool? other = some candidate → other ≠ source →
    base ∈ candidate.listed session.memory → (candidate.frame base).Spans addr → pool.owns addr = false
  before : ∀ base ∈ pool.listed session.memory, ∀ addr, addr + 1 = base →
    (pool.owns addr = true ↔ ∃ other : Nat, other ∈ pool.listed session.memory ∧ other + pool.frameLen = base)
  past : ∀ base ∈ pool.listed session.memory, ∀ addr, addr = base + pool.frameLen →
    (pool.owns addr = true ↔ addr ∈ pool.listed session.memory)

/-- How the lookup follows when frames have gone back to the host. -/
structure Narrowed (session : Session σ ω) (source : Source) (pool : Pool) (gone : List Addr)
    (after : Pool × Arena σ (Books ω)) : Prop where
  returned : Arena.Returned (gone.map fun base => (base, pageBytes session.arena.pageSize pool.frameLen))
    session.arena after.2
  split : (pool.listed session.memory).Perm (gone ++ after.1.listed after.2.machine.memory)
  owner : ∀ addr, after.1.owner? addr = (pool.owner? addr).filter (· ∉ gone)
  lost : ∀ base ∈ gone, ∀ addr, (pool.frame base).Spans addr → after.1.owns addr = false ∧
    ∀ other candidate, session.pool? other = some candidate → other ≠ source → candidate.owns addr = false

/-- Whatever is accounted for is a block that the host has given and not taken back. -/
theorem Sound.mem_given (sound : Sound session) {extent : Extent}
    (member : extent ∈ session.frames ++ session.held.map session.blockExtent) :
    extent ∈ Journal.live session.arena.machine.journal.events.toList :=
  sound.accounts.machine.journal.mem_iff.mpr (sound.accounts.live.mem_iff.mpr member)

theorem Sound.frame_within (sound : Sound session) (pool : Pool) (base : Nat) :
    Extent.Within (pool.frame base) (base, pageBytes session.arena.pageSize pool.frameLen) := by
  have fits := le_pageBytes sound.accounts.power pool.frameLen
  simp only [Extent.Within, Pool.frame]
  omega

theorem Sound.owns_single (sound : Sound session) (here : session.pool? source = some pool)
    (there : session.pool? other = some candidate) (owns : pool.owns addr = true)
    (owns' : candidate.owns addr = true) : other = source := by
  have spread := sound.accounts.machine.spread
  have valid := sound.valid_of here
  have valid' := sound.valid_of there
  obtain ⟨base, member, spans⟩ := (valid.owns_iff spread).mp owns
  obtain ⟨base', member', spans'⟩ := (valid'.owns_iff spread).mp owns'
  have owned := valid.mem_listed.mp member
  have claimed := valid'.mem_listed.mp member'
  by_cases same : base = base'
  · subst same
    exact sound.owner_unique there here claimed owned
  · have apart := sound.frames_apart here there owned claimed same
    exact (apart.not_spans (spans.mono (sound.frame_within pool base))
      (spans'.mono (sound.frame_within candidate base'))).elim

theorem Sound.owns_foreign (sound : Sound session) (here : session.pool? source = some pool)
    (there : session.pool? other = some candidate) (different : other ≠ source)
    (owns : candidate.owns addr = true) : pool.owns addr = false := by
  rw [← Bool.not_eq_true]
  intro owned
  exact different (sound.owns_single here there owned owns)

theorem Sound.finds (sound : Sound session) (here : session.pool? source = some pool) :
    Located session source pool := by
  have spread := sound.accounts.machine.spread
  have valid := sound.valid_of here
  constructor
  case chain => exact valid.chain_eq
  case owner => exact fun addr base => valid.owner?_eq_some_iff spread
  case owns => exact fun addr => valid.owns_iff spread
  case single => exact fun addr other candidate there => sound.owns_single here there
  case foreign =>
    intro other candidate base addr there different member spans
    exact sound.owns_foreign here there different
      (((sound.valid_of there).owns_iff spread).mpr ⟨base, member, spans⟩)
  case before => exact fun base member addr => valid.owns_before spread member
  case past => exact fun base member addr => valid.owns_past spread member

/-- Frames leave a pool when it is compacted and when a slot is released, and no others come. -/
private theorem Sound.narrowed {locked : List Extent} {gone : List Addr} {after : Pool × Arena σ (Books ω)}
    (sound : Sound session) (here : session.pool? source = some pool) (sound' : Pool.Sound locked after.1 after.2)
    (sheds : Pool.Sheds gone (pool, session.arena) after) : Narrowed session source pool gone after := by
  have spread := sound.accounts.machine.spread
  have valid := sound.valid_of here
  have split : (pool.listed session.memory).Perm (gone ++ after.1.listed after.2.machine.memory) := by
    rw [valid.listed_eq, sound'.valid.listed_eq]
    exact sheds.split
  have owner := valid.owner?_narrowed spread sound'.valid sound'.spread sheds.geometry split
  refine ⟨sheds.returned, split, owner,
    fun base left addr spans => ⟨?_, fun other candidate there different => ?_⟩⟩
  · have old : pool.owner? addr = some base :=
      (valid.owner?_eq_some_iff spread).mpr ⟨split.mem_iff.mpr (List.mem_append_left _ left), spans⟩
    rw [Pool.owns, owner, old, Option.filter_some, if_neg (by simpa using left)]
    rfl
  · have owned : pool.owns addr = true :=
      (valid.owns_iff spread).mpr ⟨base, split.mem_iff.mpr (List.mem_append_left _ left), spans⟩
    exact sound.owns_foreign there here different.symm owned

/-- A pool finds a frame for an address just when one of its chain spans it, and finds that one. No other pool
finds one, and none is found any more once the frame has gone back, because the pool was compacted or a
release was due to. -/
theorem Attained.locates (attained : Attained session) (here : session.pool? source = some pool) :
    Located session source pool ∧
    (∃ count gone after, Pool.compact (pool, session.arena) = .ok count after ∧
      Narrowed session source pool gone after ∧
      after.1.listed after.2.machine.memory =
        Pool.survivors (session.busy source pool) (pool.listed session.memory)) ∧
    ∀ addr, session.HandedOut source addr →
      ∃ gone after, Pool.release addr (pool, session.arena) = .ok () after ∧
        Narrowed session source pool gone after := by
  have sound := attained.sound
  obtain ⟨locked, focused⟩ := sound.focus here
  refine ⟨sound.finds here, ?_, fun addr taken => ?_⟩
  · obtain ⟨count, after, ran, compacts⟩ := sound.compacts here
    obtain ⟨compacted, -⟩ := focused.compact_spec.of_ok ran
    obtain ⟨gone, sheds⟩ := focused.compact_sheds.of_ok ran
    refine ⟨count, gone, after, ran, sound.narrowed here compacted.sound sheds, ?_⟩
    exact Except.ok.inj (compacted.sound.valid.chain_eq.symm.trans compacts.shed.left)
  · have held := (sound.handedOut_iff here).mp taken
    obtain ⟨_, after, ran, sound', -⟩ := (focused.release_spec held).exists_ok
    obtain ⟨gone, sheds⟩ := (focused.release_sheds held).of_ok ran
    exact ⟨gone, after, ran, sound.narrowed here sound' sheds⟩

/-- Two pools in one arena, the first one with frames in use on either side of an idle one. -/
theorem locates_of_thinned : ∃ (session : Session (Quota Kernel) (Option Addr)) (pool : Pool),
    replay fourPages .standard none thinned = some session ∧ session.pool? (.dedicated 0) = some pool ∧
      pool.owner? 0x20000000fff = some 0x20000000000 ∧ pool.owns 0x20000001000 = false ∧
      pool.owns 0x1ffffffffff = false ∧
      pool.owns 0x40000000030 = false ∧ Located session (.dedicated 0) pool ∧
      ∃ count gone after, Pool.compact (pool, session.arena) = .ok count after ∧
        Narrowed session (.dedicated 0) pool gone after ∧
        after.1.listed after.2.machine.memory = [0x20000000000] := by
  have ended :
      ((replay fourPages .standard none thinned).bind fun session =>
        (session.pool? (.dedicated 0)).map fun pool =>
      (pool.owner? 0x20000000fff, pool.owns 0x20000001000, pool.owns 0x1ffffffffff, pool.owns 0x40000000030,
        Pool.survivors (session.busy (.dedicated 0) pool) (pool.listed session.memory))) =
      some (some 0x20000000000, false, false, false, [0x20000000000]) := by
    decide +kernel
  obtain ⟨session, replayed, ended⟩ := Option.bind_eq_some_iff.mp ended
  obtain ⟨pool, here, ended⟩ := Option.map_eq_some_iff.mp ended
  simp only [Prod.mk.injEq] at ended
  obtain ⟨inside, past, before, foreign, left⟩ := ended
  have attained : Attained session :=
    (Reachable.of_replay fourPages_fresh (by decide) (by decide) replayed).attained
  obtain ⟨located, ⟨count, gone, after, ran, narrowed, listed⟩, -⟩ := attained.locates here
  exact ⟨session, pool, replayed, here, inside, past, before, foreign, located, count, gone, after, ran, narrowed,
    listed.trans left⟩

end Session
end SlabAllocator
