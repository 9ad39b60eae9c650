import SlabAllocator.Proofs.Holdings
import SlabAllocator.Proofs.Reachable

/-! The bytes of a client. They go along when a block is moved, they stay when it cannot be moved,
and nothing that happens to one block reaches the bytes of another. -/

namespace SlabAllocator.Session

variable [Host σ] [LawfulHost σ]
variable {session before after : Session σ ω} {grant : Grant} {kind : Option Nat} {extent block : Extent}
  {size addr newSize moved : Nat}

def grant? (session : Session σ ω) (size addr : Nat) : Option Grant :=
  session.find? (session.allocator.class? size) size addr

def grantExtent (session : Session σ ω) : Grant → Extent
  | .slot slot => session.slotExtent slot
  | .block block => session.blockExtent block

/-- How the bytes of the client fare, whatever is done next. -/
structure Preserves (session : Session σ ω) : Prop where
  whole : ∀ extent ∈ session.handedOut, (session.memory.read extent.1 extent.2).length = extent.2
  moves : ∀ size addr newSize moved after, realloc size addr newSize session = .ok (some (.ok moved)) after →
    (after.grant? newSize moved).isSome ∧ (after.memory.read moved (min size newSize)).length = min size newSize ∧
      after.memory.read moved (min size newSize) = session.memory.read addr (min size newSize)
  stays : ∀ size addr newSize error after, realloc size addr newSize session = .ok (some (.error error)) after →
    ∃ grant, session.grant? size addr = some grant ∧ after.grant? size addr = some grant ∧
      after.grantExtent grant = session.grantExtent grant ∧ Unchanged session after (session.grantExtent grant)
  others : ∀ op after, step op session = .ok () after → Kept op.target session after
  /-- A slot leaves the client's hands only when it is passed back. -/
  held : ∀ op after, step op session = .ok () after → ∀ slot ∈ session.slots, ¬ op.LetsGo slot →
    slot ∈ after.slots

omit [LawfulHost σ] [Host σ] in
private theorem Changes.grant?_eq (changes : Changes before after) (size addr : Nat) :
    after.grant? size addr = after.find? (before.allocator.class? size) size addr := by
  rw [grant?, Allocator.class?_congr changes.policy]

omit [LawfulHost σ] [Host σ] in
private theorem Kept.grant_same (kept : Kept none before after) (found : before.find? kind size addr = some grant)
    (found' : after.find? kind size addr = some grant) :
    after.grantExtent grant = before.grantExtent grant ∧ Unchanged before after (before.grantExtent grant) := by
  rcases find?_spec found with ⟨index, rfl, rfl, member⟩ | ⟨block, rfl, rfl, member, -⟩
  · rcases find?_spec found' with ⟨_, _, -, member'⟩ | ⟨_, absurd, -⟩
    · exact (kept.slots _ member (by simp_all)).imp_right fun same => same nofun
    · cases absurd
  · rcases find?_spec found' with ⟨_, absurd, -⟩ | ⟨_, -, same, member', -⟩
    · cases absurd
    · cases same
      exact (kept.blocks _ member member').imp_right fun same => same nofun

private theorem Sound.length_read (sound : Sound session)
    (live : block ∈ session.frames ++ session.held.map session.blockExtent)
    (within : Extent.Within extent block) : (session.memory.read extent.1 extent.2).length = extent.2 := by
  obtain ⟨content, found, len⟩ := sound.accounts.find live
  unfold Extent.Within at within
  exact Memory.length_read sound.accounts.machine.spread found within.1 (by rw [len]; exact within.2)

theorem Reachable.preserves (reachable : Reachable session) : Preserves session := by
  have sound := reachable.sound
  refine ⟨fun extent member => ?_, fun size addr newSize moved after ran => ?_,
    fun size addr newSize error after ran => ?_, fun op after stepped => ((sound.step_spec op).of_ok stepped).2.1,
    fun op after stepped slot member other => (step_leaves member op other).of_ok stepped⟩
  · rcases List.mem_append.mp member with fromSlot | fromBlock
    · obtain ⟨slot, inHand, rfl⟩ := List.mem_map.mp fromSlot
      obtain ⟨pool, base, here, owned, -, within⟩ := sound.frame_of inHand
      exact sound.length_read (List.mem_append_left _ (mem_frames here owned)) within
    · exact sound.length_read (List.mem_append_right _ fromBlock) ⟨Nat.le_refl _, Nat.le_refl _⟩
  · obtain ⟨⟨-, changes⟩, found, read⟩ := (sound.realloc_spec size addr newSize).of_ok ran
    rw [changes.grant?_eq]
    exact ⟨found, read⟩
  · obtain ⟨⟨sound', changes⟩, grant, found, found'⟩ := (sound.realloc_spec size addr newSize).of_ok ran
    rw [changes.grant?_eq]
    exact ⟨grant, found, found', (changes.kept sound sound').grant_same found found'⟩

theorem preserves_of_trading : ∃ session : Session (Quota Kernel) (Option Addr),
    replay fourPages .standard none trading = some session ∧
      session.slots = [⟨.registry 2, 0x20000000040, 24⟩] ∧ session.held = [⟨3, 0x30000000000, 9000⟩] ∧
      Preserves session := by
  have ended : (replay fourPages .standard none trading).map (fun session => (session.slots, session.held)) =
      some ([⟨.registry 2, 0x20000000040, 24⟩], [⟨3, 0x30000000000, 9000⟩]) := by
    decide +kernel
  obtain ⟨session, replayed, inHand⟩ := Option.map_eq_some_iff.mp ended
  obtain ⟨slots, held⟩ := Prod.mk.inj inHand
  exact ⟨session, replayed, slots, held,
    Reachable.preserves (.of_replay fourPages_fresh (by decide) (by decide) replayed)⟩

end SlabAllocator.Session
