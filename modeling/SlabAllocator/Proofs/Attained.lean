import SlabAllocator.Proofs.Layout
import SlabAllocator.Proofs.Reachable

/-! Sessions whose client also makes pools by hand. Such a pool counts in pages of its own and compacts
at an interval of its own, whatever the host and the policy say, and then takes part in the session like the others. -/

namespace SlabAllocator.Session

/-- Takes in a pool that the client made by hand, unless it was refused. -/
def adopt (entitySize pageSize interval : Nat) (session : Session σ ω) : Option (Session σ ω) :=
  match Pool.create entitySize pageSize interval session.arena with
  | .ok (.ok pool) arena =>
    some ⟨{ session.allocator with arena }, session.dedicated.push (some pool), session.slots⟩
  | _ => none

def HandedOut (session : Session σ ω) (source : Source) (addr : Addr) : Prop :=
  ∃ slot ∈ session.slots, slot.source = source ∧ slot.addr = addr

instance (session : Session σ ω) (source : Source) (addr : Addr) : Decidable (session.HandedOut source addr) :=
  inferInstanceAs (Decidable (∃ slot ∈ session.slots, slot.source = source ∧ slot.addr = addr))

variable [Host σ] [LawfulHost σ]
variable {session : Session σ ω} {pool : Pool} {source : Source}

/-- The sessions that a client reaches when it makes pools by hand, too. -/
inductive Attained : Session σ ω → Prop
  | start {host : σ} {policy : Policy} {env : ω} {session : Session σ ω}
    (starts : Starts host policy env session) :
    Attained session
  | step {before after : Session σ ω} {op : Op ω} (attained : Attained before)
    (stepped : Session.step op before = .ok () after) : Attained after
  | adopt {before after : Session σ ω} {entitySize pageSize interval : Nat} (attained : Attained before)
    (word : interval < Size.bound) (adopted : before.adopt entitySize pageSize interval = some after) :
    Attained after

theorem Reachable.attained (reachable : Reachable session) : Attained session := by
  induction reachable with
  | start starts => exact .start starts
  | step _ stepped attained => exact .step attained stepped

omit [LawfulHost σ] [Host σ] in
/-- Nothing else changes when a pool is taken in. -/
theorem adopt_spec {after : Session σ ω} {entitySize pageSize interval : Nat}
    (adopted : session.adopt entitySize pageSize interval = some after) :
    ∃ fresh arena, Pool.create entitySize pageSize interval session.arena = .ok (.ok fresh) arena ∧
      after = ⟨{ session.allocator with arena }, session.dedicated.push (some fresh), session.slots⟩ := by
  unfold adopt at adopted
  split at adopted
  next fresh arena created => exact ⟨fresh, arena, created, (Option.some.inj adopted).symm⟩
  next => cases adopted

theorem Sound.adopt {after : Session σ ω} {entitySize pageSize interval : Nat} (sound : Sound session)
    (word : interval < Size.bound) (adopted : session.adopt entitySize pageSize interval = some after) :
    Sound after := by
  obtain ⟨fresh, arena, created, rfl⟩ := adopt_spec adopted
  obtain ⟨accounts, quiet, paged, memory, valid, empty, -⟩ :=
    (Pool.create_spec sound.pools.accounts (Pool.pos_of_create created) word entitySize).of_ok created
  exact (sound.push accounts quiet paged memory (valid _) empty).1

theorem Sound.adopt_kept {after : Session σ ω} {entitySize pageSize interval : Nat} (sound : Sound session)
    (word : interval < Size.bound) (adopted : session.adopt entitySize pageSize interval = some after) :
    after.arena.pageSize = session.arena.pageSize ∧ after.memory = session.memory := by
  obtain ⟨fresh, arena, created, rfl⟩ := adopt_spec adopted
  obtain ⟨-, -, paged, memory, -⟩ :=
    (Pool.create_spec sound.pools.accounts (Pool.pos_of_create created) word entitySize).of_ok created
  exact ⟨paged, memory⟩

theorem Attained.sound (attained : Attained session) : Sound session := by
  induction attained with
  | start starts => exact starts.sound
  | step _ stepped sound => exact ((sound.step_spec _).of_ok stepped).1
  | adopt _ word adopted sound => exact sound.adopt word adopted

theorem Attained.run {after : Session σ ω} (attained : Attained session) {ops : List (Op ω)}
    (ran : Session.run ops session = .ok () after) : Attained after := by
  induction ops generalizing session with
  | nil =>
    cases ran
    exact attained
  | cons op rest ih =>
    simp only [Session.run, bind, EStateM.bind] at ran
    split at ran
    next stepped => exact ih (.step attained stepped) ran
    next => cases ran

/-- A pool in the arena of its session. Everything else there is locked. -/
theorem Sound.focus (sound : Sound session) (here : session.pool? source = some pool) :
    ∃ locked, Pool.Sound locked pool session.arena := by
  cases source with
  | registry index => exact ⟨_, sound.registry.entries.focus (Option.join_eq_some_iff.mp here)⟩
  | dedicated number => exact ⟨_, sound.pools.focus (Option.join_eq_some_iff.mp here)⟩

theorem Sound.handedOut_iff (sound : Sound session) (here : session.pool? source = some pool) {addr : Addr} :
    session.HandedOut source addr ↔ addr ∈ pool.live session.memory := by
  rw [← live_eq here, (sound.ledger source).mem_iff]
  simp only [HandedOut, slotsOf, List.mem_map, List.mem_filter, decide_eq_true_eq, and_assoc]

/-- A session with a pool of two slots a frame, in pages that no host has, and a hole in the first frame. -/
def handmade : Option (Session (Quota Kernel) (Option Addr)) :=
  (replay fourPages .standard none []).bind fun begun =>
    (begun.adopt 40 100 3).bind fun session =>
      match run [.poolAcquire 0, .poolAcquire 0, .poolAcquire 0, .poolAcquire 0, .poolAcquire 0,
          .poolRelease 0 0x10000000058] session with
      | .ok _ after => some after
      | .error .. => none

theorem attained_of_handmade {session : Session (Quota Kernel) (Option Addr)} (made : handmade = some session) :
    Attained session := by
  obtain ⟨begun, replayed, made⟩ := Option.bind_eq_some_iff.mp made
  obtain ⟨adopted, taken, made⟩ := Option.bind_eq_some_iff.mp made
  have start : Attained begun := (Reachable.of_replay fourPages_fresh (by decide) (by decide) replayed).attained
  split at made
  next ran =>
    cases made
    exact (Attained.adopt start (by decide) taken).run ran
  next => cases made

end SlabAllocator.Session
