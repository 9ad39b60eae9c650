import SlabAllocator.Proofs.Attained
import SlabAllocator.Proofs.Layers

/-! What the counters of an arena make of a block that is handed out and given back. A block of the host is
counted when it comes and when it goes. One that a hook answers with is counted when it goes, whoever brought it. -/

namespace SlabAllocator

namespace Arena

variable {arena before middle after : Arena σ ω} {size oldSize newSize len oldLen newLen addr : Nat}

theorem Inquired.gained (asked : Inquired before middle) (gained : Gained len middle after) :
    Gained len before after := by
  obtain ⟨host, journal, rfl⟩ := asked
  exact ⟨gained.liveBlocks, gained.mappedBytes⟩

theorem blockLen_congr (same : after.pageSize = before.pageSize) (size : Nat) :
    after.blockLen size = before.blockLen size := by
  rw [blockLen, same, blockLen]

variable [Host σ]

theorem request_gained (size : Nat) (arena : Arena σ ω) :
    (request size).Meets arena
      (fun granted after => granted.isSome → ∃ len, after.blockLen size = .ok (some len) ∧ Gained len arena after)
      fun _ _ => True := by
  simp only [request, onMachine, Run.meets_bind, Run.meets_get]
  refine Run.meets_lift_any fun len? fits => ?_
  cases len? with
  | none =>
    simp only [Run.meets_pure]
    rintro ⟨⟩
  | some len =>
    simp only [Run.meets_bind, Run.meets_focus]
    refine .any fun granted machine => ?_
    cases granted with
    | none =>
      simp only [Run.meets_pure]
      rintro ⟨⟩
    | some base =>
      simp only [Run.meets_bind, Run.meets_pure]
      refine (recordMapped_counts len _).mono ?_ fun _ _ _ => trivial
      rintro _ after ⟨gained, -, paged⟩ -
      exact ⟨len, (blockLen_congr paged size).trans fits, gained.liveBlocks, gained.mappedBytes⟩

theorem release_impossible (none : after.blockLen size = .ok none) :
    release size addr after = .error .violated after := by
  rw [release, Run.get_bind, none]
  rfl

/-- What becomes of the counters when a block goes back, and the host takes it or leaves it. -/
theorem release_ends_iff {machine : Machine σ} (counters : Nat → Nat → Prop)
    (fits : after.blockLen size = .ok (some len))
    (gone : Machine.giveBack addr len after.machine = .ok () machine) :
    ((release size addr).Ends after fun _ final => counters final.stats.liveBlocks final.stats.mappedBytes) ↔
      ∃ blocks bytes, after.stats.liveBlocks = blocks + 1 ∧ after.stats.mappedBytes = bytes + len ∧
        counters blocks bytes := by
  have unmapped := recordUnmapped_counts len { after with machine }
  constructor
  · intro ends
    obtain ⟨_, final, ran, kept⟩ := ends.exists_ok
    have gained := ((release_counts fits).of_ok ran).1
    exact ⟨_, _, gained.liveBlocks, gained.mappedBytes, kept⟩
  · rintro ⟨blocks, bytes, live, mapped, kept⟩
    simp only [release, onMachine, Run.meets_bind, Run.meets_get, Run.meets_lift fits, Run.meets_focus]
    refine .ended gone (unmapped.mono ?_ ?_)
    · rintro _ final ⟨⟨fewer, less⟩, -⟩
      simp only [live, mapped] at fewer less
      rwa [Nat.succ.inj fewer, Nat.add_right_cancel less] at kept
    · rintro fault final ⟨-, none⟩
      simp only [live, mapped] at none
      omega

def Recovered (size : Nat) (addr : Addr) (before after : Arena σ ω) : Prop :=
  ∃ hook begun ended, before.hook = some hook ∧ Undisturbed before begun ∧
    runProgram (acquireWithin (hook.depth - 1)) size hook.program begun = .ok (some addr) ended ∧
    Undisturbed ended after

structure Brought (size : Nat) (addr : Addr) (before after : Arena σ ω) : Prop where
  footing : after.footing = before.footing
  origin : (∃ len, after.blockLen size = .ok (some len) ∧ Gained len before after) ∨
    Recovered size addr before after
  /-- It goes back, and then the counters are as they were before, just if it is counted. -/
  restores : ∀ len machine, after.blockLen size = .ok (some len) →
    Machine.giveBack addr len after.machine = .ok () machine →
      ((release size addr).Ends after (fun _ final =>
        final.stats.liveBlocks = before.stats.liveBlocks ∧ final.stats.mappedBytes = before.stats.mappedBytes) ↔
      Gained len before after)
  /-- Only a hook answers to a size that no block has, and its block cannot go back. -/
  impossible : after.blockLen size = .ok none → release size addr after = .error .violated after

theorem acquire_brings (acquired : acquire size before = .ok (.ok addr) after) :
    Brought size addr before after := by
  refine ⟨(conserves_acquire size before).of_ok acquired, ?_, fun len machine fits gone => ?_, release_impossible⟩
  · generalize outcome : (.ok addr : Outcome) = result at acquired
    cases (acquire_resolves size before).of_ok acquired with
    | served granted =>
      cases outcome
      exact .inl ((request_gained size before).of_ok granted rfl)
    | unaided => cases outcome
    | @answered hook answer begun ended _ installed start ran finish =>
      cases answer with
      | none => cases outcome
      | some block =>
        cases outcome
        exact .inr ⟨hook, begun, ended, installed, start, ran, finish⟩
  · rw [release_ends_iff (fun blocks bytes => blocks = before.stats.liveBlocks ∧
      bytes = before.stats.mappedBytes) fits gone]
    constructor
    · rintro ⟨_, _, live, mapped, rfl, rfl⟩
      exact ⟨live, mapped⟩
    · rintro ⟨live, mapped⟩
      exact ⟨_, _, live, mapped, rfl, rfl⟩

structure Traded (oldSize newSize : Nat) (addr : Addr) (before after : Arena σ ω) : Prop where
  footing : after.footing = before.footing
  origin : ∃ oldLen, before.blockLen oldSize = .ok (some oldLen) ∧
    ((∃ newLen, after.blockLen newSize = .ok (some newLen) ∧ Exchanged oldLen newLen before after) ∨
      ∃ asked recovered, Inquired before asked ∧ Recovered newSize addr asked recovered ∧
        Gained oldLen after recovered)
  restores : ∀ oldLen newLen machine, 1 ≤ before.stats.liveBlocks → oldLen ≤ before.stats.mappedBytes →
    after.blockLen newSize = .ok (some newLen) → Machine.giveBack addr newLen after.machine = .ok () machine →
      ((release newSize addr).Ends after (fun _ final => Gained oldLen final before) ↔
        Exchanged oldLen newLen before after)
  impossible : after.blockLen newSize = .ok none → release newSize addr after = .error .violated after

private theorem replaceWith_trades {asked : Arena σ ω} {block : Addr} (first : Inquired before asked)
    (old : before.blockLen oldSize = .ok (some oldLen)) :
    (replaceWith acquire oldSize block newSize).Meets asked
      (fun outcome after => ∀ addr, outcome = .ok addr →
        (∃ newLen, after.blockLen newSize = .ok (some newLen) ∧ Exchanged oldLen newLen before after) ∨
          ∃ asked recovered, Inquired before asked ∧ Recovered newSize addr asked recovered ∧
            Gained oldLen after recovered)
      fun _ _ => True := by
  have anyhow : (acquire newSize).Meets asked (fun _ _ => True) fun _ _ => True := .any fun _ _ => trivial
  simp only [replaceWith, Run.meets_bind]
  refine anyhow.traced.mono ?_ fun _ _ _ => trivial
  rintro outcome middle ⟨ran, -⟩
  cases outcome with
  | error error =>
    simp only [Run.meets_pure]
    rintro _ ⟨⟩
  | ok fresh =>
    have brought := acquire_brings ran
    have paged : middle.pageSize = before.pageSize :=
      (congrArg Prod.fst brought.footing).trans first.undisturbed.paged
    simp only [memory, setMemory, Machine.setMemory, onMachine, Run.meets_bind, Run.meets_get, Run.meets_focus,
      Run.meets_modify, Run.meets_pure]
    refine .mono (release_counts ((blockLen_congr paged oldSize).trans old)) ?_ fun _ _ _ => trivial
    rintro _ after ⟨⟨blocks, bytes⟩, paged', -⟩ _ ⟨⟩
    rcases brought.origin with ⟨newLen, new, gained⟩ | recovered
    · exact .inl ⟨newLen, (blockLen_congr paged' newSize).trans new,
        (first.gained gained).exchange ⟨blocks, bytes⟩⟩
    · exact .inr ⟨asked, middle, first, recovered, blocks, bytes⟩

theorem resize_trades {block : Addr} (resized : resize oldSize block newSize before = .ok (.ok addr) after) :
    Traded oldSize newSize addr before after := by
  have footing := (conserves_resize oldSize block newSize before).of_ok resized
  have paged : after.pageSize = before.pageSize := congrArg Prod.fst footing
  refine ⟨footing, ?_, fun oldLen newLen machine counted mapped fits gone => ?_, release_impossible⟩
  · rw [resize, resizeWith_eq] at resized
    cases settled : resizeInPlace oldSize block newSize before with
    | error fault middle =>
      rw [Run.bind_error settled] at resized
      cases resized
    | ok found middle =>
      rw [Run.bind_ok settled] at resized
      have placed := ((resizeInPlace_counts oldSize block newSize before).of_ok settled).2
      cases placed with
      | impossible => cases resized
      | settled old new exchanged =>
        cases resized
        exact ⟨_, old, .inl ⟨_, (blockLen_congr paged newSize).trans new, exchanged⟩⟩
      | denied old asked => exact ⟨_, old, (replaceWith_trades asked old).of_ok resized addr rfl⟩
  · have back := release_ends_iff
      (fun blocks bytes => before.stats.liveBlocks = blocks + 1 ∧
        before.stats.mappedBytes = bytes + oldLen) fits gone
    constructor
    · intro ends
      obtain ⟨blocks, bytes, live, all, live', all'⟩ :=
        back.mp (ends.imp fun _ _ gained => ⟨gained.liveBlocks, gained.mappedBytes⟩)
      exact ⟨by omega, by omega⟩
    · rintro ⟨blocks, bytes⟩
      have ends := back.mpr ⟨before.stats.liveBlocks - 1, before.stats.mappedBytes - oldLen, by omega⟩
      exact ends.imp fun _ _ gained => ⟨gained.1, gained.2⟩

end Arena

namespace Session

variable [Host σ] [LawfulHost σ] {session : Session σ ω}

/-- A block that the client got by the rules of the books, from whatever hook, can be given back. -/
theorem Sound.release_gained (sound : Sound session) {block : Holding} (member : block ∈ session.held) :
    (release block.size block.addr).Ends session fun _ after =>
      Arena.Gained (pageBytes session.arena.pageSize block.size) after.arena session.arena := by
  have listed : (session.find? none block.size block.addr).isSome := by
    rw [find?, Books.find?, Option.isSome_map, List.find?_isSome]
    exact ⟨block, member, by simp only [BEq.rfl, Bool.and_self]⟩
  obtain ⟨grant, found⟩ := Option.isSome_iff_exists.mp listed
  rcases find?_spec found with ⟨_, ⟨⟩, -⟩ | ⟨other, -, rfl, member', size, addr⟩
  have accounts := (sound.dropBlock member').owns.sound.entries.accounts.perm List.perm_middle
  rw [size, addr] at accounts
  have short := (accounts.proper (List.mem_append_left _ List.mem_cons_self)).2.2
  have fits := Arena.blockLen_eq accounts.power block.size
  rw [if_pos short] at fits
  simp only [release, onArena, onAllocator, Allocator.onArena, found, Run.meets_bind, Run.meets_get,
    Run.meets_modify, Run.meets_focus]
  refine (accounts.release_spec.and (Arena.release_counts fits)).mono ?_ fun _ _ stopped => stopped.1
  rintro _ after ⟨-, gained, -⟩
  exact ⟨gained.liveBlocks, gained.mappedBytes⟩

/-- Whatever the hooks are, the counters follow the calls, so a block goes back as if it had never come just
if it is counted. While hooks pass on blocks of the arena only, every block is. -/
theorem balances :
    (∀ size addr (before after : Arena σ ω),
      Arena.acquire size before = .ok (.ok addr) after → Arena.Brought size addr before after) ∧
    (∀ oldSize block newSize addr (before after : Arena σ ω),
      Arena.resize oldSize block newSize before = .ok (.ok addr) after →
      Arena.Traded oldSize newSize addr before after) ∧
    (∀ ops (before after : Session σ ω), run ops before = .ok () after →
      after.arena.footing = before.arena.footing) ∧
    ∀ session : Session σ ω, Attained session →
      session.arena.stats.liveBlocks = session.frames.length + session.held.length ∧
      ∀ block ∈ session.held, (release block.size block.addr).Ends session fun _ after =>
        Arena.Gained (pageBytes session.arena.pageSize block.size) after.arena session.arena := by
  refine ⟨fun _ _ _ _ => Arena.acquire_brings, fun _ _ _ _ _ _ => Arena.resize_trades,
    fun ops before _ ran => (conserves_run ops before).of_ok ran, fun session attained => ⟨?_, fun block => ?_⟩⟩
  · have accounts := attained.sound.accounts
    rw [accounts.liveBlocks, accounts.live.length_eq, List.length_append, List.length_map]
    rfl
  · exact attained.sound.release_gained

theorem balances_of_trading :
    (∃ after moved : Arena (Quota Kernel) (Books (Option Addr)),
      Arena.acquire 8192 (.new (.new fourPages) (.new none)) = .ok (.ok 0x10000000000) after ∧
      Arena.Brought 8192 0x10000000000 (.new (.new fourPages) (.new none)) after ∧
      Arena.resize 8192 0x10000000000 5000 after = .ok (.ok 0x10000000000) moved ∧
      Arena.Traded 8192 5000 0x10000000000 after moved) ∧
    ∃ begun session : Session (Quota Kernel) (Option Addr),
      start fourPages .standard none = .ok (.ok begun) ∧ run trading begun = .ok () session ∧
      session.arena.footing = begun.arena.footing ∧
      session.arena.stats.liveBlocks = session.frames.length + session.held.length ∧
      ∃ block ∈ session.held, block.size = 9000 ∧ (release block.size block.addr).Ends session fun _ after =>
        Arena.Gained (pageBytes session.arena.pageSize block.size) after.arena session.arena := by
  have ended : (replay fourPages .standard none trading).map (·.held.map Holding.size) = some [9000] := by
    decide +kernel
  obtain ⟨session, replayed, sizes⟩ := Option.map_eq_some_iff.mp ended
  obtain ⟨block, held, size⟩ := List.map_eq_singleton_iff.mp sizes
  obtain ⟨begun, started, ran⟩ := replay_spec replayed
  have attained : Attained session :=
    (Reachable.of_replay fourPages_fresh (by decide) (by decide) replayed).attained
  have member : block ∈ session.held := held ▸ List.mem_singleton_self block
  refine ⟨⟨_, _, rfl, balances.1 _ _ _ _ rfl, rfl, balances.2.1 _ _ _ _ _ _ rfl⟩, begun, session, started, ran,
    balances.2.2.1 _ _ _ ran, (balances.2.2.2 session attained).1, block, member, size, ?_⟩
  exact (balances.2.2.2 session attained).2 block member

end Session

/-- An arena of one page with a hook that has a block of its own. -/
def indebted : Arena (Quota Kernel) Unit :=
  { Arena.new (Machine.new (.new .new 4096)) () with hook := some ⟨[.answer fun _ => some 64]⟩ }

/-- The block of the hook is handed out uncounted, and cannot be given back. -/
theorem indebted_overdraws : ∃ after final, Arena.acquire 8192 indebted = .ok (.ok 64) after ∧
    after.stats.liveBlocks = 0 ∧
    Arena.release 8192 64 after = .error .overflow final :=
  ⟨_, _, rfl, rfl, rfl⟩

end SlabAllocator
