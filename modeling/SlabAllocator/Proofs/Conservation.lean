import SlabAllocator.Proofs.Resolution

/-! The counters of an arena follow its calls to the host: a request that was granted is added and a block that
went back is taken off, whether the host knew it or not. Nothing a client or a hook does comes between the two. -/

namespace SlabAllocator

/-- Wherever the run ends this is as it was, and also where it stops, unless a number left its range. -/
abbrev Run.Conserves (view : σ → β) (run : Run σ α) : Prop :=
  run.Upholds view fun before fault after => fault = .overflow ∨ after = before

namespace Run.Conserves
variable {view : σ → β}

theorem throw {fault : Fault} : (throw fault : Run σ α).Conserves view :=
  Upholds.throw fun _ => .inr rfl

theorem lift {checked : Checked α} : (liftM checked : Run σ α).Conserves view :=
  Upholds.lift fun _ _ _ => .inr rfl

theorem focus {part : σ → τ} {place : τ → σ → σ} {inner : τ → γ} {action : Run τ α}
    (kept : action.Conserves inner) (same : ∀ state after, inner after = inner (part state) →
      view (place after state) = view state) :
    (Run.focus part place action).Conserves view :=
  Upholds.focus kept same fun state _ after stopped => stopped.imp_right (same state after)

end Run.Conserves

def Event.blocks : Event → Int
  | .request _ (some _) => 1
  | .giveBack .. => -1
  | _ => 0

def Event.bytes : Event → Int
  | .request len (some _) => len
  | .resize _ oldLen newLen (some _) => newLen - oldLen
  | .giveBack _ len _ => -len
  | _ => 0

namespace Journal

def blocks (journal : Journal) : Int :=
  journal.events.toList.foldl (fun total event => total + event.blocks) 0

def bytes (journal : Journal) : Int :=
  journal.events.toList.foldl (fun total event => total + event.bytes) 0

theorem blocks_note (journal : Journal) (event : Event) :
    (journal.note event).blocks = journal.blocks + event.blocks := by
  rw [blocks, events_note, List.foldl_concat, blocks]

theorem bytes_note (journal : Journal) (event : Event) :
    (journal.note event).bytes = journal.bytes + event.bytes := by
  rw [bytes, events_note, List.foldl_concat, bytes]

end Journal

namespace Machine

variable [Host σ]

theorem request_noted (len : Nat) (machine : Machine σ) :
    (request len).Meets machine (fun granted after => after.journal = machine.journal.note (.request len granted))
      fun _ after => after.journal = machine.journal := by
  simp only [request, onHost, Run.meets_bind, Run.meets_focus]
  refine .all (fun granted host => ?_) fun _ _ => trivial
  cases granted <;>
  · simp only [note, setMemory, Run.meets_bind, Run.meets_get, Run.meets_modify, Run.meets_pure]

theorem resize_noted (base : Addr) (oldLen newLen : Nat) (machine : Machine σ) :
    (resize base oldLen newLen).Meets machine
      (fun moved after => after.journal = machine.journal.note (.resize base oldLen newLen moved) ∧
        (moved = none → after.memory = machine.memory))
      fun _ after => after.journal = machine.journal := by
  simp only [resize, Run.meets_bind, Run.meets_get]
  split
  · simp only [onHost, Run.meets_bind, Run.meets_focus]
    refine .all (fun moved host => ?_) fun _ _ => trivial
    cases moved with
    | none =>
      simp only [note, Run.meets_bind, Run.meets_modify, Run.meets_pure]
      exact ⟨trivial, fun _ => trivial⟩
    | some target =>
      simp only [note, setMemory, Run.meets_bind, Run.meets_get, Run.meets_modify, Run.meets_pure]
      refine ⟨trivial, ?_⟩
      rintro ⟨⟩
  · simp only [note, Run.meets_bind, Run.meets_modify, Run.meets_pure]
    exact ⟨trivial, fun _ => trivial⟩

theorem giveBack_noted (base : Addr) (len : Nat) (machine : Machine σ) :
    (giveBack base len).Meets machine (fun _ after => ∃ known, after.journal =
      machine.journal.note (.giveBack base len known))
      fun _ after => after.journal = machine.journal := by
  simp only [giveBack, Run.meets_bind, Run.meets_get]
  split
  · simp only [onHost, note, setMemory, Run.meets_bind, Run.meets_focus, Run.meets_get, Run.meets_modify]
    exact .all (fun _ _ => ⟨_, rfl⟩) fun _ _ => trivial
  · simp only [note, Run.meets_modify]
    exact ⟨_, rfl⟩

theorem protect_noted (base : Addr) (len : Nat) (mode : Protection) (machine : Machine σ) :
    (protect base len mode).Meets machine
      (fun changed after => after.journal = machine.journal.note (.protect base len mode changed))
      fun _ after => after.journal = machine.journal := by
  simp only [protect, Run.meets_bind, Run.meets_get]
  split
  · simp only [onHost, Run.meets_bind, Run.meets_focus]
    refine .all (fun changed host => ?_) fun _ _ => trivial
    cases changed <;>
    · simp only [note, setMemory, Run.meets_bind, Run.meets_get, Run.meets_modify, Run.meets_pure, if_true,
        if_false, Bool.false_eq_true]
  · simp only [note, Run.meets_bind, Run.meets_modify, Run.meets_pure, if_false, Bool.false_eq_true]

end Machine

namespace Arena

/-- What the counters know of beyond the calls that the arena made, in blocks and in bytes. -/
def surplus (arena : Arena σ ω) : Int × Int :=
  (arena.stats.liveBlocks - arena.machine.journal.blocks, arena.stats.mappedBytes - arena.machine.journal.bytes)

def footing (arena : Arena σ ω) : Nat × Int × Int :=
  (arena.pageSize, arena.surplus)

structure Gained (len : Nat) (before after : Arena σ ω) : Prop where
  liveBlocks : after.stats.liveBlocks = before.stats.liveBlocks + 1
  mappedBytes : after.stats.mappedBytes = before.stats.mappedBytes + len

/-- As far as the counters know, a block of one length has gone and one of another has come. -/
structure Exchanged (oldLen newLen : Nat) (before after : Arena σ ω) : Prop where
  liveBlocks : after.stats.liveBlocks = before.stats.liveBlocks
  mappedBytes : after.stats.mappedBytes + oldLen = before.stats.mappedBytes + newLen

variable {before middle after : Arena σ ω} {oldLen newLen : Nat}

theorem Gained.exchange (gained : Gained newLen before middle) (lost : Gained oldLen after middle) :
    Exchanged oldLen newLen before after :=
  ⟨Nat.succ.inj (lost.liveBlocks.symm.trans gained.liveBlocks), lost.mappedBytes.symm.trans gained.mappedBytes⟩

theorem Gained.exchange_first (lost : Gained oldLen middle before) (gained : Gained newLen middle after) :
    Exchanged oldLen newLen before after := by
  obtain ⟨fewer, less⟩ := lost
  obtain ⟨more, greater⟩ := gained
  exact ⟨by omega, by omega⟩

theorem footing_idle {arena : Arena σ ω} {machine : Machine σ} (kept : machine.journal = arena.machine.journal) :
    { arena with machine }.footing = arena.footing := by
  rw [footing, surplus, kept, footing, surplus]

theorem footing_note {event : Event} (paged : after.pageSize = before.pageSize)
    (journal : after.machine.journal = before.machine.journal.note event)
    (blocks : (after.stats.liveBlocks : Int) = before.stats.liveBlocks + event.blocks)
    (bytes : (after.stats.mappedBytes : Int) = before.stats.mappedBytes + event.bytes) :
    after.footing = before.footing := by
  rw [footing, surplus, paged, journal, Journal.blocks_note, Journal.bytes_note, blocks, bytes,
    add_sub_add_right_eq_sub, add_sub_add_right_eq_sub, footing, surplus]

abbrev Conserves (run : Run (Arena σ ω) α) : Prop :=
  run.Conserves footing

theorem conserves_note {event : Event} (blocks : event.blocks = 0) (bytes : event.bytes = 0) :
    Conserves (note event : Run (Arena σ ω) Unit) := by
  intro arena
  simp only [note, Machine.note, onMachine, Run.meets_focus, Run.meets_modify]
  exact footing_note rfl rfl (by rw [blocks, add_zero]) (by rw [bytes, add_zero])

theorem conserves_say (message : Message) : Conserves (say message : Run (Arena σ ω) Unit) := by
  intro arena
  simp only [say, onMachine, Run.meets_focus, Run.meets_modify]
  rfl

theorem conserves_setMemory (memory : Memory) : Conserves (setMemory memory : Run (Arena σ ω) Unit) := by
  intro arena
  simp only [setMemory, Machine.setMemory, onMachine, Run.meets_focus, Run.meets_modify]
  rfl

theorem conserves_memory : Conserves (memory : Run (Arena σ ω) Memory) :=
  .bind .get fun _ => .pure _

theorem conserves_setHook (hook : Option (Hook ω)) : Conserves (setHook hook : Run (Arena σ ω) Unit) :=
  .modify fun _ => rfl

theorem conserves_takeHook : Conserves (takeHook : Run (Arena σ ω) (Option (Hook ω))) :=
  .bind .get fun _ => .bind (conserves_setHook none) fun _ => .pure _

theorem conserves_blockLen (size : Nat) {next : Option Nat → Run (Arena σ ω) α}
    (kept : ∀ len?, Conserves (next len?)) : Conserves (do next (← (← get).blockLen size)) :=
  .bind .get fun _ => .bind Run.Conserves.lift kept

theorem recordMapped_counts (len : Nat) (arena : Arena σ ω) :
    (recordMapped len).Meets arena
      (fun _ after => Gained len arena after ∧ after.machine = arena.machine ∧ after.pageSize = arena.pageSize)
      fun fault _ => fault = .overflow := by
  simp only [recordMapped, setStats, Run.meets_bind, Run.meets_get, Run.meets_modify]
  refine Run.meets_lift_cases (fun liveBlocks counted => ?_) fun fault failed => (Size.add_eq_error.mp failed).2
  refine Run.meets_lift_cases (fun mappedBytes mapped => ?_) fun fault failed => (Size.add_eq_error.mp failed).2
  exact ⟨⟨(Size.add_eq_ok.mp counted).2, (Size.add_eq_ok.mp mapped).2⟩, rfl, rfl⟩

theorem recordUnmapped_counts (len : Nat) (arena : Arena σ ω) :
    (recordUnmapped len).Meets arena
      (fun _ after => Gained len after arena ∧ after.machine = arena.machine ∧ after.pageSize = arena.pageSize)
      fun fault _ => fault = .overflow ∧ (arena.stats.liveBlocks = 0 ∨ arena.stats.mappedBytes < len) := by
  simp only [recordUnmapped, setStats, Run.meets_bind, Run.meets_get, Run.meets_modify]
  by_cases counted : 1 ≤ arena.stats.liveBlocks
  · rw [Run.meets_lift (Size.sub_ok counted)]
    by_cases mapped : len ≤ arena.stats.mappedBytes
    · rw [Run.meets_lift (Size.sub_ok mapped)]
      exact ⟨⟨(Nat.sub_add_cancel counted).symm, (Nat.sub_add_cancel mapped).symm⟩, rfl, rfl⟩
    · rw [Run.meets_lift_error (show Size.sub arena.stats.mappedBytes len = .error .overflow from if_neg mapped)]
      exact ⟨rfl, .inr (Nat.lt_of_not_le mapped)⟩
  · rw [Run.meets_lift_error (show Size.sub arena.stats.liveBlocks 1 = .error .overflow from if_neg counted)]
    exact ⟨rfl, .inl (Nat.lt_one_iff.mp (Nat.lt_of_not_le counted))⟩

theorem conserves_supply (base : Addr) (len : Nat) :
    Conserves (onMachine (Machine.supply base len) : Run (Arena σ ω) Unit) := by
  intro arena
  simp only [Machine.supply, Machine.setMemory, Machine.note, onMachine, Run.meets_bind, Run.meets_get,
    Run.meets_focus, Run.meets_modify]
  exact footing_note rfl rfl (add_zero _).symm (add_zero _).symm

theorem conserves_detach (size : Nat) : Conserves (detach size : Run (Arena σ ω) Unit) := by
  refine .bind (conserves_setHook none) fun _ arena => ?_
  simp only [setStats, Run.meets_bind, Run.meets_get, Run.meets_modify]
  exact Run.meets_lift_cases (fun _ _ => conserves_note rfl rfl _) fun _ _ => .inr rfl

theorem conserves_reattach (hook : Hook ω) (size : Nat) (answer : Option Addr) :
    Conserves (reattach hook size answer : Run (Arena σ ω) Outcome) := by
  refine .bind (conserves_note rfl rfl) fun _ => .bind .get fun arena => ?_
  cases answer with
  | some block =>
    dsimp only
    split
    · exact .bind (conserves_setHook _) fun _ => .pure _
    · exact .pure _
  | none =>
    dsimp only
    split
    · exact .bind (conserves_setHook _) fun _ => .bind (conserves_say _) fun _ => .pure _
    · exact .bind (conserves_say _) fun _ => .pure _

variable [Host σ]

theorem conserves_request (size : Nat) : Conserves (request size : Run (Arena σ ω) (Option Addr)) := by
  refine conserves_blockLen size fun len? => ?_
  cases len? with
  | none => exact .pure _
  | some len =>
    intro arena
    simp only [onMachine, Run.meets_bind, Run.meets_focus]
    refine (Machine.request_noted len arena.machine).mono (fun granted machine noted => ?_)
      fun fault machine kept => .inr ?_
    · cases granted with
      | none =>
        simp only [Run.meets_pure]
        exact footing_note rfl noted (add_zero _).symm (add_zero _).symm
      | some base =>
        simp only [Run.meets_bind, Run.meets_pure]
        refine (recordMapped_counts len _).mono ?_ fun _ _ => .inl
        rintro _ after ⟨gained, same, paged⟩
        exact footing_note paged ((congrArg Machine.journal same).trans noted)
          (congrArg Nat.cast gained.liveBlocks)
          (congrArg Nat.cast gained.mappedBytes)
    · exact footing_idle kept

theorem release_counts {size len addr : Nat} {arena : Arena σ ω} (fits : arena.blockLen size = .ok (some len)) :
    (release size addr).Meets arena
      (fun _ after => Gained len after arena ∧ after.pageSize = arena.pageSize ∧
        ∃ known, after.machine.journal = arena.machine.journal.note (.giveBack addr len known))
      fun fault after => fault = .overflow ∨ after.footing = arena.footing := by
  simp only [release, onMachine, Run.meets_bind, Run.meets_get, Run.meets_lift fits, Run.meets_focus]
  refine (Machine.giveBack_noted addr len arena.machine).mono ?_ fun fault machine kept => .inr ?_
  · rintro _ machine ⟨known, noted⟩
    refine (recordUnmapped_counts len _).mono ?_ fun _ _ stopped => .inl stopped.1
    rintro _ after ⟨gained, same, paged⟩
    exact ⟨⟨gained.liveBlocks, gained.mappedBytes⟩, paged, known, (congrArg Machine.journal same).trans noted⟩
  · exact footing_idle kept

theorem conserves_release (size : Nat) (addr : Addr) : Conserves (release size addr : Run (Arena σ ω) Unit) := by
  intro arena
  cases fits : arena.blockLen size with
  | error fault =>
    simp only [release, Run.meets_bind, Run.meets_get, Run.meets_lift_error fits]
    exact .inr trivial
  | ok len? =>
    cases len? with
    | none =>
      simp only [release, Run.meets_bind, Run.meets_get, Run.meets_lift fits, Run.meets_throw]
      exact .inr trivial
    | some len =>
      refine (release_counts fits).imp ?_
      rintro _ after ⟨gained, paged, known, noted⟩
      refine footing_note paged noted ?_ ?_
      · rw [gained.liveBlocks, Int.natCast_add, Event.blocks, Int.natCast_one, Int.add_neg_cancel_right]
      · rw [gained.mappedBytes, Int.natCast_add, Event.bytes, Int.add_neg_cancel_right]

theorem conserves_protect (size : Nat) (addr : Addr) (mode : Protection) :
    Conserves (protect size addr mode : Run (Arena σ ω) Unit) := by
  refine conserves_blockLen size fun len? => ?_
  cases len? with
  | none => exact .pure _
  | some len =>
    refine .bind (fun arena => ?_) fun changed => ?_
    · simp only [onMachine, Run.meets_focus]
      refine (Machine.protect_noted addr len mode arena.machine).mono (fun changed machine noted => ?_)
        fun _ machine kept => .inr ?_
      · exact footing_note rfl noted (add_zero _).symm (add_zero _).symm
      · exact footing_idle kept
    · cases changed with
      | false => exact conserves_say _
      | true => exact .pure _

theorem conserves_ask (size : Nat) : Conserves (ask size : Run (Arena σ ω) (Option Addr)) := by
  refine .bind (conserves_request size) fun granted => ?_
  cases granted with
  | none => exact .bind (conserves_say _) fun _ => .pure _
  | some base => exact .pure _

/-- How far a resize comes without a new block. -/
inductive Placed (oldSize newSize : Nat) (before : Arena σ ω) : Option Outcome → Arena σ ω → Prop
  | impossible {error : AllocError} {after : Arena σ ω} :
    Placed oldSize newSize before (some (.error error)) after
  | settled {addr oldLen newLen : Nat} {after : Arena σ ω} (old : before.blockLen oldSize = .ok (some oldLen))
    (new : before.blockLen newSize = .ok (some newLen)) (exchanged : Exchanged oldLen newLen before after) :
    Placed oldSize newSize before (some (.ok addr)) after
  | denied {oldLen : Nat} {after : Arena σ ω} (old : before.blockLen oldSize = .ok (some oldLen))
    (asked : Inquired before after) :
    Placed oldSize newSize before none after

theorem resizeInPlace_counts (oldSize : Nat) (addr : Addr) (newSize : Nat) (arena : Arena σ ω) :
    (resizeInPlace oldSize addr newSize).Meets arena
      (fun settled after => after.footing = arena.footing ∧ Placed oldSize newSize arena settled after)
      fun fault after => fault = .overflow ∨ after.footing = arena.footing := by
  simp only [resizeInPlace, Run.meets_bind, Run.meets_get]
  refine Run.meets_lift_cases (fun oldLen? old => ?_) fun _ _ => .inr rfl
  cases oldLen? with
  | none =>
    simp only [Run.meets_pure]
    exact ⟨trivial, .impossible⟩
  | some oldLen =>
    simp only [Run.meets_bind, Run.meets_get]
    refine Run.meets_lift_cases (fun newLen? new => ?_) fun _ _ => .inr rfl
    cases newLen? with
    | none =>
      simp only [Run.meets_pure]
      exact ⟨trivial, .denied old ⟨_, _, rfl⟩⟩
    | some newLen =>
      dsimp only
      split
      next same =>
        subst same
        simp only [Run.meets_pure]
        exact ⟨trivial, .settled old new ⟨rfl, rfl⟩⟩
      simp only [onMachine, Run.meets_bind, Run.meets_focus]
      refine (Machine.resize_noted addr oldLen newLen arena.machine).mono ?_ fun _ machine kept =>
        .inr (footing_idle kept)
      rintro moved machine ⟨noted, kept⟩
      cases moved with
      | none =>
        simp only [Run.meets_pure]
        refine ⟨footing_note rfl noted (add_zero _).symm (add_zero _).symm,
          .denied old ⟨machine.host, machine.journal, ?_⟩⟩
        rw [← kept rfl]
      | some target =>
        simp only [Run.meets_bind, Run.meets_pure]
        refine (recordUnmapped_counts oldLen _).mono ?_ fun _ _ stopped => .inl stopped.1
        rintro _ middle ⟨lost, same, paged⟩
        refine (recordMapped_counts newLen middle).mono ?_ fun _ _ => .inl
        rintro _ after ⟨gained, same', paged'⟩
        obtain ⟨blocks, bytes⟩ := lost.exchange_first gained
        refine ⟨footing_note (paged'.trans paged) ((congrArg Machine.journal (same'.trans same)).trans noted) ?_
          ?_, .settled old new ⟨blocks, bytes⟩⟩
        · rw [blocks]
          exact (add_zero _).symm
        · simp only [Event.bytes]
          simp only at bytes
          omega

theorem conserves_resizeInPlace (oldSize : Nat) (addr : Addr) (newSize : Nat) :
    Conserves (resizeInPlace oldSize addr newSize : Run (Arena σ ω) (Option Outcome)) :=
  fun arena => (resizeInPlace_counts oldSize addr newSize arena).imp fun _ _ counts => counts.1

section Program

variable {acquire : Nat → Run (Arena σ ω) Outcome}

theorem conserves_replaceWith (kept : ∀ size, Conserves (acquire size)) (oldSize : Nat) (addr : Addr)
    (newSize : Nat) : Conserves (replaceWith acquire oldSize addr newSize) := by
  refine .bind (kept newSize) fun outcome => ?_
  cases outcome with
  | error error => exact .pure _
  | ok fresh =>
    refine .bind conserves_memory fun _ => .bind (conserves_setMemory _) fun _ => ?_
    exact .bind (conserves_release oldSize addr) fun _ => .pure _

theorem conserves_resizeWith (kept : ∀ size, Conserves (acquire size)) (oldSize : Nat) (addr : Addr)
    (newSize : Nat) : Conserves (resizeWith acquire oldSize addr newSize) := by
  rw [resizeWith_eq]
  refine .bind (conserves_resizeInPlace oldSize addr newSize) fun settled => ?_
  cases settled with
  | some outcome => exact .pure _
  | none => exact conserves_replaceWith kept oldSize addr newSize

/-- One case for each deed of a hook. -/
theorem conserves_carryOut (kept : ∀ size, Conserves (acquire size)) (deed : Deed) :
    Conserves (carryOut acquire deed) := by
  cases deed with
  | pass => exact .pure _
  | acquire size => exact .bind (kept size) fun _ => .pure _
  | resize oldSize addr newSize => exact .bind (conserves_resizeWith kept oldSize addr newSize) fun _ => .pure _
  | release size addr => exact .bind (conserves_release size addr) fun _ => .pure _
  | take => exact .bind conserves_takeHook fun _ => .bind (conserves_note rfl rfl) fun _ => .pure _
  | probe => exact .bind .get fun _ => .bind (conserves_note rfl rfl) fun _ => .pure _
  | supply base len => exact .bind (conserves_supply base len) fun _ => .pure _
  | unwind => exact Run.Conserves.throw

theorem conserves_runProgram (kept : ∀ size, Conserves (acquire size)) (requested : Nat) :
    ∀ program : Program ω, Conserves (runProgram acquire requested program)
  | .answer choose => .bind .get fun _ => .pure _
  | .perform choose learn next => by
    refine .bind .get fun arena => .bind (conserves_carryOut kept _) fun reply => ?_
    exact .bind (.modify fun _ => rfl) fun _ => conserves_runProgram kept requested next
  | .record change next => .bind (.modify fun _ => rfl) fun _ => conserves_runProgram kept requested next
  | .branch test yes no => by
    refine .bind .get fun arena => ?_
    split
    · exact conserves_runProgram kept requested yes
    · exact conserves_runProgram kept requested no
  | .install programs next => .bind (conserves_setHook _) fun _ => conserves_runProgram kept requested next

theorem conserves_escalateWith (kept : ∀ size, Conserves (acquire size)) (hook : Hook ω) (size : Nat) :
    Conserves (escalateWith acquire hook size) := by
  rw [escalateWith_eq]
  refine .bind (conserves_detach size) fun _ =>
    .bind (conserves_runProgram kept size hook.program) fun answer => ?_
  exact conserves_reattach hook size answer

theorem conserves_acquireOr {recover : Hook ω → Run (Arena σ ω) Outcome}
    (kept : ∀ hook, Conserves (recover hook)) (size : Nat) : Conserves (acquireOr recover size) := by
  rw [acquireOr_eq]
  refine .bind (conserves_ask size) fun granted => ?_
  cases granted with
  | some block => exact .pure _
  | none =>
    refine .bind .get fun denied => ?_
    cases denied.hook with
    | some hook => exact kept hook
    | none => exact .bind (conserves_say _) fun _ => .pure _

end Program

theorem conserves_acquireWithin (depth : Nat) :
    ∀ size, Conserves (acquireWithin depth size : Run (Arena σ ω) Outcome) := by
  induction depth with
  | zero => exact conserves_acquireOr fun _ => Run.Conserves.throw
  | succ depth ih => exact fun size => conserves_acquireOr (fun hook => conserves_escalateWith ih hook size) size

theorem conserves_acquire (size : Nat) : Conserves (acquire size : Run (Arena σ ω) Outcome) :=
  .bind .get fun _ => conserves_acquireWithin _ size

theorem conserves_resize (oldSize : Nat) (addr : Addr) (newSize : Nat) :
    Conserves (resize oldSize addr newSize : Run (Arena σ ω) Outcome) :=
  conserves_resizeWith conserves_acquire oldSize addr newSize

end Arena

end SlabAllocator
