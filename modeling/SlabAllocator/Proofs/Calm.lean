import SlabAllocator.Host.Fixed
import SlabAllocator.Host.Heap
import SlabAllocator.Host.Kernel
import SlabAllocator.Host.Quota
import SlabAllocator.Proofs.Journal
import SlabAllocator.Proofs.Turns

/-! The parts of a call that come without a hook: none is started, and the one in the slot stays. -/

namespace SlabAllocator

/-- A host of which no call stops for want of nesting. -/
structure Host.Calm (σ : Type) [Host σ] : Prop where
  request (len : Nat) : (Host.request len : Run σ _).Keeps fun _ => ()
  resize (base : Addr) (oldLen newLen : Nat) : (Host.resize base oldLen newLen : Run σ _).Keeps fun _ => ()
  giveBack (base : Addr) (len : Nat) : (Host.giveBack base len : Run σ _).Keeps fun _ => ()

def Event.starts : Event → Bool
  | .hookStarted _ => true
  | _ => false

def Journal.started (journal : Journal) : Nat :=
  journal.events.toList.countP Event.starts

theorem Journal.started_note (journal : Journal) (event : Event) :
    (journal.note event).started = journal.started + if event.starts then 1 else 0 := by
  rw [started, events_note, List.countP_append, List.countP_singleton, started]

theorem Size.add_calm (a b : Nat) : add a b ≠ .error .nesting := by
  unfold add; split <;> exact nofun

theorem Size.sub_calm (a b : Nat) : sub a b ≠ .error .nesting := by
  unfold sub; split <;> exact nofun

namespace Placement

theorem keeps_place (len : Nat) : (place len).Keeps fun _ => () := by
  refine .bind .get fun placement => ?_
  dsimp only
  split
  · exact .bind (fun _ => by rw [Run.meets_set]) fun _ => .pure _
  · exact .pure _

end Placement

namespace Kernel

theorem keeps_request (len : Nat) : (request len).Keeps fun _ => () := by
  unfold request
  split
  · exact .pure _
  · exact (Placement.keeps_place len).focus fun _ _ _ => rfl

theorem calm : Host.Calm Kernel :=
  ⟨keeps_request, fun _ _ _ => .pure _, fun _ _ => .pure _⟩

end Kernel

namespace Heap

theorem keeps_request (len : Nat) : (request len).Keeps fun _ => () := by
  refine .bind .get fun heap => ?_
  split
  · exact (Placement.keeps_place len).focus fun _ _ _ => rfl
  · exact .pure _

theorem keeps_resize (base : Addr) (oldLen newLen : Nat) : (resize base oldLen newLen).Keeps fun _ => () := by
  refine .bind .get fun heap => ?_
  split <;> exact .pure _

theorem calm : Host.Calm Heap :=
  ⟨keeps_request, keeps_resize, fun _ _ => .pure _⟩

end Heap

theorem Fixed.calm [Host σ] (calm : Host.Calm σ) : Host.Calm (Fixed σ) :=
  ⟨fun len => (calm.request len).focus fun _ _ _ => rfl, fun _ _ _ => .pure _,
    fun base len => (calm.giveBack base len).focus fun _ _ _ => rfl⟩

namespace Quota

theorem keeps_setInUse (inUse : Nat) : (setInUse inUse : Run (Quota σ) Unit).Keeps fun _ => () :=
  .modify fun _ => rfl

variable [Host σ]

theorem keeps_request (calm : Host.Calm σ) (len : Nat) : (request len : Run (Quota σ) _).Keeps fun _ => () := by
  refine .bind .get fun quota => ?_
  split
  · exact .pure _
  · refine .bind ((calm.request len).focus fun _ _ _ => rfl) fun granted => ?_
    cases granted with
    | none => exact .pure _
    | some base =>
      exact .bind .get fun _ => .bind (Run.Keeps.lift (Size.add_calm _ _))
        fun _ => .bind (keeps_setInUse _) fun _ =>
        .pure _

theorem keeps_resize (calm : Host.Calm σ) (base : Addr) (oldLen newLen : Nat) :
    (resize base oldLen newLen : Run (Quota σ) _).Keeps fun _ => () := by
  refine .bind .get fun quota => ?_
  split
  · exact .pure _
  · refine .bind ((calm.resize base oldLen newLen).focus fun _ _ _ => rfl) fun moved => ?_
    cases moved with
    | none => exact .pure _
    | some target =>
      exact .bind .get fun _ => .bind (Run.Keeps.lift (Size.sub_calm _ _)) fun _ =>
        .bind (Run.Keeps.lift (Size.add_calm _ _)) fun _ => .bind (keeps_setInUse _) fun _ => .pure _

theorem keeps_giveBack (calm : Host.Calm σ) (base : Addr) (len : Nat) :
    (giveBack base len : Run (Quota σ) _).Keeps fun _ => () := by
  refine .bind ((calm.giveBack base len).focus fun _ _ _ => rfl) fun _ => ?_
  exact .bind .get fun _ => .bind (Run.Keeps.lift (Size.sub_calm _ _)) fun _ => keeps_setInUse _

theorem calm (calm : Host.Calm σ) : Host.Calm (Quota σ) :=
  ⟨keeps_request calm, keeps_resize calm, keeps_giveBack calm⟩

end Quota

namespace Machine

abbrev Keeps (run : Run (Machine σ) α) : Prop :=
  Run.Keeps (·.journal.started) run

theorem keeps_onHost {action : Run σ α} (kept : action.Keeps fun _ => ()) : Keeps (onHost action) :=
  kept.focus fun _ _ _ => rfl

theorem keeps_note {event : Event} (other : event.starts = false) : Keeps (σ := σ) (note event) :=
  .modify fun machine => by rw [Journal.started_note, other]; rfl

theorem keeps_setMemory (memory : Memory) : Keeps (σ := σ) (setMemory memory) :=
  .modify fun _ => rfl

variable [Host σ]

theorem keeps_request (calm : Host.Calm σ) (len : Nat) : Keeps (σ := σ) (request len) := by
  refine .bind (keeps_onHost (calm.request len)) fun granted => ?_
  cases granted with
  | none => exact .bind (keeps_note rfl) fun _ => .pure _
  | some base =>
    exact .bind .get fun _ => .bind (keeps_setMemory _) fun _ => .bind (keeps_note rfl) fun _ => .pure _

theorem keeps_resize (calm : Host.Calm σ) (base : Addr) (oldLen newLen : Nat) :
    Keeps (σ := σ) (resize base oldLen newLen) := by
  refine .bind .get fun machine => ?_
  dsimp only
  split
  · refine .bind (keeps_onHost (calm.resize base oldLen newLen)) fun moved => ?_
    cases moved with
    | none => exact .bind (keeps_note rfl) fun _ => .pure _
    | some target =>
      exact .bind .get fun _ => .bind (keeps_setMemory _) fun _ => .bind (keeps_note rfl) fun _ => .pure _
  · rw [pure_bind]
    exact .bind (keeps_note rfl) fun _ => .pure _

theorem keeps_giveBack (calm : Host.Calm σ) (base : Addr) (len : Nat) : Keeps (σ := σ) (giveBack base len) := by
  refine .bind .get fun machine => ?_
  dsimp only
  split
  · exact .bind (keeps_onHost (calm.giveBack base len)) fun _ => .bind .get
      fun _ => .bind (keeps_setMemory _) fun _ =>
      keeps_note rfl
  · exact keeps_note rfl

end Machine

namespace Arena

section Stretches

variable {before middle after : Arena σ ω}

/-- So many hook bodies were started, and each of them was counted. -/
structure Counted (started : Nat) (before after : Arena σ ω) : Prop where
  invocations : after.stats.hookInvocations = before.stats.hookInvocations + started
  journal : after.machine.journal.started = before.machine.journal.started + started

theorem Counted.trans {first second : Nat} (one : Counted first before middle)
    (two : Counted second middle after) : Counted (first + second) before after :=
  ⟨by rw [two.invocations, one.invocations, Nat.add_assoc], by rw [two.journal, one.journal, Nat.add_assoc]⟩

/-- The host may have been asked, but no block has changed and nothing was counted as mapped. -/
structure Undisturbed (before after : Arena σ ω) : Prop where
  memory : after.machine.memory = before.machine.memory
  counters : after.stats = { before.stats with hookInvocations := after.stats.hookInvocations }
  env : after.env = before.env
  paged : after.pageSize = before.pageSize

theorem Undisturbed.trans (first : Undisturbed before middle) (second : Undisturbed middle after) :
    Undisturbed before after := by
  refine ⟨second.memory.trans first.memory, ?_, second.env.trans first.env, second.paged.trans first.paged⟩
  rw [second.counters, first.counters]

theorem detach_spec (size : Nat) (arena : Arena σ ω) :
    (detach size).Meets arena (fun _ begun => begun.hook = none ∧ Counted 1 arena begun ∧ Undisturbed arena begun)
      fun fault after => fault = .overflow ∧ Size.bound ≤ arena.stats.hookInvocations + 1 ∧
        Counted 0 arena after ∧
        Undisturbed arena after := by
  simp only [detach, setHook, setStats, note, onMachine, Machine.note, Run.meets_bind, Run.meets_modify,
    Run.meets_get, Run.meets_focus]
  refine Run.meets_lift_cases (fun invocations counted => ?_) fun fault failed => ?_
  · obtain ⟨-, rfl⟩ := Size.add_eq_ok.mp counted
    exact ⟨rfl, ⟨rfl, Journal.started_note ..⟩, rfl, rfl, rfl, rfl⟩
  · obtain ⟨full, overflow⟩ := Size.add_eq_error.mp failed
    exact ⟨overflow, full, ⟨rfl, rfl⟩, rfl, rfl, rfl, rfl⟩

theorem reattach_spec (hook : Hook ω) (size : Nat) (answer : Option Addr) (arena : Arena σ ω) :
    (reattach hook size answer).Ends arena fun outcome after =>
      outcome = answer.elim (.error (.outOfMemory size)) .ok ∧ after.hook = arena.hook.or (some hook.afterRun) ∧
        Counted 0 arena after ∧ Undisturbed arena after := by
  have noted := Journal.started_note arena.machine.journal (.hookFinished answer)
  simp only [reattach, note, onMachine, Machine.note, Run.meets_bind, Run.meets_modify,
    Run.meets_get, Run.meets_focus]
  cases installed : arena.hook <;> cases answer <;>
  · simp only [hasHook, setHook, Option.isSome, Bool.not_false, Bool.not_true, Bool.false_eq_true, if_true,
      if_false, say, onMachine, Run.meets_bind, Run.meets_modify, Run.meets_focus, Run.meets_pure]
    exact ⟨rfl, rfl, ⟨rfl, noted⟩, rfl, rfl, rfl, rfl⟩

end Stretches

/-- What a hook changes in an arena as it comes and goes. -/
def watch (arena : Arena σ ω) : Option (Hook ω) × Nat × Nat :=
  (arena.hook, arena.stats.hookInvocations, arena.machine.journal.started)

theorem watch_eq {before after : Arena σ ω} (same : after.watch = before.watch) :
    after.hook = before.hook ∧ Counted 0 before after := by
  obtain ⟨hook, invocations, started⟩ := by simpa only [watch, Prod.mk.injEq] using same
  exact ⟨hook, invocations, started⟩

/-- A run of an arena in which the hook stays where it is and none is started. -/
abbrev Keeps (run : Run (Arena σ ω) α) : Prop :=
  run.Keeps watch

theorem keeps_onMachine {action : Run (Machine σ) α} (kept : Machine.Keeps action) :
    Keeps (onMachine action : Run (Arena σ ω) α) :=
  kept.focus fun arena machine same => by rw [watch, same]; rfl

theorem keeps_note {event : Event} (other : event.starts = false) : Keeps (note event : Run (Arena σ ω) Unit) :=
  keeps_onMachine (Machine.keeps_note other)

theorem keeps_say (message : Message) : Keeps (say message : Run (Arena σ ω) Unit) :=
  keeps_onMachine (.modify fun _ => rfl)

theorem blockLen_calm (arena : Arena σ ω) (size : Nat) : arena.blockLen size ≠ .error .nesting := by
  have calm := Size.sub_calm arena.pageSize 1
  unfold blockLen Size.roundUp?
  cases masked : Size.sub arena.pageSize 1 with
  | ok mask => exact nofun
  | error fault =>
    rw [masked] at calm
    exact fun failed => calm (congrArg Except.error (Except.error.inj failed))

theorem keeps_blockLen (size : Nat) {next : Option Nat → Run (Arena σ ω) α} (kept : ∀ len?, Keeps (next len?)) :
    Keeps (do next (← (← get).blockLen size)) :=
  .bind .get fun arena => .bind (Run.Keeps.lift (arena.blockLen_calm size)) kept

theorem keeps_recordMapped (len : Nat) : Keeps (recordMapped len : Run (Arena σ ω) Unit) := by
  intro arena
  simp only [recordMapped, setStats, Run.meets_bind, Run.meets_get, Run.meets_modify]
  refine Run.meets_lift_calm (Size.add_calm _ _) (fun liveBlocks => ?_) fun _ calm => ⟨calm, rfl⟩
  exact Run.meets_lift_calm (Size.add_calm _ _) (fun _ => rfl) fun _ calm => ⟨calm, rfl⟩

theorem keeps_recordUnmapped (len : Nat) : Keeps (recordUnmapped len : Run (Arena σ ω) Unit) := by
  intro arena
  simp only [recordUnmapped, setStats, Run.meets_bind, Run.meets_get, Run.meets_modify]
  refine Run.meets_lift_calm (Size.sub_calm _ _) (fun liveBlocks => ?_) fun _ calm => ⟨calm, rfl⟩
  exact Run.meets_lift_calm (Size.sub_calm _ _) (fun _ => rfl) fun _ calm => ⟨calm, rfl⟩

variable [Host σ]

theorem keeps_request (calm : Host.Calm σ) (size : Nat) :
    Keeps (request size : Run (Arena σ ω) (Option Addr)) := by
  refine keeps_blockLen size fun len? => ?_
  cases len? with
  | none => exact .pure _
  | some len =>
    refine .bind (keeps_onMachine (Machine.keeps_request calm len)) fun granted => ?_
    cases granted with
    | none => exact .pure _
    | some base => exact .bind (keeps_recordMapped len) fun _ => .pure _

theorem keeps_ask (calm : Host.Calm σ) (size : Nat) : Keeps (ask size : Run (Arena σ ω) (Option Addr)) := by
  refine .bind (keeps_request calm size) fun granted => ?_
  cases granted with
  | none => exact .bind (keeps_say _) fun _ => .pure _
  | some base => exact .pure _

theorem keeps_release (calm : Host.Calm σ) (size : Nat) (addr : Addr) :
    Keeps (release size addr : Run (Arena σ ω) Unit) := by
  refine keeps_blockLen size fun len? => ?_
  cases len? with
  | none => exact .throw nofun
  | some len =>
    exact .bind (keeps_onMachine (Machine.keeps_giveBack calm addr len)) fun _ => keeps_recordUnmapped len

theorem keeps_resizeInPlace (calm : Host.Calm σ) (oldSize : Nat) (addr : Addr) (newSize : Nat) :
    Keeps (resizeInPlace oldSize addr newSize : Run (Arena σ ω) (Option Outcome)) := by
  refine keeps_blockLen oldSize fun oldLen? => ?_
  cases oldLen? with
  | none => exact .pure _
  | some oldLen =>
    refine keeps_blockLen newSize fun newLen? => ?_
    cases newLen? with
    | none => exact .pure _
    | some newLen =>
      dsimp only
      split
      · exact .pure _
      · refine .bind (keeps_onMachine (Machine.keeps_resize calm addr oldLen newLen)) fun moved => ?_
        cases moved with
        | none => exact .pure _
        | some target =>
          exact .bind (keeps_recordUnmapped oldLen) fun _ => .bind (keeps_recordMapped newLen) fun _ => .pure _

end Arena

end SlabAllocator
