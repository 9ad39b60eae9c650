import SlabAllocator.Machine
import SlabAllocator.Proofs.Host
import SlabAllocator.Proofs.Memory

/-! The host, the memory and the journal of a machine agree on the live blocks, and every
call in the journal was lawful when it was made. -/

namespace SlabAllocator.Machine

variable [Host σ] [LawfulHost σ]

/-- A machine on which at most `peak` bytes were live at once. -/
structure Sound (pageSize peak : Nat) (machine : Machine σ) : Prop where
  paged : Host.pageSize machine.host = pageSize
  holds : LawfulHost.Holds machine.host machine.memory.live
  spread : Spread machine.memory.live
  hosted : ∀ base block, machine.memory.find? base = some block → block.hosted = true
  journal : (Journal.live machine.journal.events.toList).Perm machine.memory.live
  lawful : Journal.Lawful pageSize machine.journal.events.toList
  scattered : Journal.Scattered machine.journal.events.toList
  peak : Journal.Peak machine.journal.events.toList peak

variable {machine : Machine σ} {pageSize peak base len oldLen newLen : Nat} {block : Block}

theorem new_sound {host : σ} (fresh : LawfulHost.Fresh host) : (new host).Sound (Host.pageSize host) 0 where
  paged := rfl
  holds := by rw [show (new host).memory.live = [] from Memory.live_empty]; exact fresh
  spread := by rw [show (new host).memory.live = [] from Memory.live_empty]; exact .nil
  hosted := fun base block found => by
    rw [show (new host).memory.find? base = none from Memory.find?_empty base] at found
    cases found
  journal := by rw [show (new host).memory.live = [] from Memory.live_empty]; exact .refl _
  lawful := Journal.lawful_nil _
  scattered := Journal.scattered_nil
  peak := Journal.peak_nil

namespace Sound

omit [Host σ] [LawfulHost σ] in
private theorem absent (room : Spread ((base, len) :: machine.memory.live)) :
    machine.memory.find? base = none := by
  cases found : machine.memory.find? base with
  | none => rfl
  | some block =>
    have bases := (List.nodup_cons.mp room.nodup).1
    exact absurd (List.mem_map_of_mem (f := Prod.fst) (Memory.mem_live_of_find? found)) bases

/-- What a lawful call leaves behind, when it does to the blocks what the journal says. -/
private theorem step (sound : machine.Sound pageSize peak) (event : Event) {host : σ} (memory : Memory)
    (lawful : event.Lawful pageSize machine.memory.live) (paged : Host.pageSize host = Host.pageSize machine.host)
    (holds : LawfulHost.Holds host memory.live) (spread : Spread memory.live)
    (hosted : ∀ base block, memory.find? base = some block → block.hosted = true)
    (tracked : (event.track machine.memory.live).Perm memory.live) :
    Sound pageSize (max peak (Extent.total memory.live)) ⟨host, memory, machine.journal.note event⟩ := by
  have same : (Journal.live (machine.journal.note event).events.toList).Perm memory.live := by
    rw [Journal.events_note, Journal.live_push]
    exact (event.track_perm sound.journal).trans tracked
  refine ⟨paged.trans sound.paged, holds, spread, hosted, same, ?_, ?_, ?_⟩
  · rw [Journal.events_note]
    exact sound.lawful.push (lawful.perm sound.journal.symm)
  · rw [Journal.events_note] at same ⊢
    exact sound.scattered.push (spread.perm same.symm)
  · rw [← Extent.total_perm same, Journal.events_note]
    exact sound.peak.push event

theorem total_le (sound : machine.Sound pageSize peak) : Extent.total machine.memory.live ≤ peak := by
  rw [← Extent.total_perm sound.journal]
  exact sound.peak.greatest _ List.prefix_rfl

theorem proper (sound : machine.Sound pageSize peak) {block : Extent} (member : block ∈ machine.memory.live) :
    Proper pageSize block.2 :=
  sound.lawful.proper block (sound.journal.mem_iff.mpr member)

private theorem still (sound : machine.Sound pageSize peak) (event : Event) {host : σ} (still : event.Still)
    (lawful : event.Lawful pageSize machine.memory.live) (paged : Host.pageSize host = Host.pageSize machine.host)
    (holds : LawfulHost.Holds host machine.memory.live) :
    Sound pageSize peak ⟨host, machine.memory, machine.journal.note event⟩ := by
  have stepped :=
    sound.step event machine.memory lawful paged holds sound.spread sound.hosted (by rw [still.track])
  rwa [Nat.max_eq_left sound.total_le] at stepped

/-- An event that is no call to the host can be noted at any time. -/
theorem note (sound : machine.Sound pageSize peak) (event : Event) (still : event.Still)
    (lawful : event.Lawful pageSize machine.memory.live) :
    Sound pageSize peak { machine with journal := machine.journal.note event } :=
  sound.still event still lawful rfl sound.holds

theorem say (sound : machine.Sound pageSize peak) (message : Message) :
    Sound pageSize peak { machine with journal := machine.journal.say message } :=
  ⟨sound.paged, sound.holds, sound.spread, sound.hosted, sound.journal, sound.lawful, sound.scattered, sound.peak⟩

/-- Memory can be written freely as long as the blocks stay. -/
theorem write (sound : machine.Sound pageSize peak) (memory : Memory)
    (live : memory.live.Perm machine.memory.live)
    (hosted : ∀ base block, memory.find? base = some block → block.hosted = true) :
    Sound pageSize peak { machine with memory } where
  paged := sound.paged
  holds := LawfulHost.perm sound.holds live.symm
  spread := sound.spread.perm live.symm
  hosted := hosted
  journal := sound.journal.trans live.symm
  lawful := sound.lawful
  scattered := sound.scattered
  peak := sound.peak

theorem request_spec (sound : machine.Sound pageSize peak) (proper : Proper pageSize len) :
    (request len).Ends machine fun granted after =>
      match granted with
      | some base => after.Sound pageSize (max peak (Extent.total after.memory.live)) ∧
          after.memory = machine.memory.map base len true ∧ machine.memory.find? base = none
      | none => after.Sound pageSize peak ∧ after.memory = machine.memory := by
  have asked : Proper (Host.pageSize machine.host) len := by rw [sound.paged]; exact proper
  simp only [request, onHost, Run.meets_bind, Run.meets_focus]
  refine (LawfulHost.request sound.holds sound.spread asked).imp ?_
  rintro granted host ⟨paged, granted'⟩
  cases granted with
  | none =>
    simp only [Machine.note, Run.meets_bind, Run.meets_modify, Run.meets_pure, and_true]
    exact sound.still (.request len none) rfl proper paged granted'
  | some base =>
    obtain ⟨holds, room⟩ := granted'
    have absent := absent room
    have live := Memory.live_map len true absent
    simp only [Machine.note, setMemory, Run.meets_bind, Run.meets_get, Run.meets_modify, Run.meets_pure]
    refine ⟨sound.step (.request len (some base)) _ proper paged (LawfulHost.perm holds live.symm)
      (room.perm live.symm) (fun other block found => ?_) live.symm, trivial, absent⟩
    rw [Memory.find?_map] at found
    split at found
    · cases found; rfl
    · exact sound.hosted other block found

omit [Host σ] [LawfulHost σ] in
theorem hosts_eq (found : machine.memory.find? base = some block) (hosted : block.hosted = true) :
    machine.memory.hosts base block.len = true := by
  rw [Memory.hosts, Memory.block_eq found, hosted, beq_self_eq_true]
  rfl

theorem resize_spec (sound : machine.Sound pageSize peak) (found : machine.memory.find? base = some block)
    (proper : Proper pageSize newLen) :
    (resize base block.len newLen).Ends machine fun moved after =>
      match moved with
      | some target => after.Sound pageSize (max peak (Extent.total after.memory.live)) ∧
          after.memory = machine.memory.remap base target newLen ∧
          (machine.memory.unmap base).find? target = none
      | none => after.Sound pageSize peak ∧ after.memory = machine.memory := by
  have asked : Proper (Host.pageSize machine.host) newLen := by rw [sound.paged]; exact proper
  have live := Memory.live_unmap found
  have named := Memory.mem_live_of_find? found
  simp only [resize, onHost, Run.meets_bind, Run.meets_get, hosts_eq found (sound.hosted base block found),
    if_true, Run.meets_focus]
  refine (LawfulHost.resize (LawfulHost.perm sound.holds live) (sound.spread.perm live) asked).imp ?_
  rintro moved host ⟨paged, moved'⟩
  cases moved with
  | none =>
    simp only [Machine.note, Run.meets_bind, Run.meets_modify, Run.meets_pure, and_true]
    exact sound.still (.resize base block.len newLen none) rfl ⟨named, proper⟩ paged
      (LawfulHost.perm moved' live.symm)
  | some target =>
    obtain ⟨holds, room⟩ := moved'
    have absent : (machine.memory.unmap base).find? target = none := by
      cases there : (machine.memory.unmap base).find? target with
      | none => rfl
      | some other =>
        exact absurd (List.mem_map_of_mem (f := Prod.fst) (Memory.mem_live_of_find? there))
          (List.nodup_cons.mp room.nodup).1
    have live' := Memory.live_remap newLen absent
    simp only [Machine.note, setMemory, Run.meets_bind, Run.meets_get, Run.meets_modify, Run.meets_pure]
    refine ⟨sound.step (.resize base block.len newLen (some target)) _ ⟨named, proper⟩ paged
      (LawfulHost.perm holds live'.symm) (room.perm live'.symm) (fun other changed here => ?_) ?_, trivial,
      absent⟩
    · rw [Memory.find?_remap] at here
      split at here
      · cases here
        rw [Memory.block_eq found]
        exact sound.hosted base block found
      · split at here
        · cases here
        · exact sound.hosted other changed here
    · have rest := live.erase (base, block.len)
      rw [List.erase_cons_head] at rest
      exact (rest.cons _).trans live'.symm

theorem giveBack_spec (sound : machine.Sound pageSize peak) (found : machine.memory.find? base = some block) :
    (giveBack base block.len).Ends machine fun _ after =>
      after.Sound pageSize peak ∧ after.memory = machine.memory.unmap base ∧
        after.journal = machine.journal.note (.giveBack base block.len true) := by
  have live := Memory.live_unmap found
  simp only [giveBack, onHost, Run.meets_bind, Run.meets_get, hosts_eq found (sound.hosted base block found),
    if_true, Run.meets_focus]
  refine (LawfulHost.giveBack (LawfulHost.perm sound.holds live) (sound.spread.perm live)).imp ?_
  rintro _ host ⟨paged, holds⟩
  simp only [Machine.note, setMemory, Run.meets_modify, and_true]
  have stepped := sound.step (.giveBack base block.len true) (machine.memory.unmap base)
    ⟨Memory.mem_live_of_find? found, rfl⟩ paged holds (Spread.cons_iff.mp (sound.spread.perm live)).2.2
    (fun other rest here => ?_) ?_
  · rwa [Nat.max_eq_left] at stepped
    have total := sound.total_le
    rw [Extent.total_perm live, Extent.total_cons] at total
    omega
  · rw [Memory.find?_unmap] at here
    split at here
    · cases here
    · exact sound.hosted other rest here
  · have rest := live.erase (base, block.len)
    rwa [List.erase_cons_head] at rest

theorem protect_spec (sound : machine.Sound pageSize peak) (found : machine.memory.find? base = some block)
    (mode : Protection) :
    (protect base block.len mode).Ends machine fun _ after =>
      after.Sound pageSize peak ∧
      (after.memory = machine.memory ∨ after.memory = machine.memory.protect base mode) := by
  have named := Memory.mem_live_of_find? found
  simp only [protect, onHost, Run.meets_bind, Run.meets_get, hosts_eq found (sound.hosted base block found),
    if_true, Run.meets_focus]
  refine (LawfulHost.protect mode sound.holds named).imp ?_
  rintro changed host ⟨paged, holds⟩
  have noted := sound.still (.protect base block.len mode changed) trivial named paged holds
  cases changed with
  | false =>
    simp only [Machine.note, Bool.false_eq_true, if_false, Run.meets_bind, Run.meets_modify, Run.meets_pure]
    exact ⟨noted, .inl trivial⟩
  | true =>
    simp only [Machine.note, setMemory, if_true, Run.meets_bind, Run.meets_get, Run.meets_modify, Run.meets_pure]
    refine ⟨noted.write (machine.memory.protect base mode) (Memory.live_update fun _ => rfl)
      fun other changed here => ?_, .inr trivial⟩
    rw [Memory.protect, Memory.find?_update] at here
    split at here
    · obtain ⟨old, there, rfl⟩ := Option.map_eq_some_iff.mp here
      exact sound.hosted base old there
    · exact sound.hosted other changed here

end Sound
end SlabAllocator.Machine
