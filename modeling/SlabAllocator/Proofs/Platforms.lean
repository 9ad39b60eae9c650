import SlabAllocator.Proofs.Resizing

/-! A host that resizes blocks beside one that never does and is otherwise the same. What can be resized on
the plain one can be resized on the other, although one counts the growth of a block and the other all of its
new length. -/

namespace SlabAllocator

def Host.Spares (σ : Type) [Host σ] : Prop :=
  ∀ base oldLen newLen (host after : σ), Host.resize base oldLen newLen host = .ok none after → after = host

/-- A host that grants what a plain one grants, and resizes blocks besides. -/
structure Host.Extends [Host σ] [LawfulHost σ] [Host τ] [LawfulHost τ] (plain : τ → σ) : Prop where
  paged : ∀ host, Host.pageSize (plain host) = Host.pageSize host
  holds : ∀ host live, LawfulHost.Holds (plain host) live ↔ LawfulHost.Holds host live
  request : ∀ len (host after : τ) granted, Host.request len host = .ok granted after →
    Host.request len (plain host) = .ok granted (plain after)
  never : ∀ base oldLen newLen host, Host.resize base oldLen newLen (plain host) = .ok none (plain host)
  spares : Host.Spares τ

theorem Kernel.spares : Host.Spares Kernel := by
  intro base oldLen newLen host after denied
  have kept : (Kernel.resize base oldLen newLen).Ends host fun _ after => after = host := by
    simp only [Kernel.resize, Run.meets_pure]
  exact kept.of_ok denied

theorem Heap.spares : Host.Spares Heap := by
  intro base oldLen newLen host after denied
  have kept : (Heap.resize base oldLen newLen).Ends host fun _ after => after = host := by
    simp only [Heap.resize, Run.meets_bind, Run.meets_get]
    split <;> simp only [Run.meets_pure]
  exact kept.of_ok denied

namespace Quota

variable [Host σ] [Host τ]

def rehost (plain : τ → σ) (quota : Quota τ) : Quota σ :=
  ⟨plain quota.inner, quota.limit, quota.inUse⟩

theorem spares (spares : Host.Spares σ) : Host.Spares (Quota σ) := by
  intro base oldLen newLen host after denied
  have kept : (Quota.resize base oldLen newLen).Meets host (fun moved after => moved = none → after = host)
      fun _ _ => True := by
    simp only [Quota.resize, onInner, Run.meets_bind, Run.meets_get]
    split
    · simp only [Run.meets_pure]
      exact fun _ => trivial
    simp only [Run.meets_bind, Run.meets_focus]
    refine (Run.Meets.result _ _).mono ?_ fun _ _ _ => trivial
    intro moved inner asked
    cases moved with
    | none =>
      simp only [Run.meets_pure]
      exact fun _ => by rw [spares _ _ _ _ _ asked]
    | some target =>
      simp only [Run.meets_bind, Run.meets_get, Run.meets_pure]
      exact Run.meets_lift_any fun _ _ => Run.meets_lift_any fun _ _ => .any
        fun _ _ impossible => by cases impossible
  exact kept.of_ok denied rfl

theorem extended [LawfulHost σ] [LawfulHost τ] {plain : τ → σ} (wider : Host.Extends plain) :
    Host.Extends (rehost plain) where
  paged host := wider.paged host.inner
  holds host live := and_congr (wider.holds host.inner live) Iff.rfl
  request len host after granted asked := by
    have fits : (rehost plain host).fits len = host.fits len := rfl
    have mirrored : (Quota.request len).Meets host (fun granted after =>
        Quota.request len (rehost plain host) = .ok granted (rehost plain after)) fun _ _ => True := by
      simp only [Quota.request, Run.meets_bind, Run.meets_get, Run.get_bind, fits]
      split
      · simp only [Run.meets_pure]
        rfl
      simp only [Run.meets_bind, onInner, Run.meets_focus]
      refine (Run.Meets.result _ _).mono ?_ fun _ _ _ => trivial
      intro granted inner asked
      have same : Host.request len (rehost plain host).inner = .ok granted (plain inner) :=
        wider.request len host.inner inner granted asked
      rw [Run.bind_ok (Run.focus_ok same _)]
      cases granted with
      | none =>
        simp only [Run.meets_pure]
        rfl
      | some base =>
        simp only [setInUse, Run.meets_bind, Run.meets_get, Run.get_bind]
        refine Run.meets_lift_any fun total added => ?_
        simp only [Run.meets_modify, Run.meets_pure]
        rw [show (rehost plain host).inUse = host.inUse from rfl, added]
        rfl
    exact mirrored.of_ok asked
  never base oldLen newLen host := by
    have denied : Host.resize base oldLen newLen (plain host.inner) = .ok none (plain host.inner) :=
      wider.never base oldLen newLen host.inner
    have ends : (Quota.resize base oldLen newLen).Ends (rehost plain host) fun moved after =>
        moved = none ∧ after = rehost plain host := by
      simp only [Quota.resize, onInner, Run.meets_bind, Run.meets_get]
      split
      · simp only [Run.meets_pure, and_self]
      · simp only [Run.meets_bind, Run.meets_focus]
        refine .ended denied ?_
        simp only [Run.meets_pure]
        exact ⟨trivial, rfl⟩
    obtain ⟨_, _, ran, rfl, rfl⟩ := ends.exists_ok
    exact ran
  spares := Quota.spares wider.spares

end Quota

theorem Fixed.extended [Host σ] [LawfulHost σ] (spares : Host.Spares σ) :
    Host.Extends (Fixed.mk : σ → Fixed σ) where
  paged host := rfl
  holds host live := Iff.rfl
  request len host after granted asked := by
    change Fixed.onInner (Host.request len) (Fixed.mk host) = .ok granted (Fixed.mk after)
    have same : Host.request len (Fixed.mk host).inner = .ok granted after := asked
    exact Run.focus_ok same _
  never base oldLen newLen host := rfl
  spares := spares

namespace Arena

def rehost (host : σ) (arena : Arena τ ω) : Arena σ ω :=
  ⟨⟨host, arena.machine.memory, arena.machine.journal⟩, arena.pageSize, arena.hook, arena.stats, arena.env⟩

/-- All that a block that got another length on two hosts has in common. The blocks may lie elsewhere, and the
peaks and the events are those of the way that each of them went. -/
structure Akin (count : Nat) (moved : Addr) (first : Arena σ (Books ω)) (target : Addr)
    (second : Arena τ (Books ω)) : Prop where
  bytes : second.machine.memory.read target count = first.machine.memory.read moved count
  stats : second.stats = { first.stats with peakMappedBytes := second.stats.peakMappedBytes }
  hook : second.hook = first.hook
  env : second.env = first.env

variable [Host σ] [LawfulHost σ] [Host τ] [LawfulHost τ] {locked : List Extent} {addr oldSize newSize : Nat}

theorem Sound.rehost {arena : Arena τ (Books ω)} {host : σ} (sound : Sound locked arena)
    (paged : Host.pageSize host = Host.pageSize arena.machine.host)
    (holds : LawfulHost.Holds host arena.machine.memory.live) : Sound locked (arena.rehost host) where
  power := sound.power
  machine :=
    ⟨paged.trans sound.machine.paged, holds, sound.machine.spread, sound.machine.hosted, sound.machine.journal,
      sound.machine.lawful, sound.machine.scattered, sound.machine.peak⟩
  live := sound.live
  liveBlocks := sound.liveBlocks
  mappedBytes := sound.mappedBytes
  issued := sound.issued
  audited := sound.audited

omit [Host σ] [LawfulHost σ] [Host τ] [LawfulHost τ] in
/-- Two blocks that got the same length from the same one agree in all but the way that they went. -/
private theorem Rehoused.akin {arena : Arena τ (Books ω)} {host : σ} {moved target : Addr}
    {first : Arena σ (Books ω)} {second : Arena τ (Books ω)}
    (one : Rehoused oldSize addr newSize (arena.rehost host) moved first)
    (other : Rehoused oldSize addr newSize arena target second) :
    Akin (min oldSize newSize) moved first target second := by
  have blocks : second.stats.liveBlocks = first.stats.liveBlocks :=
    other.counters.liveBlocks.trans one.counters.liveBlocks.symm
  have bytes : second.stats.mappedBytes = first.stats.mappedBytes :=
    Nat.add_right_cancel (other.counters.mappedBytes.trans one.counters.mappedBytes.symm)
  have invocations : second.stats.hookInvocations = first.stats.hookInvocations :=
    other.quiet.invocations.trans one.quiet.invocations.symm
  refine ⟨other.bytes.trans one.bytes.symm, ?_, other.quiet.hook.trans one.quiet.hook.symm,
    other.quiet.env.trans one.quiet.env.symm⟩
  change second.stats =
    ⟨first.stats.liveBlocks, first.stats.mappedBytes, second.stats.peakMappedBytes, first.stats.hookInvocations⟩
  rw [← blocks, ← bytes, ← invocations]

/-- A host grants no more than the plain one. -/
private theorem Sound.grants_plain {plain : τ → σ} (wider : Host.Extends plain) {arena : Arena τ (Books ω)}
    {len : Nat} (sound : Sound locked arena) (proper : Proper arena.pageSize len) :
    Host.grants (plain arena.machine.host) len = Host.grants arena.machine.host len := by
  have ends := LawfulHost.request sound.machine.holds sound.machine.spread (sound.machine.paged ▸ proper)
  obtain ⟨granted, host, asked, -⟩ := ends.exists_ok
  have same := wider.request len arena.machine.host host granted asked
  rw [Host.grants, Host.grants, asked, same]
  cases granted <;> rfl

/-- A block that gets its new length from a plain host gets it from one that resizes blocks besides. -/
theorem Sound.resize_wider {plain : τ → σ} (wider : Host.Extends plain) {arena : Arena τ (Books ω)}
    (sound : Sound ((addr, pageBytes arena.pageSize oldSize) :: locked) arena) (idle : arena.Idle)
    {moved : Addr} {first : Arena σ (Books ω)}
    (succeeds : resize oldSize addr newSize (arena.rehost (plain arena.machine.host)) = .ok (.ok moved) first) :
    ∃ target second, resize oldSize addr newSize arena = .ok (.ok target) second ∧
      Akin (min oldSize newSize) moved first target second := by
  have sound' : Sound ((addr, pageBytes (arena.rehost (plain arena.machine.host)).pageSize oldSize) :: locked)
      (arena.rehost (plain arena.machine.host)) :=
      sound.rehost (wider.paged _) ((wider.holds _ _).mpr sound.machine.holds)
  by_cases same : pageBytes arena.pageSize newSize = pageBytes arena.pageSize oldSize
  · rw [sound'.resize_same same] at succeeds
    cases succeeds
    exact ⟨_, _, sound.resize_same same, rfl, rfl, rfl, rfl⟩
  obtain ⟨rehoused, way⟩ := (sound'.resize_rehouses idle same).of_ok succeeds
  have granted : pageBytes arena.pageSize newSize ≤ Size.longest ∧
      Host.grants (plain arena.machine.host) (pageBytes arena.pageSize newSize) = true := by
    have never :=
      wider.never addr (pageBytes arena.pageSize oldSize) (pageBytes arena.pageSize newSize) arena.machine.host
    rcases way with remapped | replaced
    · obtain ⟨host, asked⟩ := remapped.asked
      cases asked.symm.trans never
    · obtain ⟨host, asked, grants⟩ := replaced.asked
      cases asked.symm.trans never
      exact ⟨replaced.short, grants⟩
  have open' : ¬ Barred addr (pageBytes arena.pageSize oldSize) (pageBytes arena.pageSize newSize) arena := by
    intro barred
    obtain ⟨host, asked, refused⟩ := barred granted.1
    have grants := sound.grants_plain wider (proper_pageBytes sound.power granted.1)
    rw [wider.spares _ _ _ _ _ asked, ← grants, granted.2] at refused
    cases refused
  have ways := sound.resize_rehouses idle same
  cases ran : resize oldSize addr newSize arena with
  | error fault second => exact absurd (ways.of_error ran).2.2.2 open'
  | ok outcome second =>
    have ended := ways.of_ok ran
    cases outcome with
    | error error => exact absurd ended.2.barred open'
    | ok target => exact ⟨target, second, rfl, rehoused.akin ended.1⟩

/-- What a resize of a live block comes to, on this host and on those that differ from it in what they resize. -/
structure Resizes (oldSize addr newSize : Nat) (arena : Arena σ (Books ω)) : Prop where
  stays : arena.blockLen newSize = arena.blockLen oldSize →
    resize oldSize addr newSize arena = .ok (.ok addr) arena
  moves : arena.blockLen newSize ≠ arena.blockLen oldSize →
    (resize oldSize addr newSize).Meets arena (Ended oldSize addr newSize arena) fun fault _ =>
      fault = .overflow ∧ Size.bound ≤ arena.stats.hookInvocations + 1 ∧ arena.hasHook = true
  /-- What succeeds on this host, if it never resizes, succeeds on one that does. -/
  wider : ∀ (τ : Type) [Host τ] [LawfulHost τ] (plain : τ → σ), Host.Extends plain → ∀ host,
    plain host = arena.machine.host →
    ∀ moved first, resize oldSize addr newSize arena = .ok (.ok moved) first →
      ∃ target second, resize oldSize addr newSize (arena.rehost host) = .ok (.ok target) second ∧
        Akin (min oldSize newSize) moved first target second
  /-- What succeeds on a host that never resizes succeeds on this one, if it is the same otherwise. -/
  narrower : ∀ (τ : Type) [Host τ] [LawfulHost τ] (plain : σ → τ), Host.Extends plain →
    ∀ moved first, resize oldSize addr newSize (arena.rehost (plain arena.machine.host)) = .ok (.ok moved) first →
      ∃ target second, resize oldSize addr newSize arena = .ok (.ok target) second ∧
        Akin (min oldSize newSize) moved first target second

theorem Resizes.of_sound {arena : Arena σ (Books ω)}
    (sound : Sound ((addr, pageBytes arena.pageSize oldSize) :: locked) arena)
    (idle : arena.Idle) (newSize : Nat) : Resizes oldSize addr newSize arena where
  stays same := by
    apply sound.resize_same
    rw [blockLen_eq sound.power, blockLen_eq sound.power, if_pos sound.short_head] at same
    split at same
    · exact Option.some.inj (Except.ok.inj same)
    · cases Except.ok.inj same
  moves different := by
    refine (sound.resize_rehouses idle fun same => different ?_).mono ?_ ?_
    · rw [blockLen_eq sound.power, blockLen_eq sound.power, same]
    · exact fun _ _ ended => ended
    · exact fun _ _ stopped => ⟨stopped.1, stopped.2.1, stopped.2.2.1⟩
  wider τ _ _ plain wider host here moved first succeeds := by
    have paged : Host.pageSize host = Host.pageSize arena.machine.host := by rw [← here, wider.paged]
    have holds : LawfulHost.Holds host arena.machine.memory.live := by
      rw [← wider.holds, here]
      exact sound.machine.holds
    have sound' : Sound ((addr, pageBytes (arena.rehost host).pageSize oldSize) :: locked) (arena.rehost host) :=
      sound.rehost paged holds
    have back : (arena.rehost host).rehost (plain (arena.rehost host).machine.host) = arena := by
      rw [show (arena.rehost host).machine.host = host from rfl, here]
      rfl
    refine sound'.resize_wider wider idle ?_
    rw [back]
    exact succeeds
  narrower _ _ _ _ wider _ _ succeeds := sound.resize_wider wider idle succeeds

end Arena

namespace Session

variable [Host σ] [LawfulHost σ] {session : Session σ ω} {grant : Grant} {oldSize addr : Nat}

/-- While a block is being resized it is out of the client's hands. -/
theorem Attained.resizes (attained : Attained session) (found : session.find? none oldSize addr = some grant)
    (idle : session.arena.Idle) (newSize : Nat) : (session.drop grant).arena.Resizes oldSize addr newSize := by
  have pending := attained.sound.drop found nofun
  obtain ⟨index, impossible, -⟩ | ⟨block, -, rfl, -⟩ := find?_spec found
  · cases impossible
  have accounts : Arena.Sound ((addr, pageBytes (session.drop (.block block)).arena.pageSize oldSize) :: _)
      (session.drop (.block block)).arena := pending.owns.sound.entries.accounts.perm List.perm_middle
  exact .of_sound accounts idle newSize

/-- Without resizing all four pages are in use meanwhile. -/
theorem resizes_in_fourPages :
    ∃ (session : Session (Quota Kernel) (Option Addr)) (grant : Grant) (addr moved target : Addr)
    (first : Arena (Quota (Fixed Kernel)) (Books (Option Addr)))
    (second : Arena (Quota Kernel) (Books (Option Addr))),
    replay fourPages .standard none [.acquire 100] = some session ∧ session.find? none 100 addr = some grant ∧
      Arena.resize 100 addr 12288
        ((session.drop grant).arena.rehost (Quota.rehost Fixed.mk session.arena.machine.host)) =
        .ok (.ok moved) first ∧
      Arena.resize 100 addr 12288 (session.drop grant).arena = .ok (.ok target) second ∧
      Arena.Akin 100 moved first target second ∧ first.stats.peakMappedBytes = 16384 := by
  have ended :
      ((replay fourPages .standard none [.acquire 100]).bind fun session : Session (Quota Kernel) (Option Addr) =>
      (session.find? none 100 0x10000000000).bind fun grant =>
        ((Arena.resize 100 0x10000000000 12288).ended?
            ((session.drop grant).arena.rehost (Quota.rehost Fixed.mk session.arena.machine.host))).map
              fun result =>
          (session.arena.hasHook, result.1.toOption, result.2.stats.peakMappedBytes)) =
      some (false, some 0x20000000000, 16384) := by decide +kernel
  obtain ⟨session, replayed, ended⟩ := Option.bind_eq_some_iff.mp ended
  obtain ⟨grant, found, ended⟩ := Option.bind_eq_some_iff.mp ended
  obtain ⟨⟨outcome, first⟩, ran, ended⟩ := Option.map_eq_some_iff.mp ended
  rw [Prod.mk.injEq, Prod.mk.injEq] at ended
  obtain ⟨detached, succeeded, peak⟩ := ended
  have idle : session.arena.Idle := by
    intro hook installed
    rw [Arena.hasHook, installed] at detached
    cases detached
  have attained : Attained session :=
    (Reachable.of_replay fourPages_fresh (by decide) (by decide) replayed).attained
  cases outcome with
  | error error => cases succeeded
  | ok moved =>
    have plain := Run.ended?_eq_some.mp ran
    have books : (session.drop grant).arena.machine = session.arena.machine := by cases grant <;> rfl
    obtain ⟨target, second, ran', akin⟩ := (attained.resizes found idle 12288).narrower _ (Quota.rehost Fixed.mk)
      (Quota.extended (Fixed.extended Kernel.spares)) moved first (by rw [books]; exact plain)
    exact ⟨session, grant, 0x10000000000, moved, target, first, second, replayed, found, plain, ran', akin, peak⟩

end Session
end SlabAllocator
