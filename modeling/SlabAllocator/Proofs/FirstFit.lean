import SlabAllocator.Proofs.Consistency

/-! Where a pool puts the slots that it hands out: in the first frame of its chain that has one
free, at the least index, and in a frame of its own at the end of the chain when there is none. Over
any run of calls a pool behaves like its frames without their memory. -/

namespace SlabAllocator

variable [Host σ] [LawfulHost σ]

def Stock.Answer.of : Outcome → Stock.Answer
  | .ok addr => .granted addr
  | .error _ => .denied

namespace Pool

variable {arena : Arena σ (Books ω)} {locked : List Extent} {pool : Pool}
  {before after : Pool × Arena σ (Books ω)}

def ask : Stock.Call → Action σ (Books ω) Stock.Answer
  | .acquire => do
    match ← acquire with
    | .ok addr => return .granted addr
    | .error _ => return .denied
  | .release addr => do
    release addr
    return .released
  | .compact => return .compacted (← compact)

def serve : List Stock.Call → Action σ (Books ω) (List Stock.Answer)
  | [] => return []
  | call :: rest => do
    let answer ← ask call
    return answer :: (← serve rest)

/-- Why a call stops. Either the arena was asked for a frame and a hook stopped it, or what is released is
no slot that is handed out. The pool stays as it was. -/
inductive Stops (before after : Pool × Arena σ (Books ω)) : Stock.Call → Fault → Prop
  | asked {fault : Fault} (full : Stock.place? before.1.geometry (view before).shelves = none)
    (asked : Arena.acquire before.1.frameLen before.2 = .error fault after.2) (pool : after.1 = before.1)
    (cause : fault = .unwound ∨ fault = .overflow ∧ Size.bound ≤ after.2.stats.hookInvocations + 1) :
    Stops before after .acquire fault
  | refused {addr : Addr} (free : ¬ (view before).Holds before.1.geometry addr) (same : after = before) :
    Stops before after (.release addr) .violated

omit [LawfulHost σ] in
theorem Provides.step {outcome : Outcome} (provides : Provides before after outcome)
    (valid : before.1.Valid before.2.machine.memory) :
    Stock.Step before.1.geometry before.1.interval .acquire (.of outcome) (view before) (view after) := by
  cases provides with
  | taken place same silent shelved =>
    rw [shelved]
    exact .take place
  | grown full asked silent fresh shelved =>
    rw [shelved]
    exact .grow full (valid.mem_bases.not.mpr fresh)
  | denied full asked same kept =>
    rw [kept]
    exact .deny full

theorem Sound.ask_spec (sound : Sound locked pool arena) (call : Stock.Call) :
    (ask call).Meets (pool, arena)
      (fun answer after => Sound locked after.1 after.2 ∧ after.1.geometry = pool.geometry ∧
        after.1.interval = pool.interval ∧
        Stock.Step pool.geometry pool.interval call answer (view (pool, arena)) (view after))
      (fun fault after => Stops (pool, arena) after call fault) := by
  cases call with
  | acquire =>
    simp only [ask, Run.meets_bind]
    refine sound.acquire_spec.mono ?_ fun fault after halted =>
      .asked halted.2.1 halted.2.2 halted.1.1 halted.1.2.cause
    rintro outcome after ⟨sound', changes, -, provides⟩
    have step := provides.step sound.valid
    cases outcome with
    | ok addr =>
      simp only [Run.meets_pure]
      exact ⟨sound', changes.geometry, changes.interval, step⟩
    | error error =>
      simp only [Run.meets_pure]
      exact ⟨sound', changes.geometry, changes.interval, step⟩
  | release addr =>
    by_cases holds : (view (pool, arena)).Holds pool.geometry addr
    · simp only [ask, Run.meets_bind, Run.meets_pure]
      refine Run.Ends.imp (sound.release_spec (sound.valid.holds_iff.mp holds)) ?_
      rintro _ after ⟨sound', changes, -, shelved⟩
      rw [shelved]
      exact ⟨sound', changes.geometry, changes.interval, .release holds⟩
    · have refused := sound.release_refused (sound.valid.holds_iff.not.mp holds)
      simp only [ask, Run.meets_bind]
      exact .halted refused (.refused holds rfl)
  | compact =>
    simp only [ask, Run.meets_bind, Run.meets_pure]
    refine Run.Ends.imp sound.compact_spec ?_
    rintro count after ⟨compacted, shelved, -⟩
    have left := compacted.sound.valid.length_shelves
    have old := sound.valid.length_shelves
    change (view after).shelves.length = _ at left
    rw [shelved] at left ⊢
    exact ⟨compacted.sound, compacted.changes.geometry, compacted.changes.interval,
      .compact ((congrArg (· + count) left).trans (compacted.total.trans old.symm))⟩

/-- A run of calls, up to the one that stops if there is one. -/
theorem Sound.serve_spec (sound : Sound locked pool arena) (calls : List Stock.Call) :
    (serve calls).Meets (pool, arena)
      (fun answers after => Stock.Serves pool.geometry pool.interval calls answers
        (view (pool, arena)) (view after))
      (fun fault after => ∃ done call rest answers middle, calls = done ++ call :: rest ∧
        Stock.Serves pool.geometry pool.interval done answers (view (pool, arena)) (view middle) ∧
        Stops middle after call fault) := by
  -- What carries over from call to call is that the pool is sound and keeps its geometry and its interval.
  induction calls generalizing pool arena with
  | nil =>
    simp only [serve, Run.meets_pure]
    exact .nil
  | cons call rest ih =>
    simp only [serve, Run.meets_bind]
    refine (sound.ask_spec call).mono ?_ fun fault after stops =>
      ⟨[], call, rest, [], (pool, arena), rfl, .nil, stops⟩
    rintro answer ⟨changed, middle⟩ ⟨sound', geometry, interval, step⟩
    refine (ih sound').mono ?_ ?_
    · intro answers after serves
      simp only [Run.meets_pure]
      rw [geometry, interval] at serves
      exact .cons step serves
    · rintro fault after ⟨done, stuck, later, answers, between, rfl, serves, stops⟩
      rw [geometry, interval] at serves
      exact ⟨call :: done, stuck, later, answer :: answers, between, rfl, .cons step serves, stops⟩

end Pool

namespace Session

variable {session : Session σ ω} {pool : Pool} {source : Source}

/-- How a request is served, told by the chain of the pool and the slots of the client. -/
inductive FirstFit (session : Session σ ω) (source : Source) (pool : Pool)
    (after : Pool × Arena σ (Books ω)) : Outcome → Prop
  | taken {left right : List Addr} {base : Addr} {index : Nat}
    (chain : pool.frames.nodes session.memory = .ok (left ++ base :: right))
    (full : ∀ other ∈ left, ∀ i, i < pool.geometry.slots →
      session.HandedOut source (other + pool.geometry.start i))
    (inside : index < pool.geometry.slots) (free : ¬ session.HandedOut source (base + pool.geometry.start index))
    (least : ∀ i, i < index → session.HandedOut source (base + pool.geometry.start i))
    (kept : after.1 = pool) (silent : Arena.Silent session.arena after.2) :
    FirstFit session source pool after (.ok (base + pool.geometry.start index))
  | grown {bases : List Addr} {base : Addr} {later : Arena σ (Books ω)}
    (chain : pool.frames.nodes session.memory = .ok bases)
    (full : ∀ other ∈ bases, ∀ i, i < pool.geometry.slots →
      session.HandedOut source (other + pool.geometry.start i))
    (asked : Arena.acquire pool.frameLen session.arena = .ok (.ok base) later)
    (silent : Arena.Silent later after.2)
    (last : after.1.frames.nodes after.2.machine.memory = .ok (bases ++ [base])) :
    FirstFit session source pool after (.ok (base + pool.geometry.start 0))
  | denied {bases : List Addr} {error : AllocError}
    (chain : pool.frames.nodes session.memory = .ok bases)
    (full : ∀ other ∈ bases, ∀ i, i < pool.geometry.slots →
      session.HandedOut source (other + pool.geometry.start i))
    (asked : Arena.acquire pool.frameLen session.arena = .ok (.error error) after.2) (kept : after.1 = pool) :
    FirstFit session source pool after (.error error)

theorem Sound.mem_taken_iff (sound : Sound session) (here : session.pool? source = some pool) {shelf : Shelf}
    (member : shelf ∈ (pool.stock session.memory).shelves) {index : Nat} :
    index ∈ shelf.taken ↔ index < pool.geometry.slots ∧
    session.HandedOut source (shelf.base + pool.geometry.start index) := by
  have valid := sound.valid_of here
  obtain ⟨owned, shape⟩ := valid.mem_shelves member
  rw [shape, Pool.shelf, List.mem_toFinset, sound.handedOut_iff here]
  constructor
  · intro used
    have inside := (Frame.mem_taken.mp used).1
    exact ⟨inside, (valid.start_mem_live sound.accounts.machine.spread owned inside).mpr used⟩
  · rintro ⟨inside, taken⟩
    exact (valid.start_mem_live sound.accounts.machine.spread owned inside).mp taken

structure Shows (session : Session σ ω) (source : Source) (pool : Pool) (stock : Stock) : Prop where
  chain : pool.frames.nodes session.memory = .ok (stock.shelves.map Shelf.base)
  taken : ∀ shelf ∈ stock.shelves, ∀ index,
    index ∈ shelf.taken ↔ index < pool.geometry.slots ∧
    session.HandedOut source (shelf.base + pool.geometry.start index)
  releases : stock.releases = pool.releases

theorem Sound.shows (sound : Sound session) (here : session.pool? source = some pool) :
    Shows session source pool (pool.stock session.memory) :=
  ⟨(sound.valid_of here).nodes_eq, fun _ member _ => sound.mem_taken_iff here member, rfl⟩

omit [LawfulHost σ] [Host σ] in
theorem Shows.full {stock : Stock} (shows : Shows session source pool stock) {shelves : List Shelf}
    (among : ∀ shelf ∈ shelves, shelf ∈ stock.shelves) (full : ∀ shelf ∈ shelves, shelf.Full pool.geometry) :
    ∀ other ∈ shelves.map Shelf.base, ∀ i, i < pool.geometry.slots →
      session.HandedOut source (other + pool.geometry.start i) := by
  intro other member i inside
  obtain ⟨shelf, listed, rfl⟩ := List.mem_map.mp member
  exact ((shows.taken shelf (among shelf listed) i).mp (full shelf listed i inside)).2

omit [LawfulHost σ] in
/-- The place that the frames without their memory tell is the first free one. -/
private theorem Shows.placed {stock : Stock} (shows : Shows session source pool stock) {addr : Addr}
    {shelves : List Shelf} {after : Pool × Arena σ (Books ω)}
    (place : Stock.place? pool.geometry stock.shelves = some (addr, shelves))
    (kept : after.1 = pool) (silent : Arena.Silent session.arena after.2) :
    FirstFit session source pool after (.ok addr) := by
  obtain ⟨left, shelf, right, index, shape, full, vacant, rfl, -⟩ := Stock.place?_eq_some place
  obtain ⟨inside, free, least⟩ := Shelf.vacancy?_eq_some.mp vacant
  have chain := shows.chain
  rw [shape, List.map_append, List.map_cons] at chain
  have member : shelf ∈ stock.shelves := by simp [shape]
  have among : ∀ other ∈ left, other ∈ stock.shelves := fun other listed => by simp [shape, listed]
  exact .taken chain (shows.full among full) inside
    (fun taken => free ((shows.taken shelf member index).mpr ⟨inside, taken⟩))
    (fun i less => ((shows.taken shelf member i).mp (least i less)).2) kept silent

theorem Sound.acquire_firstFit (sound : Sound session) (here : session.pool? source = some pool) :
    Pool.acquire.Meets (pool, session.arena) (fun outcome after => FirstFit session source pool after outcome)
      fun fault after => after.1 = pool ∧ Arena.acquire pool.frameLen session.arena = .error fault after.2 := by
  have shows := sound.shows here
  obtain ⟨locked, sound'⟩ := sound.focus here
  refine sound'.acquire_spec.mono ?_ fun fault after halted => ⟨halted.1.1, halted.2.2⟩
  rintro outcome after ⟨sound'', -, -, provides⟩
  cases provides with
  | taken place kept silent => exact shows.placed place kept silent
  | grown full asked silent fresh shelved =>
    have last := sound''.valid.nodes_eq
    change _ = Except.ok ((Pool.view after).shelves.map Shelf.base) at last
    rw [shelved, List.map_append] at last
    exact .grown shows.chain (shows.full (fun _ => id) (Stock.place?_eq_none.mp full)) asked silent last
  | denied full asked kept =>
    exact .denied shows.chain (shows.full (fun _ => id) (Stock.place?_eq_none.mp full)) asked kept

/-- A pool serves its requests like its frames without their memory. -/
theorem Attained.firstFit (attained : Attained session) (here : session.pool? source = some pool) :
    Pool.acquire.Meets (pool, session.arena) (fun outcome after => FirstFit session source pool after outcome)
      (fun fault after => after.1 = pool ∧ Arena.acquire pool.frameLen session.arena = .error fault after.2) ∧
    Shows session source pool (pool.stock session.memory) ∧
    ∀ calls, (Pool.serve calls).Meets (pool, session.arena)
      (fun answers after => Stock.Serves pool.geometry pool.interval calls answers (pool.stock session.memory)
        (Pool.view after))
      (fun fault after => ∃ done call rest answers middle, calls = done ++ call :: rest ∧
        Stock.Serves pool.geometry pool.interval done answers (pool.stock session.memory) (Pool.view middle) ∧
        Pool.Stops middle after call fault) := by
  obtain ⟨locked, sound⟩ := attained.sound.focus here
  exact ⟨attained.sound.acquire_firstFit here, attained.sound.shows here, sound.serve_spec⟩

theorem firstFit_of_handmade : ∃ (session : Session (Quota Kernel) (Option Addr)) (pool : Pool)
    (after : Pool × Arena (Quota Kernel) (Books (Option Addr))), handmade = some session ∧
      session.pool? (.dedicated 0) = some pool ∧
      Pool.serve [.acquire, .acquire, .acquire, .acquire, .acquire] (pool, session.arena) = .ok
        [.granted 0x10000000058, .granted 0x30000000058, .granted 0x40000000030,
          .granted 0x40000000058, .denied] after ∧
      Stock.Serves pool.geometry pool.interval [.acquire, .acquire, .acquire, .acquire, .acquire]
        [.granted 0x10000000058, .granted 0x30000000058, .granted 0x40000000030, .granted 0x40000000058, .denied]
        (pool.stock session.memory) (Pool.view after) := by
  have ended : (handmade.bind fun session => (session.pool? (.dedicated 0)).bind fun pool =>
      match Pool.serve [.acquire, .acquire, .acquire, .acquire, .acquire] (pool, session.arena) with
      | .ok answers _ => some answers
      | .error .. => none) =
      some [.granted 0x10000000058, .granted 0x30000000058, .granted 0x40000000030,
        .granted 0x40000000058, .denied] := by
    decide +kernel
  obtain ⟨session, made, ended⟩ := Option.bind_eq_some_iff.mp ended
  obtain ⟨pool, here, ended⟩ := Option.bind_eq_some_iff.mp ended
  split at ended
  case h_2 => cases ended
  next answers after ran =>
    cases ended
    exact ⟨session, pool, after, made, here, ran, (((attained_of_handmade made).firstFit here).2.2 _).of_ok ran⟩

end Session
end SlabAllocator
