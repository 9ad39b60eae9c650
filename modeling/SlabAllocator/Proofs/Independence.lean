import SlabAllocator.Proofs.Denial
import SlabAllocator.Proofs.Unfailing
import SlabAllocator.Proofs.Visits

/-! Pools do not influence each other. Whatever else goes on in its session, how a pool answers and what
it looks like afterwards follow from what it is asked, up to where the host puts its frames. -/

namespace SlabAllocator

namespace Names

variable {names : Names} {make : Make} {pool : Pool} {call : Stock.Call} {answer : Stock.Answer}
  {before after : Stock}
  {added : List Addr}

/-- The names after an answer, when these frames were added for it. -/
def learn (added : List Addr) (answer : Stock.Answer) (names : Names) : Names :=
  match answer with
  | .granted addr => (added.foldr enroll names).grant addr
  | .denied => names.deny
  | _ => names

def ask (names : Names) : Stock.Call → Rack.Ask
  | .acquire => .acquire
  | .release addr => .release (names.turn addr)
  | .compact => .compact

/-- An answer without addresses. A slot is told by the number of its frame and its offset in there. -/
def reply (names : Names) (pool : Pool) : Stock.Answer → Rack.Reply
  | .granted addr => .placed (names.number ((pool.owner? addr).getD 0)) (addr - (pool.owner? addr).getD 0)
  | .denied => .denied
  | .released => .released
  | .compacted count => .compacted count

private theorem reply_granted (names : Names) {base : Addr} {offset : Nat}
    (owner : pool.owner? (base + offset) = some base) :
    names.reply pool (.granted (base + offset)) = .placed (names.number base) offset := by
  rw [reply, owner, Option.getD_some, Nat.add_sub_cancel_left]

/-- By its address a slot is found in its frame and no other, and the frames that were added are known by theirs. -/
structure Located (make : Make) (pool : Pool) (added : List Addr) (before after : Stock) : Prop where
  inhabited : 0 < make.geometry.slots
  free : ∀ addr shelves, Stock.place? make.geometry before.shelves = some (addr, shelves) →
    ¬ before.Holds make.geometry addr
  owner : ∀ base ∈ after.shelves.map Shelf.base, ∀ index, index < make.geometry.slots →
    pool.owner? (base + make.geometry.start index) = some base
  distinct : added.Nodup
  fresh : ∀ base, base ∈ added ↔ base ∈ after.shelves.map Shelf.base ∧ base ∉ before.shelves.map Shelf.base
  mappable : after.shelves ≠ [] → make.mappable = true

theorem Located.added_nil (located : Located make pool added before after)
    (same : after.shelves.map Shelf.base = before.shelves.map Shelf.base) : added = [] := by
  apply List.eq_nil_iff_forall_not_mem.mpr
  intro base member
  obtain ⟨new, old⟩ := (located.fresh base).mp member
  rw [same] at new
  exact old new

theorem Located.added_single {base : Addr} (located : Located make pool added before after)
    (grown : after.shelves.map Shelf.base = before.shelves.map Shelf.base ++ [base])
    (new : base ∉ before.shelves.map Shelf.base) : added = [base] := by
  rw [← List.perm_singleton, List.perm_ext_iff_of_nodup located.distinct (List.nodup_singleton base)]
  intro other
  rw [located.fresh, grown, List.mem_append, List.mem_singleton]
  constructor
  · rintro ⟨old | same, away⟩
    · exact absurd old away
    · exact same
  · rintro rfl
    exact ⟨.inr rfl, new⟩

/-- How a pool is served by address and how it is served by name are the same. -/
theorem Tell.step (tell : names.Tell make.geometry before)
    (step : Stock.Step make.geometry make.interval call answer before after)
    (located : Located make pool added before after)
    (denied : answer = .denied → Stock.place? make.geometry before.shelves = none → make.mappable = false) :
    (names.learn added answer).Tell make.geometry after ∧
      Rack.serve make (names.rack make.geometry before) (names.ask call) =
        ((names.learn added answer).reply pool answer, (names.learn added answer).rack make.geometry after) := by
  cases step with
  | @take _ addr shelves place =>
    have same := Stock.bases_place? place
    obtain rfl := located.added_nil same
    obtain ⟨tell', base, listed, index, inside, rfl, served⟩ := tell.take place (located.free _ _ place)
    rw [← same] at listed
    refine ⟨tell', ?_⟩
    rw [ask, served, reply_granted _ (located.owner base listed index inside)]
    rfl
  | @grow _ base full new =>
    obtain rfl := located.added_single (by rw [List.map_append, List.map_singleton]) new
    have owner := located.owner base (by simp) 0 located.inhabited
    have unheld : ¬ before.Holds make.geometry (base + make.geometry.start 0) := by
      rintro ⟨shelf, member, index, used, same⟩
      have other := located.owner shelf.base (by simp [List.mem_map_of_mem member]) index
        (tell.inside shelf member index used)
      rw [← same, owner] at other
      exact new (List.mem_map.mpr ⟨shelf, member, (Option.some.inj other).symm⟩)
    obtain ⟨tell', served⟩ := tell.grow full new unheld (located.mappable (by simp)) located.inhabited
    refine ⟨tell', ?_⟩
    have numbered : (names.learn [base] (.granted (base + make.geometry.start 0))).number base = names.grown :=
      Function.update_self ..
    rw [ask, served, reply_granted _ owner, numbered]
    rfl
  | deny full => exact tell.deny full (denied rfl full)
  | @release _ addr holds => exact tell.release holds
  | compact left =>
    obtain ⟨tell', served⟩ := tell.compact
    refine ⟨tell', ?_⟩
    rw [ask, served, ← left, Nat.add_sub_cancel_left]
    rfl

end Names

namespace Session

def owners (session : Session σ ω) (source : Source) : Owners :=
  (session.pool? source).elim [] Pool.owners

section Diary

variable [Host σ]

/-- What one pool is asked by an operation and how it answers, and its names from then on. -/
def note (source : Source) (names : Names) (op : Op ω) (before after : Session σ ω) :
    Option (Rack.Entry × Names) :=
  (before.visit? source op).bind fun visit => (after.pool? source).map fun pool =>
    let learned := names.learn (pool.owners.filter (· ∉ before.owners source)) visit.2
    (⟨names.ask visit.1, learned.reply pool visit.2, pool.outlook learned after.memory⟩, learned)

/-- What one pool is asked in a run and how it answers, up to where the run stops. -/
def diary (source : Source) : Names → List (Op ω) → Session σ ω → List Rack.Entry
  | _, [], _ => []
  | names, op :: rest, session =>
    match step op session with
    | .error .. => []
    | .ok _ after =>
      match note source names op session after with
      | some (entry, learned) => entry :: diary source learned rest after
      | none => diary source names rest after

def exhausts (make : Make) (source : Source) (session : Session σ ω) (op : Op ω) : Bool :=
  (session.visit? source op).any (·.1 = .acquire) &&
    (Stock.place? make.geometry (session.berth source).stock.shelves).isNone

/-- Whether the host has a frame for the pool each time that it needs another one. Others may be denied theirs. -/
def supplied (make : Make) (source : Source) : List (Op ω) → Session σ ω → Bool
  | [], _ => true
  | op :: rest, session =>
    (!make.mappable || !session.exhausts make source op ||
        Host.grants session.arena.machine.host (pageBytes session.arena.pageSize make.geometry.frameLen)) &&
      match step op session with
      | .error .. => true
      | .ok _ after => supplied make source rest after

end Diary

variable [Host σ] [LawfulHost σ] {session after : Session σ ω} {source : Source} {make : Make}
  {names : Names} {op : Op ω}
  {call : Stock.Call} {answer : Stock.Answer}

private theorem Sound.mem_owners (sound : Sound session) (base : Addr) :
    base ∈ session.owners source ↔ base ∈ (session.berth source).stock.shelves.map Shelf.base := by
  rw [owners, Berth.stock, berth]
  cases here : session.pool? source with
  | none => rfl
  | some pool => exact (sound.valid_of here).mem_bases.symm

/-- A slot that is to be handed out is not handed out yet. -/
private theorem Sound.place_free (sound : Sound session) (fits : (session.berth source).Fits make) {addr : Addr}
    {shelves : List Shelf} (place : Stock.place? make.geometry (session.berth source).stock.shelves =
      some (addr, shelves)) :
    ¬ (session.berth source).stock.Holds make.geometry addr := by
  rw [Berth.stock, berth] at place ⊢
  cases here : session.pool? source with
  | none =>
    rw [here] at place
    cases place
  | some pool =>
    rw [here, Option.elim_some] at place
    rw [Option.elim_some]
    rw [← (fits pool here).1] at place ⊢
    have valid := sound.valid_of here
    obtain ⟨left, shelf, right, index, shape, -, vacant, rfl, -⟩ := Stock.place?_eq_some place
    obtain ⟨inside, unused, -⟩ := Shelf.vacancy?_eq_some.mp vacant
    obtain ⟨owned, same⟩ := valid.mem_shelves (show shelf ∈ _ by simp [shape])
    rw [valid.holds_iff, valid.start_mem_live sound.accounts.machine.spread owned inside]
    intro used
    apply unused
    rw [same, Pool.shelf, List.mem_toFinset]
    exact used

/-- A pool with a frame was given one. -/
private theorem Sound.mappable (sound : Sound session) (makes : session.make? source = some make)
    (framed : (session.berth source).stock.shelves ≠ []) : make.mappable = true := by
  rw [make?_mappable makes, decide_eq_true_iff]
  obtain ⟨shelf, member⟩ := List.exists_mem_of_ne_nil _ framed
  have owned := (sound.mem_owners shelf.base).mpr (List.mem_map_of_mem member)
  cases here : session.pool? source with
  | none =>
    rw [owners, here] at owned
    cases owned
  | some pool =>
    rw [owners, here, Option.elim_some] at owned
    have proper := sound.accounts.proper (List.mem_append_left _ (mem_frames here owned))
    rw [← (make?_fits makes pool here).1]
    exact proper.2.2

private theorem Sound.located (sound : Sound session) (sound' : Sound after)
    (makes : session.make? source = some make) (makes' : after.make? source = some make) {pool : Pool}
    (here : after.pool? source = some pool) :
    Names.Located make pool (pool.owners.filter (· ∉ session.owners source)) (session.berth source).stock
      (after.berth source).stock := by
  have geometry : pool.geometry = make.geometry := (make?_fits makes' pool here).1
  have valid := sound'.valid_of here
  have stock : (after.berth source).stock = pool.stock after.memory := by
    rw [Berth.stock, berth, here]
    rfl
  constructor
  case inhabited =>
    rw [← geometry]
    exact valid.geometry.inhabited
  case free => exact fun addr shelves => sound.place_free (make?_fits makes)
  case owner =>
    rw [stock, ← geometry]
    intro base member index inside
    exact valid.owner?_eq sound'.accounts.machine.spread (valid.mem_bases.mp member) inside
  case distinct => exact valid.nodup.filter _
  case fresh =>
    intro base
    rw [List.mem_filter, decide_eq_true_iff, stock, valid.mem_bases, sound.mem_owners]
  case mappable => exact sound'.mappable makes'

/-- A visit is noted as what follows from the names. -/
private theorem Sound.note_serves (sound : Sound session) (sound' : Sound after)
    (makes : session.make? source = some make) (makes' : after.make? source = some make)
    (visit : session.visit? source op = some (call, answer)) (works :
      Berth.Works make (session.arena.Supplies make) call answer (session.berth source) (after.berth source))
    (served : make.mappable = true → session.exhausts make source op = true →
      Host.grants session.arena.machine.host (pageBytes session.arena.pageSize make.geometry.frameLen) = true)
    (tell : names.Tell make.geometry (session.berth source).stock) :
    ∃ reply outlook learned, note source names op session after =
      some (⟨names.ask call, reply, outlook⟩, learned) ∧
      learned.Tell make.geometry (after.berth source).stock ∧
      Rack.serve make (names.rack make.geometry (session.berth source).stock) (names.ask call) =
        (reply, learned.rack make.geometry (after.berth source).stock) ∧
      (learned.rack make.geometry (after.berth source).stock).Shows make.geometry outlook := by
  obtain ⟨pool, here⟩ := Option.isSome_iff_exists.mp works.present
  change after.pool? source = some pool at here
  have denied : answer = .denied → Stock.place? make.geometry (session.berth source).stock.shelves = none →
      make.mappable = false := by
    rintro rfl full
    rw [← Bool.not_eq_true]
    intro short
    have exhausted : session.exhausts make source op = true := by
      rw [exhausts, visit, works.step.acquires, full]
      rfl
    exact works.denied rfl ⟨short, served short exhausted⟩
  have learns := tell.step works.step (sound.located sound' makes makes' here) denied
  have shows : ((names.learn (pool.owners.filter (· ∉ session.owners source)) answer).rack make.geometry
      (after.berth source).stock).Shows make.geometry
      (pool.outlook (names.learn (pool.owners.filter (· ∉ session.owners source)) answer) after.memory) := by
    obtain ⟨locked, focused⟩ := sound'.focus here
    rw [Berth.stock, berth, here, ← (works.fits pool here).1]
    exact focused.valid.shows focused.liveSlots_eq _
  rw [note, visit, Option.bind_some, here, Option.map_some]
  exact ⟨_, _, _, rfl, learns.1, learns.2, shows⟩

/-- Whatever a pool is asked in a run, it answers as its frames and slots do under their names. -/
theorem Sound.diary_follows (sound : Sound session) (makes : session.make? source = some make) {ops : List (Op ω)}
    (spares : ∀ op ∈ ops, op.spares source = true) (supplied : session.supplied make source ops = true)
    (tell : names.Tell make.geometry (session.berth source).stock) :
    Rack.Follows make (names.rack make.geometry (session.berth source).stock)
      (session.diary source names ops) := by
  -- What carries over from step to step is that the names tell the slots apart that are handed out.
  induction ops generalizing session names with
  | nil => exact .nil
  | cons op rest ih =>
    obtain ⟨spares, others⟩ := List.forall_mem_cons.mp spares
    rw [Session.supplied, Bool.and_eq_true] at supplied
    obtain ⟨granted, supplied⟩ := supplied
    rw [diary]
    cases stepped : step op session with
    | error fault after => exact .nil
    | ok _ after =>
      simp only [stepped] at supplied ⊢
      have visited := (sound.step_attends makes spares).of_ok stepped
      have sound' := ((sound.step_spec op).of_ok stepped).1
      have makes' := sound.make?_step makes spares stepped
      cases visit : session.visit? source op with
      | none =>
        have unnoted : note source names op session after = none := by rw [note, visit, Option.bind_none]
        rw [visit] at visited
        have stock := Berth.Rests.stock visited
        simp only [unnoted]
        rw [← stock] at tell ⊢
        exact ih sound' makes' others supplied tell
      | some visited' =>
        obtain ⟨call, answer⟩ := visited'
        rw [visit] at visited
        have granted : make.mappable = true → session.exhausts make source op = true →
            Host.grants session.arena.machine.host (pageBytes session.arena.pageSize make.geometry.frameLen) =
              true := by
          intro short exhausted
          simpa [short, exhausted] using granted
        obtain ⟨reply, outlook, learned, noted, tell', serves, shows⟩ :=
          sound.note_serves sound' makes makes' visit visited granted tell
        have entries : Rack.Follows make (names.rack make.geometry (session.berth source).stock)
            (⟨names.ask call, (Rack.serve make (names.rack make.geometry (session.berth source).stock)
              (names.ask call)).1, outlook⟩ ::
              diary source learned rest after) := by
          apply Rack.Follows.cons
          · rw [serves]
            exact shows
          · rw [serves]
            exact ih sound' makes' others supplied tell'
        rw [serves] at entries
        simp only [noted]
        exact entries

omit [Host σ] [LawfulHost σ] in
/-- A pool without frames has none to name. -/
private theorem berth_bare (bare : ∀ pool, session.pool? source = some pool → pool.Bare) :
    (session.berth source).stock = ⟨[], 0⟩ := by
  rw [Berth.stock, berth]
  cases here : session.pool? source with
  | none => rfl
  | some pool =>
    obtain ⟨frames, -, releases⟩ := bare pool here
    rw [Option.elim_some, Pool.stock, frames, releases]
    rfl

/-- The diaries of two pools of one make are the same if they are asked the same, however different the
sessions are that they are in. -/
theorem Attained.independent {τ υ : Type} [Host τ] [LawfulHost τ] {other : Session τ υ} {target : Source}
    (attained : Attained session) (attained' : Attained other)
    (makes : session.make? source = some make) (makes' : other.make? target = some make)
    (bare : ∀ pool, session.pool? source = some pool → pool.Bare)
    (bare' : ∀ pool, other.pool? target = some pool → pool.Bare) {ops : List (Op ω)} {others : List (Op υ)}
    (spares : ∀ op ∈ ops, op.spares source = true) (spares' : ∀ op ∈ others, op.spares target = true)
    (supplied : session.supplied make source ops = true) (supplied' : other.supplied make target others = true)
    (same : (session.diary source .start ops).map Rack.Entry.ask =
      (other.diary target .start others).map Rack.Entry.ask) :
    session.diary source .start ops = other.diary target .start others := by
  have tell : Names.start.Tell make.geometry ⟨[], 0⟩ := ⟨nofun, by rintro _ ⟨_, ⟨⟩, -⟩, by rintro _ _ ⟨_, ⟨⟩, -⟩⟩
  have follows := attained.sound.diary_follows makes spares supplied (by rw [berth_bare bare]; exact tell)
  have follows' := attained'.sound.diary_follows makes' spares' supplied' (by rw [berth_bare bare']; exact tell)
  rw [berth_bare bare] at follows
  rw [berth_bare bare'] at follows'
  exact follows.unique follows' same

/-- Three slots a frame in the last of four classes, and a compaction with every third release. -/
def sparse : Policy :=
  ⟨65, 16, 3⟩

def undisturbed : List (Op (Option Addr)) :=
  [.alloc 64, .alloc 64, .alloc 60, .alloc 64, .free 64 0x10000000030, .free 64 0x20000000030, .compactAll,
    .alloc 64, .alloc 50, .free 50 0x30000000030]

def crowded : List (Op (Option Addr)) :=
  [.acquire 500, .alloc 64, .createPool 40, .poolAcquire 0, .alloc 64, .alloc 16, .alloc 64, .alloc 64,
    .releaseSlot 0x20000000030, .poolRelease 0 0x30000000030, .destroyPool 0, .free 64 0x50000000030, .compactAll,
    .realloc 16 0x40000000030 64, .alloc 16,
    .alloc 64, .releaseSlot 0x60000000030, .alloc 16]

omit [LawfulHost σ] in
private theorem start_of_replay {host : σ} {policy : Policy} {env : ω}
    (begun : replay host policy env [] = some session) : start host policy env = .ok (.ok session) := by
  obtain ⟨_, started, ran⟩ := replay_spec begun
  cases ran
  exact started

theorem independent_of_crowded :
    ∃ (session : Session (Quota Heap) (Option Addr)) (other : Session Heap (Option Addr)),
    replay (.new (.new 256) 1024) sparse none [] = some session ∧ replay (.new 256) sparse none [] = some other ∧
      session.diary (.registry 3) .start undisturbed = other.diary (.registry 3) .start crowded ∧
      (session.diary (.registry 3) .start undisturbed).map Rack.Entry.reply =
        [.placed 0 48, .placed 0 112, .placed 0 176,
        .placed 1 48, .released, .released, .compacted 1, .placed 0 48, .placed 2 48, .released] := by
  have ended : ((replay (Quota.new (Heap.new 256) 1024) sparse none []).bind fun session =>
      (replay (Heap.new 256) sparse none []).bind fun other => (session.make? (.registry 3)).map fun make =>
        (decide (other.make? (.registry 3) = some make), session.supplied make (.registry 3) undisturbed,
          other.supplied make (.registry 3) crowded,
          decide ((session.diary (.registry 3) .start undisturbed).map Rack.Entry.ask =
            (other.diary (.registry 3) .start crowded).map Rack.Entry.ask),
          (session.diary (.registry 3) .start undisturbed).map Rack.Entry.reply)) =
      some (true, true, true, true,
        [.placed 0 48, .placed 0 112, .placed 0 176, .placed 1 48, .released, .released, .compacted 1,
          .placed 0 48, .placed 2 48, .released]) := by
    decide +kernel
  obtain ⟨session, begun, ended⟩ := Option.bind_eq_some_iff.mp ended
  obtain ⟨other, begun', ended⟩ := Option.bind_eq_some_iff.mp ended
  obtain ⟨make, makes, ended⟩ := Option.map_eq_some_iff.mp ended
  simp only [Prod.mk.injEq, decide_eq_true_eq] at ended
  obtain ⟨makes', supplied, supplied', same, replies⟩ := ended
  have starts : Starts (Quota.new (Heap.new 256) 1024) sparse none session :=
    ⟨⟨Placement.holds_start, rfl⟩, by decide, by decide, start_of_replay begun⟩
  have starts' : Starts (Heap.new 256) sparse none other :=
    ⟨Placement.holds_start, by decide, by decide, start_of_replay begun'⟩
  have vacant : ∀ pool, session.pool? (.registry 3) = some pool → pool.Bare := by
    rw [starts.vacant]
    exact nofun
  have vacant' : ∀ pool, other.pool? (.registry 3) = some pool → pool.Bare := by
    rw [starts'.vacant]
    exact nofun
  exact ⟨session, other, begun, begun',
    Attained.independent (.start starts) (.start starts') makes makes' vacant vacant'
    (by decide) (by decide) supplied supplied' same, replies⟩

end Session
end SlabAllocator
