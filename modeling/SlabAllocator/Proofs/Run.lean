import SlabAllocator.Fault

/-! Assertions for runs: what holds of the result and the state when a run ends, and of the
fault and the state when it stops. Most rules are equations, so that a proof follows the text of the program. -/

namespace SlabAllocator.Run

/-- From `start` the run ends in `post`, or stops in `stop`. -/
def Meets (run : Run σ α) (start : σ) (post : α → σ → Prop) (stop : Fault → σ → Prop) : Prop :=
  match run start with
  | .ok a final => post a final
  | .error fault final => stop fault final

def ended? (run : Run σ α) (start : σ) : Option (α × σ) :=
  match run start with
  | .ok a final => some (a, final)
  | .error .. => none

def value? (run : Run σ α) (start : σ) : Option α :=
  (run.ended? start).map Prod.fst

/-- A run that meets this postcondition stops for no reason. -/
abbrev Ends (run : Run σ α) (start : σ) (post : α → σ → Prop) : Prop :=
  run.Meets start post fun _ _ => False

variable {post : α → σ → Prop} {stop : Fault → σ → Prop} {start : σ}

theorem Meets.mono {run : Run σ α} {weaker : α → σ → Prop} {later : Fault → σ → Prop}
    (meets : run.Meets start post stop) (ended : ∀ a final, post a final → weaker a final)
    (stopped : ∀ fault final, stop fault final → later fault final) :
    run.Meets start weaker later := by
  unfold Meets at meets ⊢
  cases result : run start with
  | ok a final => simp only [result] at meets; exact ended a final meets
  | error fault final => simp only [result] at meets; exact stopped fault final meets

theorem Meets.imp {run : Run σ α} {weaker : α → σ → Prop} (meets : run.Meets start post stop)
    (ended : ∀ a final, post a final → weaker a final) : run.Meets start weaker stop :=
  meets.mono ended fun _ _ holds => holds

theorem Ends.imp {run : Run σ α} {weaker : α → σ → Prop} (ends : run.Ends start post)
    (ended : ∀ a final, post a final → weaker a final) : run.Meets start weaker stop :=
  ends.mono ended fun _ _ impossible => impossible.elim

theorem Meets.of_ok {run : Run σ α} {a : α} {final : σ} (meets : run.Meets start post stop)
    (ran : run start = .ok a final) : post a final := by
  simpa only [Meets, ran] using meets

theorem Meets.of_error {run : Run σ α} {fault : Fault} {final : σ} (meets : run.Meets start post stop)
    (failed : run start = .error fault final) : stop fault final := by
  simpa only [Meets, failed] using meets

theorem Meets.ended {run : Run σ α} {a : α} {final : σ} (ran : run start = .ok a final) (holds : post a final) :
    run.Meets start post stop := by
  simpa only [Meets, ran] using holds

theorem Meets.halted {run : Run σ α} {fault : Fault} {final : σ} (failed : run start = .error fault final)
    (holds : stop fault final) : run.Meets start post stop := by
  simpa only [Meets, failed] using holds

theorem Meets.and {run : Run σ α} {also : α → σ → Prop} {halt : Fault → σ → Prop}
    (first : run.Meets start post stop) (second : run.Meets start also halt) :
    run.Meets start (fun a final => post a final ∧ also a final) fun fault final => stop fault final ∧
      halt fault final := by
  unfold Meets at first second ⊢
  cases result : run start with
  | ok a final => simp only [result] at first second; exact ⟨first, second⟩
  | error fault final => simp only [result] at first second; exact ⟨first, second⟩

/-- What a run meets is said of the result and the state, or the fault and the state, that it has. -/
theorem Meets.traced {run : Run σ α} (meets : run.Meets start post stop) :
    run.Meets start (fun a final => run start = .ok a final ∧ post a final)
      (fun fault final => run start = .error fault final ∧ stop fault final) := by
  unfold Meets at meets ⊢
  cases result : run start with
  | ok a final => simp only [result] at meets; exact ⟨rfl, meets⟩
  | error fault final => simp only [result] at meets; exact ⟨rfl, meets⟩

/-- A run comes to the result that it has. -/
theorem Meets.result (run : Run σ α) (start : σ) :
    run.Meets start (fun a final => run start = .ok a final) fun fault final => run start =
      .error fault final := by
  unfold Meets
  cases run start <;> rfl

/-- Any run ends in what holds of every result, or else stops in what holds of every fault. -/
theorem Meets.all {run : Run σ α} (ended : ∀ a final, post a final) (stopped : ∀ fault final, stop fault final) :
    run.Meets start post stop := by
  unfold Meets
  cases run start with
  | ok a final => exact ended a final
  | error fault final => exact stopped fault final

theorem Meets.any {run : Run σ α} (always : ∀ a final, post a final) : run.Meets start post fun _ _ => True :=
  .all always fun _ _ => trivial

theorem Ends.exists_ok {run : Run σ α} (ends : run.Ends start post) :
    ∃ a final, run start = .ok a final ∧ post a final := by
  unfold Ends Meets at ends
  cases result : run start with
  | ok a final => simp only [result] at ends; exact ⟨a, final, rfl, ends⟩
  | error fault final => simp only [result] at ends

theorem ended?_eq_some {run : Run σ α} {a : α} {final : σ} : run.ended? start = some (a, final) ↔
    run start = .ok a final := by
  unfold ended?
  cases run start <;> simp

theorem value?_of_ok {run : Run σ α} {a : α} {final : σ} (ran : run start = .ok a final) :
    run.value? start = some a := by
  rw [value?, ended?_eq_some.mpr ran, Option.map_some]

@[simp]
theorem meets_pure (a : α) : (pure a : Run σ α).Meets start post stop = post a start :=
  rfl

@[simp]
theorem meets_bind (run : Run σ β) (next : β → Run σ α) :
    (run >>= next).Meets start post stop =
      run.Meets start (fun b middle => (next b).Meets middle post stop) stop := by
  simp only [Meets, bind, EStateM.bind]
  cases run start <;> rfl

@[simp]
theorem meets_get {post : σ → σ → Prop} : (get : Run σ σ).Meets start post stop = post start start :=
  rfl

@[simp]
theorem meets_modify {post : Unit → σ → Prop} (change : σ → σ) :
    (modify change : Run σ Unit).Meets start post stop = post () (change start) :=
  rfl

@[simp]
theorem meets_throw (fault : Fault) :
    (throw fault : Run σ α).Meets start post stop = stop fault start :=
  rfl

@[simp]
theorem meets_set {post : PUnit → σ → Prop} (value : σ) :
    (set value : Run σ PUnit).Meets start post stop = post () value :=
  rfl

theorem meets_lift {checked : Checked α} {a : α} (done : checked = .ok a) :
    (liftM checked : Run σ α).Meets start post stop ↔ post a start := by
  subst done; rfl

theorem meets_lift_error {checked : Checked α} {fault : Fault} (failed : checked = .error fault) :
    (liftM checked : Run σ α).Meets start post stop ↔ stop fault start := by
  subst failed; rfl

theorem meets_lift_cases {checked : Checked α} (ended : ∀ a, checked = .ok a → post a start)
    (stopped : ∀ fault, checked = .error fault → stop fault start) :
    (liftM checked : Run σ α).Meets start post stop := by
  cases result : checked with
  | ok a => exact (meets_lift rfl).mpr (ended a result)
  | error fault => exact (meets_lift_error rfl).mpr (stopped fault result)

theorem meets_lift_any {checked : Checked α} (always : ∀ a, checked = .ok a → post a start) :
    (liftM checked : Run σ α).Meets start post fun _ _ => True :=
  meets_lift_cases always fun _ _ => trivial

@[simp]
theorem meets_focus {action : Run τ α} (part : σ → τ) (place : τ → σ → σ) :
    (Run.focus part place action).Meets start post stop =
      action.Meets (part start) (fun a inner => post a (place inner start))
        (fun fault inner => stop fault (place inner start)) := by
  simp only [Meets, Run.focus]
  cases action (part start) <;> rfl

theorem bind_ok {run : Run σ α} {a : α} {final : σ} (ran : run start = .ok a final) (next : α → Run σ β) :
    (run >>= next) start = next a final := by
  simp only [bind, EStateM.bind, ran]

theorem get_bind (next : σ → Run σ α) : (get >>= next) start = next start start :=
  rfl

theorem focus_ok {action : Run τ α} {part : σ → τ} {a : α} {inner : τ} (ran : action (part start) = .ok a inner)
    (place : τ → σ → σ) : Run.focus part place action start = .ok a (place inner start) := by
  rw [Run.focus, ran]

theorem bind_error {run : Run σ α} {fault : Fault} {final : σ} (failed : run start = .error fault final)
    (next : α → Run σ β) : (run >>= next) start = .error fault final := by
  simp only [bind, EStateM.bind, failed]

theorem bind_of_eq {run other : Run σ α} (same : run start = other start) (next : α → Run σ β) :
    (run >>= next) start = (other >>= next) start := by
  simp only [bind, EStateM.bind, same]

/-- What follows a run matters only where the run can end. -/
theorem bind_congr {run : Run σ α} {next other : α → Run σ β} (meets : run.Meets start post stop)
    (same : ∀ a final, post a final → next a final = other a final) :
    (run >>= next) start = (run >>= other) start := by
  cases result : run start with
  | ok a final => rw [bind_ok result, bind_ok result, same a final (meets.of_ok result)]
  | error fault final => rw [bind_error result, bind_error result]

theorem meets_congr {run other : Run σ α} {start begin : σ} (same : run start = other begin) :
    run.Meets start post stop = other.Meets begin post stop := by
  simp only [Meets, same]

/-- Runs of which the same assertions hold come to the same end. -/
theorem eq_of_meets {run other : Run σ α} {start begin : σ}
    (same : ∀ post stop, run.Meets start post stop = other.Meets begin post stop) : run start = other begin := by
  cases result : other begin with
  | ok a final =>
    have ends := same (fun b later => b = a ∧ later = final) fun _ _ => False
    simp only [Meets, result, and_self, eq_iff_iff, iff_true] at ends
    cases ran : run start with
    | ok b later =>
      simp only [ran] at ends
      rw [ends.1, ends.2]
    | error fault later => simp only [ran] at ends
  | error fault final =>
    have stops := same (fun _ _ => False) fun other later => other = fault ∧ later = final
    simp only [Meets, result, and_self, eq_iff_iff, iff_true] at stops
    cases ran : run start with
    | ok b later => simp only [ran] at stops
    | error other later =>
      simp only [ran] at stops
      rw [stops.1, stops.2]

theorem meets_lift_calm {checked : Checked α} (calm : checked ≠ .error .nesting) (ended : ∀ a, post a start)
    (stopped : ∀ fault, fault ≠ .nesting → stop fault start) :
    (liftM checked : Run σ α).Meets start post stop := by
  refine meets_lift_cases (fun a _ => ended a) fun fault failed => stopped fault ?_
  rintro rfl
  exact calm failed

/-- Whatever state it starts from, the run leaves this part of it alone when it ends, and stops in such a way only. -/
def Upholds (view : σ → β) (stop : β → Fault → β → Prop) (run : Run σ α) : Prop :=
  ∀ start, run.Meets start (fun _ after => view after = view start) fun fault after =>
    stop (view start) fault (view after)

namespace Upholds
variable {view : σ → β} {stop : β → Fault → β → Prop}

theorem bind {run : Run σ α} {next : α → Run σ γ} (first : run.Upholds view stop)
    (second : ∀ a, (next a).Upholds view stop) : (run >>= next).Upholds view stop := by
  intro start
  rw [meets_bind]
  refine (first start).imp fun a middle same => ?_
  have rest := second a middle
  rwa [same] at rest

theorem pure (a : α) : (Pure.pure a : Run σ α).Upholds view stop :=
  fun start => by rw [meets_pure]

theorem get : (MonadState.get : Run σ σ).Upholds view stop :=
  fun start => by rw [meets_get]

theorem modify {change : σ → σ} (same : ∀ state, view (change state) = view state) :
    (modify change : Run σ Unit).Upholds view stop :=
  fun start => by rw [meets_modify]; exact same start

theorem throw {fault : Fault} (allowed : ∀ part, stop part fault part) :
    (throw fault : Run σ α).Upholds view stop :=
  fun start => by rw [meets_throw]; exact allowed _

theorem lift {checked : Checked α} (allowed : ∀ fault, checked = .error fault → ∀ part, stop part fault part) :
    (liftM checked : Run σ α).Upholds view stop :=
  fun _ => meets_lift_cases (fun _ _ => rfl) fun fault failed => allowed fault failed _

theorem focus {part : σ → τ} {place : τ → σ → σ} {inner : τ → γ} {halt : γ → Fault → γ → Prop} {action : Run τ α}
    (kept : action.Upholds inner halt) (same : ∀ state after, inner after = inner (part state) →
      view (place after state) = view state)
    (stopped : ∀ state fault after, halt (inner (part state)) fault (inner after) →
      stop (view state) fault (view (place after state))) : (Run.focus part place action).Upholds view stop := by
  intro start
  rw [meets_focus]
  exact (kept (part start)).mono (fun _ after => same start after) fun fault after => stopped start fault after

end Upholds

/-- The run leaves this part of the state alone, and it does not stop for want of nesting. -/
abbrev Keeps (view : σ → β) (run : Run σ α) : Prop :=
  run.Upholds view fun before fault after => fault ≠ .nesting ∧ after = before

namespace Keeps
variable {view : σ → β}

theorem throw {fault : Fault} (other : fault ≠ .nesting) : (throw fault : Run σ α).Keeps view :=
  Upholds.throw fun _ => ⟨other, rfl⟩

theorem lift {checked : Checked α} (other : checked ≠ .error .nesting) : (liftM checked : Run σ α).Keeps view :=
  Upholds.lift fun _ failed _ => ⟨fun nesting => other (nesting ▸ failed), rfl⟩

theorem focus {part : σ → τ} {place : τ → σ → σ} {inner : τ → γ} {action : Run τ α} (kept : action.Keeps inner)
    (same : ∀ state after, inner after = inner (part state) → view (place after state) = view state) :
    (Run.focus part place action).Keeps view :=
  Upholds.focus kept same fun state _ after stopped => ⟨stopped.1, same state after stopped.2⟩

end Keeps
-- The rules above say all there is to say; without this, elaboration runs programs on its own.
attribute [irreducible] Meets

end SlabAllocator.Run
