import SlabAllocator.Proofs.Following

/-! How deep the hooks may nest only matters if they nest deeper. So the bound in the definition of an
allocation does not show: allocation is the call that turns to the hook in which allocation is that same call again. -/

namespace SlabAllocator.Arena

variable {run other : Run (Arena σ ω) α} {turns turns' : Arena σ ω → Turns ω}

/-- The second does what the first does and takes the same turns, unless the first stops for want of nesting. -/
def Agrees (run : Run (Arena σ ω) α) (turns : Arena σ ω → Turns ω) (other : Run (Arena σ ω) α)
    (turns' : Arena σ ω → Turns ω) : Prop :=
  ∀ arena, (∃ after, run arena = .error .nesting after) ∨ run arena = other arena ∧ turns arena = turns' arena

namespace Agrees

theorem refl (run : Run (Arena σ ω) α) (turns : Arena σ ω → Turns ω) : Agrees run turns run turns :=
  fun _ => .inr ⟨rfl, rfl⟩

theorem trans {last : Run (Arena σ ω) α} {turns'' : Arena σ ω → Turns ω} (first : Agrees run turns other turns')
    (second : Agrees other turns' last turns'') : Agrees run turns last turns'' := by
  intro arena
  rcases first arena with nested | ⟨same, same'⟩
  · exact .inl nested
  · rw [same, same']
    exact second arena

theorem bind {next next' : α → Run (Arena σ ω) β} {later later' : α → Arena σ ω → Turns ω}
    (first : Agrees run turns other turns') (second : ∀ a, Agrees (next a) (later a) (next' a) (later' a)) :
    Agrees (run >>= next) (fun arena => (turns arena).append (following run later arena))
      (other >>= next') (fun arena => (turns' arena).append (following other later' arena)) := by
  intro arena
  rcases first arena with ⟨after, failed⟩ | ⟨same, same'⟩
  · exact .inl ⟨after, Run.bind_error failed next⟩
  · cases ran : other arena with
    | error fault after =>
      refine .inr ⟨?_, ?_⟩
      · rw [Run.bind_error (same.trans ran), Run.bind_error ran]
      · exact congr (congrArg _ same')
          ((following_error (same.trans ran) later).trans (following_error ran later').symm)
    | ok a middle =>
      rw [Run.bind_ok (same.trans ran), Run.bind_ok ran]
      refine (second a middle).imp_right ?_
      rintro ⟨same'', turned⟩
      refine ⟨same'', congr (congrArg _ same') ?_⟩
      rw [following_ok (same.trans ran), following_ok ran, turned]

theorem then_same (first : Agrees run turns other turns') (next : α → Run (Arena σ ω) β) :
    Agrees (run >>= next) turns (other >>= next) turns' := by
  have whole := first.bind fun a => refl (next a) fun _ => .done
  simpa only [following_done, Turns.append_done] using whole

theorem of_same (run : Run (Arena σ ω) α) {next next' : α → Run (Arena σ ω) β}
    {later later' : α → Arena σ ω → Turns ω} (second : ∀ a, Agrees (next a) (later a) (next' a) (later' a)) :
    Agrees (run >>= next) (following run later) (run >>= next') (following run later') :=
  (refl run fun _ => .done).bind second

end Agrees

variable [Host σ] {acquire acquire' : Nat → Run (Arena σ ω) Outcome}
  {turnsOf turnsOf' : Nat → Arena σ ω → Turns ω}

theorem resizeWith_agrees (agree : ∀ size, Agrees (acquire size) (turnsOf size) (acquire' size) (turnsOf' size))
    (oldSize : Nat) (addr : Addr) (newSize : Nat) :
    Agrees (resizeWith acquire oldSize addr newSize) (resizeTurns turnsOf oldSize addr newSize)
      (resizeWith acquire' oldSize addr newSize) (resizeTurns turnsOf' oldSize addr newSize) := by
  rw [resizeWith_eq, resizeWith_eq]
  refine .of_same _ fun settled => ?_
  cases settled with
  | some outcome => exact .refl _ _
  | none => exact (agree newSize).then_same _

theorem carryOut_agrees (agree : ∀ size, Agrees (acquire size) (turnsOf size) (acquire' size) (turnsOf' size))
    (deed : Deed) : Agrees (carryOut acquire deed) (deedTurns turnsOf deed) (carryOut acquire' deed)
      (deedTurns turnsOf' deed) := by
  cases deed with
  | acquire size => exact (agree size).then_same _
  | resize oldSize addr newSize => exact (resizeWith_agrees agree oldSize addr newSize).then_same _
  | pass | release | take | probe | supply | unwind => exact .refl _ _

theorem runProgram_branch (requested : Nat) (test : ω → Bool) (yes no : Program ω) (arena : Arena σ ω) :
    runProgram acquire requested (.branch test yes no) arena =
      runProgram acquire requested (if test arena.env then yes else no) arena := by
  refine (Run.get_bind _).trans ?_
  split <;> rfl

theorem programTurns_branch (requested : Nat) (test : ω → Bool) (yes no : Program ω) (arena : Arena σ ω) :
    programTurns acquire turnsOf requested (.branch test yes no) arena =
      programTurns acquire turnsOf requested (if test arena.env then yes else no) arena := by
  rw [programTurns]
  split <;> rfl

theorem runProgram_agrees (agree : ∀ size, Agrees (acquire size) (turnsOf size) (acquire' size) (turnsOf' size))
    (requested : Nat) : ∀ program : Program ω,
      Agrees (runProgram acquire requested program) (programTurns acquire turnsOf requested program)
        (runProgram acquire' requested program) (programTurns acquire' turnsOf' requested program)
  | .answer _ => .refl _ _
  | .perform choose learn next => fun arena => by
    have both := (carryOut_agrees agree (choose requested arena.env)).bind fun reply =>
      .of_same (modify fun arena => { arena with env := learn reply arena.env })
        fun _ => runProgram_agrees agree requested next
    exact both arena
  | .record change next => fun arena => by
    have both := Agrees.of_same (modify fun arena : Arena σ ω => { arena with env := change requested arena.env })
        fun _ => runProgram_agrees agree requested next
    exact both arena
  | .branch test yes no => fun arena => by
    rw [runProgram_branch, runProgram_branch, programTurns_branch, programTurns_branch]
    split
    · exact runProgram_agrees agree requested yes arena
    · exact runProgram_agrees agree requested no arena
  | .install programs next => fun arena => by
    have rest := Agrees.of_same (setHook (some ⟨programs⟩)) fun _ => runProgram_agrees agree requested next
    exact (rest arena).imp_right (And.imp_right (congrArg (Turns.installed ⟨programs⟩)))

theorem escalateWith_agrees (agree : ∀ size, Agrees (acquire size) (turnsOf size) (acquire' size) (turnsOf' size))
    (hook : Hook ω) (size : Nat) :
    Agrees (escalateWith acquire hook size) (hookTurns acquire turnsOf hook size)
      (escalateWith acquire' hook size) (hookTurns acquire' turnsOf' hook size) := by
  intro arena
  have both := Agrees.of_same (detach size) fun _ => (runProgram_agrees agree size hook.program).then_same
    (reattach hook size)
  rw [escalateWith_eq, escalateWith_eq]
  refine (both arena).imp_right (And.imp_right fun same => ?_)
  unfold hookTurns
  cases ran : detach size arena with
  | error fault after => rfl
  | ok _ begun =>
    rw [following_ok ran, following_ok ran] at same
    exact congrArg (Turns.ran hook · .done) same

theorem acquireOr_agrees {recover recover' : Hook ω → Run (Arena σ ω) Outcome}
    {recoverTurns recoverTurns' : Hook ω → Arena σ ω → Turns ω}
    (agree : ∀ hook, Agrees (recover hook) (recoverTurns hook) (recover' hook) (recoverTurns' hook))
    (size : Nat) :
    Agrees (acquireOr recover size) (acquireTurns recoverTurns size) (acquireOr recover' size)
      (acquireTurns recoverTurns' size) := by
  rw [acquireOr_eq, acquireOr_eq]
  refine .of_same _ fun granted => ?_
  cases granted with
  | some block => exact .refl _ _
  | none =>
    intro denied
    dsimp only
    rw [Run.get_bind, Run.get_bind]
    cases denied.hook with
    | none => exact .inr ⟨rfl, rfl⟩
    | some hook => exact agree hook denied

/-- More fuel makes no difference to a call that has enough. -/
theorem acquireWithin_agrees (fuel size : Nat) :
    Agrees (acquireWithin (σ := σ) (ω := ω) fuel size) (turnsWithin fuel size) (acquireWithin (fuel + 1) size)
      (turnsWithin (fuel + 1) size) := by
  induction fuel generalizing size with
  | zero => exact acquireOr_agrees (fun hook arena => .inl ⟨arena, rfl⟩) size
  | succ fuel ih => exact acquireOr_agrees (fun hook => escalateWith_agrees ih hook size) size

theorem acquireWithin_agrees_le {fuel more : Nat} (enough : fuel ≤ more) (size : Nat) :
    Agrees (acquireWithin (σ := σ) (ω := ω) fuel size) (turnsWithin fuel size) (acquireWithin more size)
      (turnsWithin more size) := by
  induction enough with
  | refl => exact .refl _ _
  | step _ ih => exact ih.trans (acquireWithin_agrees _ size)

theorem acquire_calm (calm : Host.Calm σ) (size : Nat) (arena after : Arena σ ω) :
    Arena.acquire size arena ≠ .error .nesting after :=
  fun failed => ((acquire_follows calm _ size arena (Nat.le_refl _)).meets.of_error failed).1 rfl

theorem acquireWithin_eq (calm : Host.Calm σ) {arena : Arena σ ω} {fuel : Nat}
    (enough : arena.hookDepth ≤ fuel) (size : Nat) :
    acquireWithin fuel size arena = Arena.acquire size arena ∧
    turnsWithin fuel size arena = Arena.turns size arena := by
  rcases acquireWithin_agrees_le enough size arena with ⟨after, failed⟩ | ⟨same, same'⟩
  · exact absurd failed (acquire_calm calm size arena after)
  · exact ⟨same.symm, same'.symm⟩

theorem acquire_agrees (calm : Host.Calm σ) (fuel size : Nat) :
    Agrees (acquireWithin (σ := σ) (ω := ω) fuel size) (turnsWithin fuel size) (Arena.acquire size)
      (Arena.turns size) := by
  intro arena
  rcases Nat.le_total fuel arena.hookDepth with less | enough
  · exact acquireWithin_agrees_le less size arena
  · exact .inr (acquireWithin_eq calm enough size)

/-- Allocation turns to the hook, in which allocation is the same again. -/
theorem acquire_unfold (calm : Host.Calm σ) (size : Nat) (arena : Arena σ ω) :
    Arena.acquire size arena = acquireOr (fun hook => escalateWith Arena.acquire hook size) size arena ∧
      Arena.turns size arena = acquireTurns
        (fun hook => hookTurns Arena.acquire Arena.turns hook size) size arena := by
  obtain ⟨same, same'⟩ := acquireWithin_eq calm (Nat.le_succ arena.hookDepth) size
  rw [← same, ← same']
  have unfolded := acquireOr_agrees
    (fun hook => escalateWith_agrees (acquire_agrees (ω := ω) calm arena.hookDepth) hook size) size
  refine (unfolded arena).resolve_left ?_
  rintro ⟨after, failed⟩
  exact acquire_calm calm size arena after (same.symm.trans failed)

end SlabAllocator.Arena
