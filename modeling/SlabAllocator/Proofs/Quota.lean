import SlabAllocator.Proofs.Host

/-! A capped host, whatever the host under the cap does. As long as the calls name live blocks the bytes in
use are those of the live blocks and stay within the cap, and a call is denied for the cap exactly when it
would cross it. -/

namespace SlabAllocator

inductive Host.Call where
  | request (len : Nat)
  | resize (base : Addr) (oldLen newLen : Nat)
  | giveBack (base : Addr) (len : Nat)
  | protect (base : Addr) (len : Nat) (mode : Protection)

namespace Host.Call

def perform [Host σ] : Call → Run σ Event
  | request len => return .request len (← Host.request len)
  | resize base oldLen newLen => return .resize base oldLen newLen (← Host.resize base oldLen newLen)
  | giveBack base len => do
    Host.giveBack base len
    return .giveBack base len true
  | protect base len mode => return .protect base len mode (← Host.protect base len mode)

/-- Whether the block that the call is about, if it is about one, is live at this length. -/
def Names (live : List Extent) : Call → Prop
  | request _ => True
  | resize base oldLen _ => (base, oldLen) ∈ live
  | giveBack base len => (base, len) ∈ live
  | protect base len _ => (base, len) ∈ live

def Granted [Host σ] (call : Call) (host : σ) : Prop :=
  ∃ event after, call.perform host = .ok event after ∧ event.granted?.isSome

/-- The bytes by which the call would raise those in use. -/
def growth : Call → Nat
  | request len => len
  | resize _ oldLen newLen => newLen - oldLen
  | _ => 0

def denial : Call → Event
  | request len => .request len none
  | resize base oldLen newLen => .resize base oldLen newLen none
  | giveBack base len => .giveBack base len true
  | protect base len mode => .protect base len mode false

end Host.Call

namespace Quota

open Host

variable [Host σ] {inner : σ} {quota after : Quota σ} {live : List Extent} {limit : Nat} {call : Host.Call}

/-- A quota that began with nothing in use, after calls that each named a live block, and the blocks that are
live then. -/
inductive Served (inner : σ) (limit : Nat) : Quota σ → List Extent → Prop where
  | new : Served inner limit (Quota.new inner limit) []
  | call {quota after : Quota σ} {live : List Extent} {call : Host.Call} {event : Event}
      (served : Served inner limit quota live) (names : call.Names live)
      (done : call.perform quota = .ok event after) :
      Served inner limit after (event.track live)

structure Tallies (limit : Nat) (quota : Quota σ) (live : List Extent) : Prop where
  limit : quota.limit = limit
  inUse : quota.inUse = Extent.total live
  within : quota.inUse ≤ quota.limit

omit [Host σ] in
theorem fits_iff (word : quota.limit < Size.bound) {extra : Nat} :
    quota.fits extra = true ↔ quota.inUse + extra ≤ quota.limit := by
  unfold fits Size.add?
  by_cases small : quota.inUse + extra < Size.bound
  · rw [if_pos small]
    exact decide_eq_true_iff
  · rw [if_neg small]
    simp only [Bool.false_eq_true, false_iff]
    omega

omit [Host σ] in
theorem fits_eq_false_iff (word : quota.limit < Size.bound) {extra : Nat} :
    quota.fits extra = false ↔ quota.limit < quota.inUse + extra := by
  rw [Bool.eq_false_iff, Ne, fits_iff word, Nat.not_le]

/-- A call that would cross the cap is denied, and the host under the cap is not asked. -/
theorem Tallies.barred (tallies : Tallies limit quota live) (word : limit < Size.bound)
    (crosses : limit < quota.inUse + call.growth) : call.perform quota = .ok call.denial quota := by
  have within := tallies.within
  obtain rfl := tallies.limit
  cases call with
  | request len =>
    have full : quota.fits len = false := (fits_eq_false_iff word).mpr crosses
    have denied : Quota.request len quota = .ok none quota := by
      simp only [Quota.request, Run.get_bind, full, Bool.not_false, if_true]
      rfl
    exact Run.bind_ok denied _
  | resize base oldLen newLen =>
    have full : quota.fits (newLen - oldLen) = false := (fits_eq_false_iff word).mpr crosses
    have grows : oldLen < newLen := by
      simp only [Call.growth] at crosses
      omega
    have denied : Quota.resize base oldLen newLen quota = .ok none quota := by
      simp only [Quota.resize, Run.get_bind, full, grows, decide_true, Bool.not_false, Bool.and_self, if_true]
      rfl
    exact Run.bind_ok denied _
  | giveBack => exact absurd within (Nat.not_le.mpr crosses)
  | protect => exact absurd within (Nat.not_le.mpr crosses)

/-- A live block is part of what is in use. -/
theorem total_erase {base len : Nat} (member : (base, len) ∈ live) :
    Extent.total live = len + Extent.total (live.erase (base, len)) := by
  rw [Extent.total_perm (List.perm_cons_erase member), Extent.total_cons]

/-- The answer of the host under the cap is passed on, and what is in use follows it. The counting never stops
by itself. -/
def Relays (limit : Nat) (quota : Quota σ) (live : List Extent) (call : Host.Call) : Prop :=
  call.perform.Meets quota
    (fun event after => call.perform quota.inner = .ok event after.inner ∧ Tallies limit after (event.track live))
    (fun fault after => call.perform quota.inner = .error fault after.inner ∧ Tallies limit after live)

theorem Tallies.relays (tallies : Tallies limit quota live) (word : limit < Size.bound) (names : call.Names live)
    (room : quota.inUse + call.growth ≤ limit) : Relays limit quota live call := by
  have within := tallies.within
  have inUse := tallies.inUse
  obtain rfl := tallies.limit
  unfold Relays
  cases call with
  | request len =>
    have fits : quota.fits len = true := (fits_iff word).mpr room
    have added : Size.add quota.inUse len = .ok (quota.inUse + len) := Size.add_ok (Nat.lt_of_le_of_lt room word)
    simp only [Call.perform, Host.request, Quota.request, Run.meets_bind, Run.meets_get, fits, Bool.not_true,
      Bool.false_eq_true, if_false, onInner, Run.meets_focus]
    refine (Run.Meets.result _ _).mono (fun granted inner asked => ?_) fun fault inner failed => ?_
    · cases granted with
      | none =>
        simp only [Run.meets_pure]
        exact ⟨Run.bind_ok asked _, rfl, inUse, within⟩
      | some base =>
        simp only [Run.meets_bind, Run.meets_get, Run.meets_lift added, setInUse,
          Run.meets_modify, Run.meets_pure]
        exact ⟨Run.bind_ok asked _, rfl, by rw [Event.track, Extent.total_cons, ← inUse, Nat.add_comm], room⟩
    · exact ⟨Run.bind_error failed _, rfl, inUse, within⟩
  | resize base oldLen newLen =>
    have part := total_erase names
    have open' : ¬ (decide (oldLen < newLen) && !quota.fits (newLen - oldLen)) = true := by
      have fits : quota.fits (newLen - oldLen) = true := (fits_iff word).mpr room
      simp [fits]
    have taken : Size.sub quota.inUse oldLen = .ok (quota.inUse - oldLen) := Size.sub_ok (by omega)
    simp only [Call.growth] at room
    have added : Size.add (quota.inUse - oldLen) newLen = .ok (quota.inUse - oldLen + newLen) :=
      Size.add_ok (by omega)
    simp only [Call.perform, Host.resize, Quota.resize, Run.meets_bind, Run.meets_get, if_neg open', onInner,
      Run.meets_focus]
    refine (Run.Meets.result _ _).mono (fun moved inner asked => ?_) fun fault inner failed => ?_
    · cases moved with
      | none =>
        simp only [Run.meets_pure]
        exact ⟨Run.bind_ok asked _, rfl, inUse, within⟩
      | some target =>
        simp only [Run.meets_bind, Run.meets_get, Run.meets_lift taken, Run.meets_lift added, setInUse,
          Run.meets_modify, Run.meets_pure]
        refine ⟨Run.bind_ok asked _, rfl, ?_, ?_⟩
        · rw [Event.track, Extent.total_cons, inUse, part, Nat.add_sub_cancel_left, Nat.add_comm]
        · change quota.inUse - oldLen + newLen ≤ quota.limit
          omega
    · exact ⟨Run.bind_error failed _, rfl, inUse, within⟩
  | giveBack base len =>
    have part := total_erase names
    have taken : Size.sub quota.inUse len = .ok (quota.inUse - len) := Size.sub_ok (by omega)
    simp only [Call.perform, Host.giveBack, Quota.giveBack, Run.meets_bind, onInner, Run.meets_focus]
    refine (Run.Meets.result _ _).mono (fun _ inner asked => ?_) fun fault inner failed => ?_
    · simp only [Run.meets_get, Run.meets_lift taken, setInUse, Run.meets_modify, Run.meets_pure]
      refine ⟨Run.bind_ok asked _, rfl, ?_, Nat.le_trans (Nat.sub_le ..) within⟩
      rw [Event.track, inUse, part, Nat.add_sub_cancel_left]
    · exact ⟨Run.bind_error failed _, rfl, inUse, within⟩
  | protect base len mode =>
    simp only [Call.perform, Host.protect, onInner, Run.meets_bind, Run.meets_focus]
    refine (Run.Meets.result _ _).mono (fun changed inner asked => ?_) fun fault inner failed => ?_
    · simp only [Run.meets_pure]
      exact ⟨Run.bind_ok asked _, rfl, inUse, within⟩
    · exact ⟨Run.bind_error failed _, rfl, inUse, within⟩

/-- A call that is denied for the cap leaves every block where it is. -/
theorem track_denial (crosses : 0 < call.growth) : call.denial.track live = live := by
  cases call with
  | request => rfl
  | resize => rfl
  | giveBack => cases crosses
  | protect => cases crosses

theorem Tallies.step (tallies : Tallies limit quota live) (word : limit < Size.bound) (names : call.Names live)
    {event : Event} (done : call.perform quota = .ok event after) : Tallies limit after (event.track live) := by
  by_cases room : quota.inUse + call.growth ≤ limit
  · exact ((tallies.relays word names room).of_ok done).2
  · have crosses := Nat.not_le.mp room
    cases (tallies.barred word crosses).symm.trans done
    have within := tallies.within
    rw [tallies.limit] at within
    rwa [track_denial (by omega)]

theorem Served.tallies (served : Served inner limit quota live) (word : limit < Size.bound) :
    Tallies limit quota live := by
  induction served with
  | new => exact ⟨rfl, rfl, Nat.zero_le _⟩
  | call served names done ih => exact ih.step word names done

/-- A call that is passed on is granted exactly when the host under the cap grants it. -/
theorem Relays.granted_iff (relays : Relays limit quota live call) : call.Granted quota ↔
    call.Granted quota.inner := by
  constructor
  · rintro ⟨event, after, done, granted⟩
    exact ⟨event, after.inner, (relays.of_ok done).1, granted⟩
  · rintro ⟨event, inner, asked, granted⟩
    cases done : call.perform quota with
    | ok answer after =>
      cases asked.symm.trans (relays.of_ok done).1
      exact ⟨_, after, done, granted⟩
    | error fault after => cases asked.symm.trans (relays.of_error done).1

theorem Tallies.granted_iff (tallies : Tallies limit quota live) (word : limit < Size.bound)
    (names : call.Names live) (asks : call.denial.granted? = none) :
    call.Granted quota ↔ quota.inUse + call.growth ≤ limit ∧ call.Granted quota.inner := by
  by_cases room : quota.inUse + call.growth ≤ limit
  · rw [and_iff_right room]
    exact (tallies.relays word names room).granted_iff
  · refine iff_of_false ?_ fun allowed => room allowed.1
    rintro ⟨event, after, done, granted⟩
    cases (tallies.barred word (Nat.not_le.mp room)).symm.trans done
    rw [asks] at granted
    cases granted

structure Capped (limit : Nat) (quota : Quota σ) (live : List Extent) : Prop where
  inUse : quota.inUse = Extent.total live
  within : quota.inUse ≤ limit
  request : ∀ len, (Call.request len).Granted quota ↔
    (quota.inUse + len < Size.bound ∧ quota.inUse + len ≤ limit) ∧ (Call.request len).Granted quota.inner
  grow : ∀ base oldLen newLen, (base, oldLen) ∈ live → oldLen < newLen →
    ((Call.resize base oldLen newLen).Granted quota ↔
      quota.inUse + (newLen - oldLen) ≤ limit ∧ (Call.resize base oldLen newLen).Granted quota.inner)
  shrink : ∀ base oldLen newLen, (base, oldLen) ∈ live → newLen ≤ oldLen →
    ((Call.resize base oldLen newLen).Granted quota ↔ (Call.resize base oldLen newLen).Granted quota.inner)
  /-- A call that would cross the cap changes nothing at all. -/
  barred : ∀ call : Host.Call, limit < quota.inUse + call.growth → call.perform quota = .ok call.denial quota
  relays : ∀ call : Host.Call, call.Names live → quota.inUse + call.growth ≤ limit → Relays limit quota live call
  denied : ∀ (call : Host.Call) event after, call.Names live →
    call.perform quota = .ok event after → event.Still →
    after.inUse = quota.inUse ∧ event.track live = live

/-- The cap is never crossed, and it is exact: it denies no call but those that would cross it. -/
theorem Served.capped (served : Served inner limit quota live) (word : limit < Size.bound) :
    Capped limit quota live where
  inUse := (served.tallies word).inUse
  within := by
    have tallies := served.tallies word
    exact tallies.limit ▸ tallies.within
  request len := by
    rw [(served.tallies word).granted_iff word (by trivial) rfl, Call.growth]
    have small : quota.inUse + len ≤ limit → quota.inUse + len < Size.bound := (Nat.lt_of_le_of_lt · word)
    tauto
  grow base oldLen newLen named _ := (served.tallies word).granted_iff word named rfl
  shrink base oldLen newLen named shorter := by
    have tallies := served.tallies word
    have room : quota.inUse + (Call.resize base oldLen newLen).growth ≤ limit := by
      rw [Call.growth, Nat.sub_eq_zero_of_le shorter, Nat.add_zero]
      exact tallies.limit ▸ tallies.within
    have names : (Call.resize base oldLen newLen).Names live := named
    rw [tallies.granted_iff word names rfl, and_iff_right room]
  barred call crosses := (served.tallies word).barred word crosses
  relays call names room := (served.tallies word).relays word names room
  denied call event after names done still := by
    have kept := (served.call names done).tallies word
    have unmoved := still.track live
    rw [unmoved] at kept
    exact ⟨kept.inUse.trans (served.tallies word).inUse.symm, unmoved⟩

/-- Under a cap of three pages a block of two pages has grown to three, after a request for two more was denied. -/
theorem capped_of_threePages : ∃ quota : Quota Kernel, Served Kernel.new 12288 quota [(0x10000000000, 12288)] ∧
    12288 < Size.bound ∧ quota.inUse = 12288 ∧ Capped 12288 quota [(0x10000000000, 12288)] := by
  have granted : Quota.request 8192 (⟨⟨⟨0⟩⟩, 12288, 0⟩ : Quota Kernel) =
      .ok (some 0x10000000000) ⟨⟨⟨1⟩⟩, 12288, 8192⟩ := rfl
  have first : (Call.request 8192).perform (Quota.new Kernel.new 12288) =
      .ok (.request 8192 (some 0x10000000000)) ⟨⟨⟨1⟩⟩, 12288, 8192⟩ := Run.bind_ok granted _
  have denied : (Call.request 8192).perform (⟨⟨⟨1⟩⟩, 12288, 8192⟩ : Quota Kernel) =
      .ok (.request 8192 none) ⟨⟨⟨1⟩⟩, 12288, 8192⟩ := rfl
  have grown : (Call.resize 0x10000000000 8192 12288).perform (⟨⟨⟨1⟩⟩, 12288, 8192⟩ : Quota Kernel) =
      .ok (.resize 0x10000000000 8192 12288 (some 0x10000000000)) ⟨⟨⟨1⟩⟩, 12288, 12288⟩ := rfl
  have served : Served Kernel.new 12288 (⟨⟨⟨1⟩⟩, 12288, 12288⟩ : Quota Kernel) [(0x10000000000, 12288)] := by
    have one := Served.new.call (by trivial) first
    have two := one.call (by trivial) denied
    exact two.call (List.mem_singleton.mpr rfl) grown
  exact ⟨_, served, by decide, rfl, served.capped (by decide)⟩

end Quota
end SlabAllocator
