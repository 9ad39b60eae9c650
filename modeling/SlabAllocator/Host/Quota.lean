import SlabAllocator.Host.Basic
import SlabAllocator.Size

/-! A host with a cap on the bytes that may be mapped at once. A request past the cap is
denied just as by a host that ran out of memory. -/

namespace SlabAllocator

structure Quota (σ : Type) where
  inner : σ
  limit : Nat
  inUse : Nat

namespace Quota

def new (inner : σ) (limit : Nat) : Quota σ :=
  ⟨inner, limit, 0⟩

/-- Whether `extra` more bytes stay within the cap. -/
def fits (quota : Quota σ) (extra : Nat) : Bool :=
  match Size.add? quota.inUse extra with
  | some total => total ≤ quota.limit
  | none => false

def onInner (action : Run σ α) : Run (Quota σ) α :=
  Run.focus (·.inner) (fun inner quota => { quota with inner }) action

def setInUse (inUse : Nat) : Run (Quota σ) Unit :=
  modify fun quota => { quota with inUse }

def request [Host σ] (len : Nat) : Run (Quota σ) (Option Addr) := do
  if !(← get).fits len then return none
  let some base ← onInner (Host.request len) | return none
  setInUse (← Size.add (← get).inUse len)
  return some base

/-- Only growth counts against the cap. -/
def resize [Host σ] (base : Addr) (oldLen newLen : Nat) : Run (Quota σ) (Option Addr) := do
  if oldLen < newLen && !(← get).fits (newLen - oldLen) then return none
  let some moved ← onInner (Host.resize base oldLen newLen) | return none
  setInUse (← Size.add (← Size.sub (← get).inUse oldLen) newLen)
  return some moved

def giveBack [Host σ] (base : Addr) (len : Nat) : Run (Quota σ) Unit := do
  onInner (Host.giveBack base len)
  setInUse (← Size.sub (← get).inUse len)

instance [Host σ] : Host (Quota σ) where
  pageSize quota := Host.pageSize quota.inner
  request := request
  resize := resize
  giveBack := giveBack
  protect base len mode := onInner (Host.protect base len mode)

end Quota
end SlabAllocator
