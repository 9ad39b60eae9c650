import SlabAllocator.Host.Basic

/-! A host that grants what another one grants, but never resizes a block. -/

namespace SlabAllocator

structure Fixed (σ : Type) where
  inner : σ

namespace Fixed

def onInner (action : Run σ α) : Run (Fixed σ) α :=
  Run.focus (·.inner) (fun inner _ => ⟨inner⟩) action

instance [Host σ] : Host (Fixed σ) where
  pageSize host := Host.pageSize host.inner
  request len := onInner (Host.request len)
  giveBack base len := onInner (Host.giveBack base len)
  protect base len mode := onInner (Host.protect base len mode)

end Fixed
end SlabAllocator
