import Mathlib

namespace Culvert

/-- `enum bridge_mode` -/
inductive BridgeMode where
  | permissive
  | restricted
  | disabled
  deriving DecidableEq, Repr

namespace BridgeMode

def rank : BridgeMode → Nat
  | permissive => 0
  | restricted => 1
  | disabled => 2

theorem rank_injective : Function.Injective rank := by
  intro a b same
  cases a <;> cases b <;> first | rfl | cases same

/-- A bridge is more closed in a later mode. -/
instance : LinearOrder BridgeMode := LinearOrder.lift' rank rank_injective

theorem le_disabled (mode : BridgeMode) : mode ≤ disabled := by
  cases mode <;> decide

end BridgeMode

end Culvert
