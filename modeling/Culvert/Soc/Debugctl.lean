import Culvert.Soc.Bridgectl
import Culvert.Soc.Bridges
import Culvert.Soc.Strap

namespace Culvert

def scuStrap : Word := 0x070

/-- The two sets of operations differ in the report. -/
inductive DebugctlOps where
  | ast2500
  | ast2600
  deriving DecidableEq, Repr

/-- `struct debugctl` -/
structure Debugctl where
  region : Word
  bridges : Bridges
  id : Int
  ops : DebugctlOps
  deriving DecidableEq, Repr

section
variable {σ : Type} (bus : Bus σ) (ctx : Debugctl)

def debugctlStatus : Prog (Faulty σ) BridgeMode := do
  let rc ← bridgesStatus bus ctx.bridges ctx.id
  return if rc then .permissive else .disabled

def ast2500DebugctlDetails (mode : BridgeMode) : Prog (Faulty σ) Unit := do
  if mode ≠ .disabled then
    let _ ← socReadl bus (ctx.region + scuStrap)

def ast2600DebugctlDetails : Prog (Faulty σ) Unit :=
  if ctx.region = 0x1e783000 ∨ ctx.region = 0x1e784000 then pure () else Prog.fail einval

/-- What the report does after logging the status. -/
def debugctlDetails (mode : BridgeMode) : Prog (Faulty σ) Unit :=
  match ctx.ops with
  | .ast2500 => ast2500DebugctlDetails bus ctx mode
  | .ast2600 => ast2600DebugctlDetails ctx

end

end Culvert
