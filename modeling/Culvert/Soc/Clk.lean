import Culvert.Soc.Strap

namespace Culvert

/-- `enum clksrc` -/
inductive Clksrc where
  | arm
  | ahb
  | uart3
  deriving DecidableEq, Repr

def scuClkStop : Word := 0x0c
def scuClkStopUart3 : Word := 1 <<< 25
def scuClkStrap : Word := 0x70
def scuClkStrapArm : Word := 1 <<< 0
def scuSiliconRevision : Word := 0x7c
def ast2600ScuHwStrap1Clear : Word := 0x504

section
variable {σ : Type} (bus : Bus σ)

/-- The gate of the ARM is a strap: bits written to the strap register are set, those written to
another register are cleared. -/
def clkDisable (gen : AstGeneration) (src : Clksrc) : Prog (Faulty σ) Unit :=
  match gen, src with
  | .g6, .arm => scuWritel bus ast2600ScuHwStrap1 scuClkStrapArm
  | .g6, _ => Prog.fail enotsup
  | _, .arm => scuWritel bus scuClkStrap scuClkStrapArm
  | _, .uart3 => do
    let reg ← scuReadl bus scuClkStop
    scuWritel bus scuClkStop (reg ||| scuClkStopUart3)
  | _, .ahb => Prog.fail enotsup

def clkEnable (gen : AstGeneration) (src : Clksrc) : Prog (Faulty σ) Unit :=
  match gen, src with
  | .g6, .arm => scuWritel bus ast2600ScuHwStrap1Clear scuClkStrapArm
  | .g6, _ => Prog.fail enotsup
  | _, .arm => scuWritel bus scuSiliconRevision scuClkStrapArm
  | _, .uart3 => do
    let reg ← scuReadl bus scuClkStop
    scuWritel bus scuClkStop (reg &&& ~~~scuClkStopUart3)
  | _, .ahb => Prog.fail enotsup

/-- The start of the VUART's registers. -/
def vuartBase : Word := 0x1e787000

def vuartGcra : Word := 0x20
def vuartGcraTxDiscard : Word := 1 <<< 5

/-- The bit disables the discarding of what the host sends. -/
def vuartSetHostTxDiscard (discard : Bool) : Prog (Faulty σ) Unit := do
  let val ← socReadl bus (vuartBase + vuartGcra)
  let val := if discard then val &&& ~~~vuartGcraTxDiscard else val ||| vuartGcraTxDiscard
  socWritel bus (vuartBase + vuartGcra) val

end

end Culvert
