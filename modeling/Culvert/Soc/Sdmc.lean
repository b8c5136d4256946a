import Culvert.Rev

namespace Culvert

/-- `struct sdmc` -/
structure Sdmc where
  iomem : Word
  gmpXdmaMask : Word
  deriving DecidableEq, Repr

def mcrConfig : Word := 0x04
def mcrGmp : Word := 0x08

/-- `struct soc_region` -/
structure SocRegion where
  start : Word
  length : Word
  deriving DecidableEq, Repr

/-- The start of the devicetree's memory node. -/
def dramStart : AstGeneration → Word
  | .g4 => 0x40000000
  | .g5 => 0x80000000
  | .g6 => 0x80000000

def vramSizes : List Word := [8 <<< 20, 16 <<< 20, 32 <<< 20, 64 <<< 20]

def dramSizes : AstGeneration → List Word
  | .g4 => [64 <<< 20, 128 <<< 20, 256 <<< 20, 512 <<< 20]
  | .g5 => [128 <<< 20, 256 <<< 20, 512 <<< 20, 1024 <<< 20]
  | .g6 => [256 <<< 20, 512 <<< 20, 1024 <<< 20, 2048 <<< 20]

def sdmcDramRegion (gen : AstGeneration) (mcrConf : Word) : SocRegion :=
  ⟨dramStart gen, (dramSizes gen).getD (mcrConf &&& 3).toNat 0⟩

def sdmcVramRegion (gen : AstGeneration) (mcrConf : Word) : SocRegion :=
  let dram := sdmcDramRegion gen mcrConf
  let length := vramSizes.getD (mcrConf >>> 2 &&& 3).toNat 0
  ⟨dram.start + dram.length - length, length⟩

/-- The controller of each generation, as its driver sets it up. -/
def sdmc : AstGeneration → Sdmc
  | .g4 => ⟨0x1e6e0000, 1 <<< 16⟩
  | .g5 => ⟨0x1e6e0000, 1 <<< 17⟩
  | .g6 => ⟨0x1e6e0000, 1 <<< 18 ||| 1 <<< 25⟩

section
variable {σ : Type} (bus : Bus σ) (ctx : Sdmc)

def sdmcReadl (off : Word) : Prog (Faulty σ) Word := socReadl bus (ctx.iomem + off)

def sdmcWritel (off val : Word) : Prog (Faulty σ) Unit := socWritel bus (ctx.iomem + off) val

def sdmcGetDram (gen : AstGeneration) : Prog (Faulty σ) SocRegion := do
  let mcrConf ← sdmcReadl bus (sdmc gen) mcrConfig
  return sdmcDramRegion gen mcrConf

def sdmcGetVram (gen : AstGeneration) : Prog (Faulty σ) SocRegion := do
  let mcrConf ← sdmcReadl bus (sdmc gen) mcrConfig
  return sdmcVramRegion gen mcrConf

def sdmcConstrainsXdma : Prog (Faulty σ) Bool := do
  let gmp ← sdmcReadl bus ctx mcrGmp
  return gmp &&& ctx.gmpXdmaMask ≠ 0

def sdmcConfigureXdma (constrain : Bool) : Prog (Faulty σ) Unit := do
  let gmp ← sdmcReadl bus ctx mcrGmp
  sdmcWritel bus ctx mcrGmp (gmp &&& ~~~ctx.gmpXdmaMask ||| if constrain then ctx.gmpXdmaMask else 0)

end

/-- The constraint bits of the GMP register. -/
def Sdmc.gmpXdma (ctx : Sdmc) (regs : Regs) : Word := regs (ctx.iomem + mcrGmp) &&& ctx.gmpXdmaMask

theorem sdmcConstrainsXdma_observes (ctx : Sdmc) :
    Faulty.Observes (sdmcConstrainsXdma regBus ctx) fun regs => decide (ctx.gmpXdma regs ≠ 0) :=
  (socReadl_observes (ctx.iomem + mcrGmp)).bind fun gmp => .pure (decide (gmp &&& ctx.gmpXdmaMask ≠ 0))

/-- The registers after the constraint is set or cleared. -/
def Sdmc.constrained (ctx : Sdmc) (constrain : Bool) (regs : Regs) : Regs :=
  Function.update regs (ctx.iomem + mcrGmp)
    (regs (ctx.iomem + mcrGmp) &&& ~~~ctx.gmpXdmaMask ||| if constrain then ctx.gmpXdmaMask else 0)

theorem sdmcConfigureXdma_yields (ctx : Sdmc) (constrain : Bool) (regs : Regs) :
    Faulty.Yields regs (sdmcConfigureXdma regBus ctx constrain) () (ctx.constrained constrain regs) :=
  (socReadl_yields (ctx.iomem + mcrGmp) regs).bind (socWritel_yields _ _ regs)

theorem Sdmc.gmpXdma_constrained (ctx : Sdmc) (constrain : Bool) (regs : Regs) :
    ctx.gmpXdma (ctx.constrained constrain regs) = if constrain then ctx.gmpXdmaMask else 0 := by
  rw [gmpXdma, constrained, Function.update_self]
  cases constrain with
  | false =>
    ext i
    simp
  | true =>
    ext i
    simp
    grind

end Culvert
