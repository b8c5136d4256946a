import Culvert.Soc.Strap

namespace Culvert

inductive SioctlDecode where
  | disable
  | at2e
  | at4e
  deriving DecidableEq, Repr

/-- `struct sioctl_pdata` -/
structure SioctlPdata where
  reg : Word
  disable : Word
  select : Word

def ast2400SioctlPdata : SioctlPdata := ⟨ast2400ScuHwStrap1, 1 <<< 20, 1 <<< 16⟩
def ast2600SioctlPdata : SioctlPdata := ⟨ast2600ScuHwStrap2, 1 <<< 3, 1 <<< 2⟩

def sioctlPdata : AstGeneration → SioctlPdata
  | .g4 | .g5 => ast2400SioctlPdata
  | .g6 => ast2600SioctlPdata

def sioctlDecodeConfigure {σ : Type} (bus : Bus σ) (gen : AstGeneration) (mode : SioctlDecode) : Prog (Faulty σ) Unit :=
  let pdata := sioctlPdata gen
  match mode with
  | .disable => strapSet bus gen pdata.reg pdata.disable pdata.disable
  | .at4e => do
    strapSet bus gen pdata.reg pdata.select pdata.select
    strapClear bus gen pdata.reg pdata.disable pdata.disable
  | .at2e => do
    strapClear bus gen pdata.reg pdata.select pdata.select
    strapClear bus gen pdata.reg pdata.disable pdata.disable

def sioctlDecodeStatus {σ : Type} (bus : Bus σ) (gen : AstGeneration) : Prog (Faulty σ) SioctlDecode := do
  let strap ← strapRead bus gen (sioctlPdata gen).reg
  return if strap &&& (sioctlPdata gen).disable ≠ 0 then .disable
    else if strap &&& (sioctlPdata gen).select ≠ 0 then .at4e else .at2e

/-- Where the SuperIO is decoded. -/
def sioctlDecode (gen : AstGeneration) (regs : Regs) : SioctlDecode :=
  if regs (scuBase + (sioctlPdata gen).reg) &&& (sioctlPdata gen).disable ≠ 0 then .disable
  else if regs (scuBase + (sioctlPdata gen).reg) &&& (sioctlPdata gen).select ≠ 0 then .at4e else .at2e

theorem sioctlDecodeStatus_observes (gen : AstGeneration) :
    Faulty.Observes (sioctlDecodeStatus regBus gen) (sioctlDecode gen) := by
  have read : Faulty.Observes (strapRead regBus gen (sioctlPdata gen).reg)
      fun regs => regs (scuBase + (sioctlPdata gen).reg) := by
    cases gen with
    | g4 => exact @strapReadOf_observes [ast2400ScuHwStrap1, ast2400ScuHwStrap2] ast2400ScuHwStrap1 (by decide)
    | g5 => exact @strapReadOf_observes [ast2500ScuHwStrap] ast2400ScuHwStrap1 (by decide)
    | g6 =>
      exact @strapReadOf_observes [ast2600ScuHwStrap1, ast2600ScuHwStrap2, ast2600ScuHwStrap3]
        ast2600ScuHwStrap2 (by decide)
  exact read.bind fun strap => .pure _

end Culvert
