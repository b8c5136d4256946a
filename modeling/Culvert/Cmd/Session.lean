import Culvert.Soc.Clk
import Culvert.Soc.Wdt

namespace Culvert

/-- The devices that the commands ask for by name, and the one behind the clocks. -/
inductive Device where
  | scu
  | clk
  | vuart
  | fmc
  | wdt (wdt : Wdt)
  deriving DecidableEq, Repr

/-- Whether the device tree has the device, with a node that one of the drivers matches. -/
def Device.bound : AstGeneration → Device → Bool
  | _, scu | _, clk | _, vuart => true
  | gen, fmc | gen, wdt _ => gen = .g5

/-- What is done to the clock of the ARM. -/
inductive ArmEvent where
  | gated
  | ungated
  deriving DecidableEq, Repr

/-- What a command has of the machine: the SoC behind the bus, the allocations that succeed, by number,
the devices with driver data, and what it did to the clock gate of the ARM, latest first. -/
structure Session (σ : Type) where
  soc : Faulty σ
  allocs : Nat → Bool
  nallocs : Nat
  live : List Device
  arm : List ArmEvent

/-- What the parts around the SoC give to a command: the results of `host_init`, `host_get_ahb` and
`soc_align_fdt`, with `true` for a pointer that is not null, and the bridge that is used. -/
structure CmdHost (σ : Type) where
  init : Except Errno Unit
  ahb : Bool
  align : Except Errno Unit
  isLocal : Bool
  release : Prog (Faulty σ) Unit
  reinit : Prog (Faulty σ) Unit

namespace Session
variable {σ α : Type}

def onSoc (m : Prog (Faulty σ) α) : Prog (Session σ) α :=
  Prog.zoom (fun s => s.soc) (fun s soc => { s with soc := soc }) m

def malloc : Prog (Session σ) Unit := fun s =>
  if s.allocs s.nallocs then .ok () { s with nallocs := s.nallocs + 1 }
  else .error (.rc enomem) { s with nallocs := s.nallocs + 1 }

def setDrvdata (dev : Device) : Prog (Session σ) Unit := modify fun s => { s with live := dev :: s.live }

def note (event : ArmEvent) : Prog (Session σ) Unit := modify fun s => { s with arm := event :: s.arm }

/-- `soc_driver_get_drvdata_by_name`: driver data that are there are not initialised again. -/
def getDrvdata (gen : AstGeneration) (dev : Device) (init : Prog (Session σ) Unit) : Prog (Session σ) Bool := do
  if dev.bound gen then
    if dev ∈ (← get).live then
      return true
    else
      let _ ← Prog.attempt init
      return dev ∈ (← get).live
  else
    return false

end Session

open Session

section
variable {σ : Type} (bus : Bus σ) (gen : AstGeneration)

def scuDriverStart : Prog (Session σ) Unit := do
  malloc
  let value ← onSoc (scuReadl bus 0x000)
  if value = 0 then onSoc (scuWritel bus 0x000 0x1688a8a8) else pure ()
  setDrvdata .scu

def clkDriverInit : Prog (Session σ) Unit := do
  malloc
  if ← getDrvdata gen .scu (scuDriverStart bus) then setDrvdata .clk else Prog.fail enodev

def clkGet : Prog (Session σ) Bool := getDrvdata gen .clk (clkDriverInit bus gen)

def vuartGetByName : Prog (Session σ) Bool := getDrvdata gen .vuart do
  malloc
  setDrvdata .vuart

def wdtGetByName (wdt : Wdt) : Prog (Session σ) Bool := getDrvdata gen (.wdt wdt) do
  malloc
  if ← clkGet bus gen then setDrvdata (.wdt wdt) else Prog.fail enodev

/-- `sfc_driver_init` with the accesses that it makes. -/
def sfcGetByName (initDevice : Prog (Faulty σ) Unit) : Prog (Session σ) Bool := getDrvdata gen .fmc do
  malloc
  if ← clkGet bus gen then
    onSoc initDevice
    setDrvdata .fmc
  else Prog.fail enodev

/-- `clk_disable` of the ARM. -/
def armDisable : Prog (Session σ) Unit := do
  onSoc (clkDisable bus gen .arm)
  note .gated

/-- `clk_enable` of the ARM, which is issued whether or not its access fails. -/
def armEnable : Prog (Session σ) Unit := do
  note .ungated
  onSoc (clkEnable bus gen .arm)

def wdtPreventReset : Prog (Session σ) Unit :=
  [Wdt.wdt1, Wdt.wdt2, Wdt.wdt3].forM fun wdt => do
    if ← wdtGetByName bus gen wdt then onSoc (wdtStop bus wdt) else Prog.fail enodev

/-- `wdt_perform_reset` until the SoC is reset and the bridge is back. -/
def wdtExpire (host : CmdHost σ) (wdt : Wdt) : Prog (Faulty σ) Unit := do
  wdtArm bus wdt
  host.release
  host.reinit

def wdtPerformReset (host : CmdHost σ) (wdt : Wdt) : Prog (Session σ) Unit := do
  onSoc (wdtExpire bus host wdt)
  armEnable bus gen
  onSoc (wdtWritel bus wdt wdtReload 0)

/-- Everything up to the probed SoC, with its generation. -/
def socOpen (host : CmdHost σ) : Prog (Session σ) AstGeneration := do
  Prog.ofExcept host.init
  if host.ahb then
    let rev ← onSoc (socFromRev bus host.align)
    match revGeneration rev with
    | some gen => pure gen
    | none => Prog.fail enotsup
  else Prog.fail enodev

end

end Culvert
