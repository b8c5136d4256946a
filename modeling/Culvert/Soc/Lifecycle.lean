import Culvert.Lib.Ring
import Culvert.Soc.Devicetree
import Culvert.Soc.Sfc
import Culvert.Soc.Strap

namespace Culvert

/-- The operations of a `struct bridgectl`, which tell the controllers of one context apart. -/
inductive BridgectlOps where
  | p2actl
  | xdmactl
  | ilpcctl
  | debugctl
  deriving DecidableEq, Repr

/-- A `struct bridgectl`, by the device whose context it is embedded in. -/
structure BridgeEntry where
  dev : SocDev
  ops : BridgectlOps
  deriving DecidableEq, Repr

/-- `struct scu`. -/
structure Scu where
  refcnt : Int
  wasLocked : Bool
  deriving DecidableEq, Repr

/-- Who has a reference on the SCU. -/
inductive Holder where
  | device (dev : SocDev)
  | command
  deriving DecidableEq, Repr

/-- What is recorded of a run: who takes and drops a reference to the SCU, and what is written. -/
inductive SocEvent where
  | took (holder : Holder)
  | dropped (holder : Holder)
  | wrote (phys val : Word)
  deriving DecidableEq, Repr

/-- `struct soc` with what its drivers have: the values that register reads will give, the devices
that are bound and those with driver data, the context of the SCU while there is one, the links of
`soc->bridges`, and the `ctl_read_val` of the flash controllers. `log` has the latest event first. -/
structure Soc where
  values : Nat → Word
  reads : Nat
  log : List SocEvent
  devices : List SocDev
  live : List SocDev
  scu : Option Scu
  bridges : Links BridgeEntry
  ctlReadVal : SocDev → Word

namespace Soc

/-- Any hardware: each read gives what was foreseen for it. -/
def bus : Bus Soc where
  readl _ s := (s.values s.reads, { s with reads := s.reads + 1 })
  writel phys val s := { s with log := .wrote phys val :: s.log }

def update (f : Soc → Soc) : Prog (Faulty Soc) Unit := modify fun s => { s with dev := f s.dev }

/-- The oracle is asked once for each allocation, as for each access. -/
def malloc : Prog (Faulty Soc) Unit := do
  match ← Prog.attempt (Faulty.access fun s => ((), s)) with
  | .ok () => pure ()
  | .error _ => Prog.fail enomem

def setDrvdata (dev : SocDev) : Prog (Faulty Soc) Unit := update fun s => { s with live := dev :: s.live }

/-- `free` of the driver data. -/
def freeDrvdata (dev : SocDev) : Prog (Faulty Soc) Unit := update fun s => { s with live := s.live.erase dev }

/-- `soc_bridge_controller_register`, which does not fail. -/
def register (dev : SocDev) (ops : BridgectlOps) : Prog (Faulty Soc) Unit :=
  update fun s => { s with bridges := s.bridges.add ⟨dev, ops⟩ }

/-- `soc_bridge_controller_unregister`. It writes to the neighbours whether or not they were freed. -/
def unregister (dev : SocDev) (ops : BridgectlOps) : Prog (Faulty Soc) Unit :=
  update fun s => { s with bridges := s.bridges.del ⟨dev, ops⟩ }

/-- `soc_device_init_driver`, which tells whether there are driver data. -/
def deviceInitDriver (dev : SocDev) (init : Prog (Faulty Soc) Unit) : Prog (Faulty Soc) Bool := do
  if dev ∈ (← get).dev.live then
    return true
  else
    match ← Prog.attempt init with
    | .ok () => return decide (dev ∈ (← get).dev.live)
    | .error _ => return false

end Soc

/-- What `soc_driver_get_drvdata`, `soc_driver_get_drvdata_by_name` (which has found the node that the
name leads to) and `soc_driver_get_drvdata_by_node` look for. -/
inductive Lookup where
  | driver (wanted : Driver)
  | name (wanted : Driver) (path : FdtPath)
  | node (path : FdtPath)

/-- The device that is found. A name of a device with another driver is not good for any. -/
def Lookup.target (s : Soc) : Lookup → Option SocDev
  | .driver wanted => s.devices.find? (·.driver = wanted)
  | .name wanted path => (s.devices.find? (·.node = path)).filter (·.driver = wanted)
  | .node path => s.devices.find? (·.node = path)

namespace Soc

def getDrvdata (lookup : Lookup) (init : SocDev → Prog (Faulty Soc) Unit) : Prog (Faulty Soc) Bool := do
  match lookup.target (← get).dev with
  | none => return false
  | some dev => deviceInitDriver dev (init dev)

/-! The SCU and those that hold a reference on it. -/

def scuLock : Prog (Faulty Soc) Unit := scuWritel bus astScuProtKey (~~~astScuPassword)

def scuDriverInit (dev : SocDev) : Prog (Faulty Soc) Unit := do
  malloc
  let value ← scuReadl bus astScuProtKey
  if value = 0 then scuWritel bus astScuProtKey astScuPassword else pure ()
  update fun s => { s with live := dev :: s.live, scu := some ⟨1, value = 0⟩, log := .took (.device dev) :: s.log }

def scuGet (holder : Holder) : Prog (Faulty Soc) Bool := do
  if ← getDrvdata (.driver .scu) scuDriverInit then
    update fun s => { s with
      scu := s.scu.map fun ctx => { ctx with refcnt := ctx.refcnt + 1 }
      log := .took holder :: s.log }
    return true
  else
    return false

/-- Without a context it touches what is not there. -/
def scuPut (holder : Holder) : Prog (Faulty Soc) Unit := do
  match (← get).dev.scu with
  | none => throw .fault
  | some ctx =>
    update fun s => { s with scu := some { ctx with refcnt := ctx.refcnt - 1 }, log := .dropped holder :: s.log }
    if ctx.refcnt - 1 = 0 then do
      if ctx.wasLocked then let _ ← Prog.attempt scuLock
      update fun s => { s with scu := none }
    else pure ()

/-- `clk_driver_init` and `strap_driver_init`, which find their operations in any of the device trees. -/
def scuUserDriverInit (dev : SocDev) : Prog (Faulty Soc) Unit := do
  malloc
  if ← scuGet (.device dev) then setDrvdata dev else Prog.fail enodev

def clkDriverInit (dev : SocDev) : Prog (Faulty Soc) Unit := scuUserDriverInit dev
def strapDriverInit (dev : SocDev) : Prog (Faulty Soc) Unit := scuUserDriverInit dev

def clkGet : Prog (Faulty Soc) Bool := getDrvdata (.driver .clk) clkDriverInit
def strapGet : Prog (Faulty Soc) Bool := getDrvdata (.driver .strap) strapDriverInit

def jtagEc : Word := 0x08
def jtagSwMode : Word := 0x10
def jtagEcEngEn : Word := 1 <<< 31
def jtagEcEngOutEn : Word := 1 <<< 30
def jtagEcForceTms : Word := 1 <<< 29
def jtagSwModeEn : Word := 1 <<< 19
def ast2400ScuResetCtrl : Word := 0x04
def ast2600ScuResetCtrl : Word := 0x40
def scuResetCtrlJtagMaster : Word := 1 <<< 22

def jtagStart (gen : AstGeneration) (dev : SocDev) : Word :=
  if gen = .g6 ∧ dev.node = [2, 2, 6] then 0x1e6e4100 else 0x1e6e4000

def ast2400JtagRelease : Prog (Faulty Soc) Unit := do
  let reg ← scuReadl bus ast2400ScuResetCtrl
  scuWritel bus ast2400ScuResetCtrl (reg &&& ~~~scuResetCtrlJtagMaster)

def ast2600JtagRelease : Prog (Faulty Soc) Unit :=
  scuWritel bus (ast2600ScuResetCtrl + 4) scuResetCtrlJtagMaster

def jtagRelease : AstGeneration → Prog (Faulty Soc) Unit
  | .g4 | .g5 => ast2400JtagRelease
  | .g6 => ast2600JtagRelease

/-- What fails after `scu_get` frees the context and nothing else. -/
def jtagDriverInit (gen : AstGeneration) (dev : SocDev) : Prog (Faulty Soc) Unit := do
  malloc
  if ← scuGet (.device dev) then do
    jtagRelease gen
    socWritel bus (jtagStart gen dev + jtagEc) (jtagEcEngEn ||| jtagEcEngOutEn)
    socWritel bus (jtagStart gen dev + jtagEc) (jtagEcEngEn ||| jtagEcEngOutEn ||| jtagEcForceTms)
    socWritel bus (jtagStart gen dev + jtagSwMode) jtagSwModeEn
    setDrvdata dev
  else Prog.fail enodev

/-! The drivers that use no other. -/

/-- `bridges_driver_init`, `otp_driver_init`, `sdmc_driver_init` and `vuart_driver_init`. -/
def plainDriverInit (dev : SocDev) : Prog (Faulty Soc) Unit := do
  malloc
  setDrvdata dev

def lpcStart : Word := 0x1e789000
def lpcHicr9 : Word := 0x98
def lpcHicra : Word := 0x9c

def uartMuxDriverInit (dev : SocDev) : Prog (Faulty Soc) Unit := do
  malloc
  let _ ← socReadl bus (lpcStart + lpcHicr9)
  let _ ← socReadl bus (lpcStart + lpcHicra)
  setDrvdata dev

def ahbcStart : Word := 0x1e600000
def ahbcBcrCsr : Word := 0x40
def ahbcBcrCsrFlush : Word := 1 <<< 2
def ahbcBcrCsrPollEn : Word := 1 <<< 0

def traceStop : Prog (Faulty Soc) Unit := do
  let csr ← socReadl bus (ahbcStart + ahbcBcrCsr)
  if csr &&& ahbcBcrCsrPollEn = 0 then pure ()
  else do
    let csr := csr ||| ahbcBcrCsrFlush
    socWritel bus (ahbcStart + ahbcBcrCsr) csr
    socWritel bus (ahbcStart + ahbcBcrCsr) (csr &&& ~~~(ahbcBcrCsrPollEn ||| ahbcBcrCsrFlush))

/-- The driver data stay when the trace cannot be stopped. -/
def traceDriverInit (dev : SocDev) : Prog (Faulty Soc) Unit := do
  malloc
  setDrvdata dev
  let _ ← Prog.attempt traceStop

def sdmcGet : Prog (Faulty Soc) Bool := getDrvdata (.driver .sdmc) plainDriverInit

/-- The bridge controller that `bridge-gates` leads to, which is the only one. -/
def bridgesGet : Prog (Faulty Soc) Bool := getDrvdata (.driver .bridges) plainDriverInit

/-! The drivers that use others. -/

def sioctlDriverInit (dev : SocDev) : Prog (Faulty Soc) Unit := do
  malloc
  if ← strapGet then setDrvdata dev else Prog.fail enodev

def sioctlGet : Prog (Faulty Soc) Bool := getDrvdata (.driver .sioctl) sioctlDriverInit

def wdtDriverInit (dev : SocDev) : Prog (Faulty Soc) Unit := do
  malloc
  if ← clkGet then setDrvdata dev else Prog.fail enodev

def sfcType (dev : SocDev) : SfcType := if dev.node = [2, 2, 0] then .fmc else .smc

/-- The `iomem` of the flash controllers of the AST2500, which alone have a driver. -/
def sfcStart (dev : SocDev) : Word :=
  if dev.node = [2, 2, 0] then 0x1e620000 else if dev.node = [2, 2, 1] then 0x1e630000 else 0x1e631000

def smcConf : Word := 0x00

/-- An error stands for the result `false`. -/
def sfcInitDevice (dev : SocDev) : Prog (Faulty Soc) Unit := do
  let ctl ← socReadl bus (sfcStart dev + (sfcType dev).ctlReg)
  if ctl = 0xffffffff then Prog.fail eio
  else do
    let ceType ← socReadl bus (sfcStart dev + (sfcType dev).typeReg)
    socWritel bus (sfcStart dev + (sfcType dev).typeReg) (ceType ||| 7 <<< 16)
    socWritel bus (sfcStart dev + (sfcType dev).ctlReg) 0x400
    socWritel bus (sfcStart dev + (sfcType dev).freadTimingReg) 0

def sfcDriverInit (dev : SocDev) : Prog (Faulty Soc) Unit := do
  malloc
  if ← clkGet then
    match ← Prog.attempt (sfcInitDevice dev) with
    | .ok () => update fun s =>
      { s with live := dev :: s.live, ctlReadVal := Function.update s.ctlReadVal dev 0x400 }
    | .error _ => Prog.fail eio
  else Prog.fail enodev

def debugctlDriverInit (dev : SocDev) : Prog (Faulty Soc) Unit := do
  malloc
  if ← bridgesGet then do
    setDrvdata dev
    register dev .debugctl
  else Prog.fail einval

/-- The bridge controller that the drivers of the AST2600 need. -/
def bridgesGetOn (gen : AstGeneration) : Prog (Faulty Soc) Bool := if gen = .g6 then bridgesGet else pure true

/-- Without its SuperIO controller it still returns 0. -/
def ilpcctlDriverInit (gen : AstGeneration) (dev : SocDev) : Prog (Faulty Soc) Unit := do
  malloc
  if ← sioctlGet then
    if ← bridgesGetOn gen then do
      setDrvdata dev
      register dev .ilpcctl
    else Prog.fail einval
  else pure ()

/-- Without its SDMC or its bridge controller it still returns 0. -/
def pciectlDriverInit (gen : AstGeneration) (dev : SocDev) : Prog (Faulty Soc) Unit := do
  malloc
  if ← sdmcGet then
    if ← bridgesGetOn gen then do
      setDrvdata dev
      register dev .p2actl
      register dev .xdmactl
    else pure ()
  else pure ()

def driverInit (gen : AstGeneration) (dev : SocDev) : Prog (Faulty Soc) Unit :=
  match dev.driver with
  | .scu => scuDriverInit dev
  | .clk => clkDriverInit dev
  | .strap => strapDriverInit dev
  | .jtag => jtagDriverInit gen dev
  | .bridges | .otp | .sdmc | .vuart => plainDriverInit dev
  | .uartMux => uartMuxDriverInit dev
  | .trace => traceDriverInit dev
  | .sioctl => sioctlDriverInit dev
  | .wdt => wdtDriverInit dev
  | .sfc => sfcDriverInit dev
  | .debugctl => debugctlDriverInit dev
  | .ilpcctl => ilpcctlDriverInit gen dev
  | .pciectl => pciectlDriverInit gen dev

def isBridgeController (gen : AstGeneration) (dev : SocDev) : Bool :=
  ((astDevicetree gen).find dev.node).any fun node => fdtNodeIsCompatible node.compatible "bridge-controller"

def initBridgeControllersEach (gen : AstGeneration) : List SocDev → Prog (Faulty Soc) Unit
  | [] => pure ()
  | dev :: rest => do
    if isBridgeController gen dev then let _ ← deviceInitDriver dev (driverInit gen dev)
    initBridgeControllersEach gen rest

/-- `soc_init_bridge_controllers`, with which the list and the probe of the bridges start. -/
def initBridgeControllers (gen : AstGeneration) : Prog (Faulty Soc) Unit := do
  initBridgeControllersEach gen (← get).dev.devices

/-! The way back. -/

/-- A failing access ends it early. -/
def sfcRestore (dev : SocDev) : Prog (Faulty Soc) Unit := do
  socWritel bus (sfcStart dev + (sfcType dev).ctlReg) ((← get).dev.ctlReadVal dev)
  if sfcType dev = .smc then do
    let reg ← socReadl bus (sfcStart dev + smcConf)
    if reg ≠ 0xffffffff then socWritel bus (sfcStart dev + smcConf) (reg &&& ~~~1) else pure ()
  else pure ()

/-- The `destroy` of the device's driver. That of the SCU leaves the context to the last reference, and
that of the JTAG master drops none. -/
def driverDestroy (dev : SocDev) : Prog (Faulty Soc) Unit := do
  match dev.driver with
  | .scu | .clk | .strap => scuPut (.device dev)
  | .sfc => let _ ← Prog.attempt (sfcRestore dev)
  | .pciectl => unregister dev .p2actl
  | .ilpcctl => unregister dev .ilpcctl
  | .debugctl => unregister dev .debugctl
  | _ => pure ()
  freeDrvdata dev

/-- One turn of `soc_unbind_drivers`. -/
def unbindDriver (dev : SocDev) : Prog (Faulty Soc) Unit := do
  if dev ∈ (← get).dev.live then driverDestroy dev else pure ()
  update fun s => { s with devices := s.devices.erase dev }

def unbindEach : List SocDev → Prog (Faulty Soc) Unit
  | [] => pure ()
  | dev :: rest => do
    unbindDriver dev
    unbindEach rest

def unbindDrivers : Prog (Faulty Soc) Unit := do
  unbindEach (← get).dev.devices

/-- After `soc_probe`. What the list head and the nodes were before is of no interest. -/
def probed (gen : AstGeneration) (fails : Nat → Option Errno) (values : Nat → Word) (links : Links BridgeEntry) : Soc where
  values := values
  reads := 0
  log := []
  devices := socProbeDevices gen fails
  live := []
  scu := none
  bridges := links.init
  ctlReadVal _ := 0

end Soc

/-- What the commands do with the drivers, with the outcome of the allocations and accesses. -/
inductive Use where
  | lookup (target : Lookup) (fails : Nat → Option Errno)
  | probe (fails : Nat → Option Errno)
  | scuGet (fails : Nat → Option Errno)
  | scuPut

/-- The SoC, and how many references on the SCU the commands have. -/
structure Usage where
  soc : Soc
  held : Nat

/-- Only a reference that is held can be put. -/
def Use.run (gen : AstGeneration) (usage : Usage) : Use → Usage
  | .lookup target fails =>
    { usage with soc := ((Soc.getDrvdata target (Soc.driverInit gen)).run ⟨usage.soc, fails, 0⟩).state.dev }
  | .probe fails => { usage with soc := ((Soc.initBridgeControllers gen).run ⟨usage.soc, fails, 0⟩).state.dev }
  | .scuGet fails =>
    match (Soc.scuGet .command).run ⟨usage.soc, fails, 0⟩ with
    | .ok true s => ⟨s.dev, usage.held + 1⟩
    | .ok false s | .error _ s => { usage with soc := s.dev }
  | .scuPut =>
    if usage.held = 0 then usage
    else ⟨((Soc.scuPut .command).run ⟨usage.soc, fun _ => none, 0⟩).state.dev, usage.held - 1⟩

/-- What a number of uses does. -/
def runUses (gen : AstGeneration) (usage : Usage) (uses : List Use) : Usage := uses.foldl (Use.run gen) usage

end Culvert
