import Culvert.Soc.Debugctl
import Culvert.Soc.Ilpcctl
import Culvert.Soc.Pciectl

namespace Culvert

/-- The devices behind the bridge controllers, and those controllers, which have a node each. -/
inductive SocDevice where
  | scu
  | strap
  | sioctl
  | sdmc
  | bridges
  | pcie
  | ilpc
  | debug
  | uart1
  | uart5
  deriving DecidableEq, Repr

/-- A controller on `soc->bridges`, with the context that it is embedded in. -/
inductive Bridgectl where
  | p2a (ctx : Pciectl)
  | xdma (ctx : Pciectl)
  | ilpc (ctx : Ilpcctl)
  | debug (ctx : Debugctl)
  deriving DecidableEq, Repr

/-- `struct soc` behind a bus. `allocs` tells which allocations succeed, by number and by the
device whose context is allocated; `live` lists the devices with driver data; `reported` lists
the status lines written, latest first. -/
structure SocEnv (σ : Type) where
  soc : Faulty σ
  allocs : Nat → SocDevice → Bool
  nallocs : Nat
  live : List SocDevice
  bridges : List Bridgectl
  reported : List (Bridgectl × BridgeMode)

def ilpcctl : AstGeneration → Ilpcctl
  | .g4 => ⟨0x1e789000, .g4, none⟩
  | .g5 => ⟨0x1e789000, .g5, none⟩
  | .g6 => ⟨0x1e789000, .g6, some (⟨scuBase, ast2600BridgeGates⟩, ast2600IlpcGate)⟩

def ast2500Debugctl : Debugctl := ⟨scuBase, ⟨scuBase, ast2500BridgeGates⟩, ast2500DebugUartGate, .ast2500⟩
def ast2600Uart1 : Debugctl := ⟨0x1e783000, ⟨scuBase, ast2600BridgeGates⟩, ast2600DebugUart1Gate, .ast2600⟩
def ast2600Uart5 : Debugctl := ⟨0x1e784000, ⟨scuBase, ast2600BridgeGates⟩, ast2600DebugUart5Gate, .ast2600⟩

/-- The devices of `soc->devices` whose nodes are compatible with `bridge-controller`, in the order
of that list, which is the reverse of the one in the device tree. -/
def bridgeDevices : AstGeneration → List SocDevice
  | .g4 => [.ilpc, .pcie]
  | .g5 => [.ilpc, .pcie, .debug]
  | .g6 => [.ilpc, .uart5, .uart1, .pcie]

/-- The controllers that the driver of a device registers, in the order in which they are put on
the list. -/
def bridgesOf (gen : AstGeneration) : SocDevice → List Bridgectl
  | .pcie => [.p2a (pciectl gen), .xdma (pciectl gen)]
  | .ilpc => [.ilpc (ilpcctl gen)]
  | .debug => [.debug ast2500Debugctl]
  | .uart1 => [.debug ast2600Uart1]
  | .uart5 => [.debug ast2600Uart5]
  | _ => []

namespace SocEnv
variable {σ α : Type}

def onSoc (m : Prog (Faulty σ) α) : Prog (SocEnv σ) α :=
  Prog.zoom (fun env => env.soc) (fun env soc => { env with soc := soc }) m

def malloc (dev : SocDevice) : Prog (SocEnv σ) Unit := fun env =>
  if env.allocs env.nallocs dev then .ok () { env with nallocs := env.nallocs + 1 }
  else .error (.rc enomem) { env with nallocs := env.nallocs + 1 }

def setDrvdata (dev : SocDevice) : Prog (SocEnv σ) Unit := modify fun env => { env with live := dev :: env.live }

def register (bridge : Bridgectl) : Prog (SocEnv σ) Unit :=
  modify fun env => { env with bridges := bridge :: env.bridges }

/-- `soc_device_init_driver`: the device has its driver data afterwards, or its `init` failed, or
returned 0 without setting them. -/
def initDriver (dev : SocDevice) (init : Prog (SocEnv σ) Unit) : Prog (SocEnv σ) Bool := do
  if dev ∈ (← get).live then
    return true
  else
    let _ ← Prog.attempt init
    return dev ∈ (← get).live

end SocEnv

open SocEnv

section
variable {σ : Type} (bus : Bus σ)

def scuDriverInit : Prog (SocEnv σ) Unit := do
  malloc .scu
  let value ← onSoc (scuReadl bus astScuProtKey)
  if value = 0 then
    onSoc (socWritel bus (scuBase + astScuProtKey) astScuPassword)
  setDrvdata .scu

def scuGet : Prog (SocEnv σ) Bool := initDriver .scu (scuDriverInit bus)

def strapDriverInit : Prog (SocEnv σ) Unit := do
  malloc .strap
  if ← scuGet bus then setDrvdata .strap else Prog.fail enodev

def strapGet : Prog (SocEnv σ) Bool := initDriver .strap (strapDriverInit bus)

def sioctlDriverInit : Prog (SocEnv σ) Unit := do
  malloc .sioctl
  if ← strapGet bus then setDrvdata .sioctl else Prog.fail enodev

def sioctlGet : Prog (SocEnv σ) Bool := initDriver .sioctl (sioctlDriverInit bus)

def sdmcDriverInit : Prog (SocEnv σ) Unit := do
  malloc .sdmc
  setDrvdata .sdmc

def sdmcGet : Prog (SocEnv σ) Bool := initDriver .sdmc sdmcDriverInit

def bridgesDriverInit : Prog (SocEnv σ) Unit := do
  malloc .bridges
  setDrvdata .bridges

def bridgesGet : Prog (SocEnv σ) Bool := initDriver .bridges bridgesDriverInit

/-- The bridge controller that the drivers of the AST2600 need. -/
def bridgesGetOn (gen : AstGeneration) : Prog (SocEnv σ) Bool := if gen = .g6 then bridgesGet else pure true

/-- The last step of the drivers: the driver data are set and the controllers are registered. -/
def registerAll (gen : AstGeneration) (dev : SocDevice) : Prog (SocEnv σ) Unit := do
  setDrvdata dev
  (bridgesOf gen dev).forM register

/-- Without its SDMC or its bridge controller it still returns 0. -/
def pciectlDriverInit (gen : AstGeneration) : Prog (SocEnv σ) Unit := do
  malloc .pcie
  if ← sdmcGet then
    if ← bridgesGetOn gen then registerAll gen .pcie else pure ()
  else pure ()

/-- Without its SuperIO controller it still returns 0. -/
def ilpcctlDriverInit (gen : AstGeneration) : Prog (SocEnv σ) Unit := do
  malloc .ilpc
  if ← sioctlGet bus then
    if ← bridgesGetOn gen then registerAll gen .ilpc else Prog.fail einval
  else pure ()

def debugctlDriverInit (gen : AstGeneration) (dev : SocDevice) : Prog (SocEnv σ) Unit := do
  malloc dev
  if ← bridgesGet then registerAll gen dev else Prog.fail einval

def bridgeDriverInit (gen : AstGeneration) : SocDevice → Prog (SocEnv σ) Unit
  | .pcie => pciectlDriverInit gen
  | .ilpc => ilpcctlDriverInit bus gen
  | dev => debugctlDriverInit gen dev

def socInitBridgeControllersEach (gen : AstGeneration) : List SocDevice → Prog (SocEnv σ) Unit
  | [] => pure ()
  | dev :: rest => do
    let _ ← initDriver dev (bridgeDriverInit bus gen dev)
    socInitBridgeControllersEach gen rest

def socInitBridgeControllers (gen : AstGeneration) : Prog (SocEnv σ) Unit :=
  socInitBridgeControllersEach bus gen (bridgeDevices gen)

def bridgectlName : Bridgectl → String
  | .p2a _ => "p2a"
  | .xdma _ => "xdma"
  | .ilpc _ => "ilpc"
  | .debug _ => "debug"

def bridgectlStatus : Bridgectl → Prog (Faulty σ) BridgeMode
  | .p2a ctx => p2actlStatus bus ctx
  | .xdma ctx => xdmactlStatus bus ctx
  | .ilpc ctx => ilpcctlStatus bus ctx
  | .debug ctx => debugctlStatus bus ctx

def bridgectlDetails : Bridgectl → BridgeMode → Prog (Faulty σ) Unit
  | .p2a ctx => p2actlDetails bus ctx
  | .xdma ctx => xdmactlDetails bus ctx
  | .ilpc ctx => ilpcctlDetails bus ctx
  | .debug ctx => debugctlDetails bus ctx

def bridgectlLogStatus (bridge : Bridgectl) (mode : BridgeMode) : Prog (SocEnv σ) Unit :=
  modify fun env => { env with reported := (bridge, mode) :: env.reported }

/-- The reports log the status, and then read what else they print. -/
def bridgectlReport (bridge : Bridgectl) : Prog (SocEnv σ) BridgeMode := do
  let mode ← onSoc (bridgectlStatus bus bridge)
  bridgectlLogStatus bridge mode
  onSoc (bridgectlDetails bus bridge mode)
  return mode

/-- The controllers whose name is not `name`, where one is given, are left out. The mode of a
report that fails is not looked at, as the error is returned. -/
def socProbeEach (name : Option String) : List Bridgectl → BridgeMode × Option Errno →
    Prog (SocEnv σ) (BridgeMode × Option Errno)
  | [], acc => pure acc
  | bridge :: rest, (aggregate, error) => do
    if ∃ n ∈ name, n ≠ bridgectlName bridge then
      socProbeEach name rest (aggregate, error)
    else
      match ← Prog.attempt (bridgectlReport bus bridge) with
      | .ok current => socProbeEach name rest (if current < aggregate then current else aggregate, error)
      | .error e => socProbeEach name rest (aggregate, some e)

def socProbeBridgeControllers (gen : AstGeneration) (name : Option String) : Prog (SocEnv σ) BridgeMode := do
  socInitBridgeControllers bus gen
  let env ← get
  let (aggregate, error) ← socProbeEach bus name env.bridges (.disabled, none)
  match error with
  | some e => Prog.fail e
  | none => return aggregate

end

end Culvert
