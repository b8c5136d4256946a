import Culvert.Soc.Bridgectl
import Culvert.Soc.Bridges
import Culvert.Soc.Sdmc

namespace Culvert

/-- `enum device_function` -/
inductive DeviceFunction where
  | mmio
  | xdma
  deriving DecidableEq, Repr

/-- `struct pciectl_endpoint` -/
structure PciectlEndpoint where
  deviceMask : Word
  function : DeviceFunction
  functionMask : Word
  gate : Option String
  deriving DecidableEq, Repr

/-- The masks of the P2A regions stand for the whole region table. -/
structure PciectlPdata where
  misc : Word
  config : Word
  endpoints : List PciectlEndpoint
  regions : List Word
  deriving DecidableEq, Repr

/-- `struct pciectl` -/
structure Pciectl where
  bridges : Option Bridges
  gates : BridgeGates
  scu : Word
  pdata : PciectlPdata
  sdmc : Sdmc
  deriving DecidableEq, Repr

def g4ScuMisc : Word := 0x02c
def g6ScuMisc : Word := 0x0c0
def g4ScuPcieConfig : Word := 0x180
def g6ScuPcieConfig : Word := 0xc20
def scuPcieConfigBmcXdma : Word := 1 <<< 14
def scuPcieConfigBmcMmio : Word := 1 <<< 9
def scuPcieConfigBmc : Word := 1 <<< 8
def scuPcieConfigVgaXdma : Word := 1 <<< 6
def scuPcieConfigVgaMmio : Word := 1 <<< 1
def scuPcieConfigVga : Word := 1 <<< 0

/-- Firmware, SoC IO, BMC Flash, Host Flash, DRAM, LPC Host, Reserved. -/
def ast2400P2aRegions : List Word := [1 <<< 22, 1 <<< 23, 1 <<< 22, 1 <<< 24, 1 <<< 25, 1 <<< 23, 1 <<< 23]

/-- Firmware, SoC IO, BMC Flash, Host Flash, Reserved, LPC Host, DRAM. -/
def ast2500P2aRegions : List Word := [1 <<< 22, 1 <<< 23, 1 <<< 22, 1 <<< 22, 1 <<< 23, 1 <<< 24, 1 <<< 25]

def ast2400PcieBridges : List PciectlEndpoint :=
  [⟨scuPcieConfigBmc, .mmio, scuPcieConfigBmcMmio, none⟩, ⟨scuPcieConfigVga, .mmio, scuPcieConfigVgaMmio, none⟩,
    ⟨scuPcieConfigBmc, .xdma, scuPcieConfigBmcXdma, none⟩, ⟨scuPcieConfigVga, .xdma, scuPcieConfigVgaXdma, none⟩]

def ast2600PcieBridges : List PciectlEndpoint :=
  [⟨scuPcieConfigBmc, .mmio, scuPcieConfigBmcMmio, some "p2a"⟩,
    ⟨scuPcieConfigVga, .mmio, scuPcieConfigVgaMmio, some "p2a"⟩,
    ⟨scuPcieConfigBmc, .xdma, scuPcieConfigBmcXdma, some "xdma"⟩,
    ⟨scuPcieConfigVga, .xdma, scuPcieConfigVgaXdma, some "xdma-vga"⟩]

def ast2400Pdata : PciectlPdata := ⟨g4ScuMisc, g4ScuPcieConfig, ast2400PcieBridges, ast2400P2aRegions⟩

/-- The endpoints of the AST2500 are those of the AST2400. -/
def ast2500Pdata : PciectlPdata := ⟨g4ScuMisc, g4ScuPcieConfig, ast2400PcieBridges, ast2500P2aRegions⟩

def ast2600Pdata : PciectlPdata := ⟨g6ScuMisc, g6ScuPcieConfig, ast2600PcieBridges, ast2500P2aRegions⟩

/-- The gates of the PCIe node of the AST2600, after the phandle. -/
def ast2600PciectlGates : BridgeGates where
  names := some ["p2a", "xdma", "xdma-vga"]
  cells := some [1, .ofNat 32 ast2600P2aGate, .ofNat 32 ast2600XdmaGate, .ofNat 32 ast2600XdmaVgaGate]

/-- The context of each generation, as `pciectl_driver_init` leaves it. -/
def pciectl : AstGeneration → Pciectl
  | .g4 => ⟨none, ⟨none, none⟩, 0x1e6e2000, ast2400Pdata, sdmc .g4⟩
  | .g5 => ⟨none, ⟨none, none⟩, 0x1e6e2000, ast2500Pdata, sdmc .g5⟩
  | .g6 => ⟨some ⟨0x1e6e2000, ast2600BridgeGates⟩, ast2600PciectlGates, 0x1e6e2000, ast2600Pdata, sdmc .g6⟩

def pciectlPdataCollectRegionMask (pdata : PciectlPdata) (ep : PciectlEndpoint) : Word :=
  if ep.function ≠ .mmio then 0 else pdata.regions.foldl (· ||| ·) 0

section
variable {σ : Type} (bus : Bus σ) (ctx : Pciectl)

/-- With a bridge controller, a failing last write is forgotten, and so is a gate left closed. -/
def pciectlDeviceEnforce (ep : PciectlEndpoint) (mode : BridgeMode) : Prog (Faulty σ) Unit := do
  let pcie ← socReadl bus (ctx.scu + ctx.pdata.config)
  if mode = .disabled then
    socWritel bus (ctx.scu + ctx.pdata.config) (pcie &&& ~~~ep.functionMask)
  else
    let misc ← socReadl bus (ctx.scu + ctx.pdata.misc)
    let mask := pciectlPdataCollectRegionMask ctx.pdata ep
    if mask = 0 then
      return ()
    else
      socWritel bus (ctx.scu + ctx.pdata.misc) (if mode = .restricted then misc ||| mask else misc &&& ~~~mask)
      let rc ← Prog.attempt
        (socWritel bus (ctx.scu + ctx.pdata.config) (pcie ||| (ep.deviceMask ||| ep.functionMask)))
      match ctx.bridges with
      | none => Prog.ofExcept rc
      | some bridges =>
        let id ← Prog.ofExcept (bridgesDeviceGetGateByName ctx.gates ep.gate)
        let _ ← Prog.attempt (bridgesEnable bus bridges id)
        return ()

/-- The first part of `pciectl_device_status` and `pciectl_device_report`. -/
def pciectlGateStatus (ep : PciectlEndpoint) : Prog (Faulty σ) Bool := do
  match ctx.bridges with
  | none => return true
  | some bridges =>
    let id ← Prog.ofExcept (bridgesDeviceGetGateByName ctx.gates ep.gate)
    bridgesStatus bus bridges id

/-- `pciectl_device_status` past the gate. -/
def pciectlUngatedStatus (ep : PciectlEndpoint) : Prog (Faulty σ) BridgeMode := do
  let pcie ← socReadl bus (ctx.scu + ctx.pdata.config)
  if pcie &&& (ep.deviceMask ||| ep.functionMask) = ep.deviceMask ||| ep.functionMask then
    let mask := pciectlPdataCollectRegionMask ctx.pdata ep
    if mask = 0 then
      return .permissive
    else
      let misc ← socReadl bus (ctx.scu + ctx.pdata.misc)
      return if misc &&& mask = mask then .restricted else .permissive
  else
    return .disabled

def pciectlDeviceStatus (ep : PciectlEndpoint) : Prog (Faulty σ) BridgeMode := do
  if ← pciectlGateStatus bus ctx ep then
    pciectlUngatedStatus bus ctx ep
  else
    return .disabled

def pciectlDeviceReport (ep : PciectlEndpoint) : Prog (Faulty σ) Unit := do
  let _ ← pciectlGateStatus bus ctx ep
  let _ ← socReadl bus (ctx.scu + ctx.pdata.config)
  return ()

def pciectlEnforceEach (mode : BridgeMode) (function : DeviceFunction) : List PciectlEndpoint → Prog (Faulty σ) Unit
  | [] => return ()
  | curr :: rest => do
    if curr.function = function then
      pciectlDeviceEnforce bus ctx curr mode
    pciectlEnforceEach mode function rest

def pciectlEnforce (mode : BridgeMode) (function : DeviceFunction) : Prog (Faulty σ) Unit :=
  pciectlEnforceEach bus ctx mode function ctx.pdata.endpoints

def pciectlStatusEach (function : DeviceFunction) : List PciectlEndpoint → BridgeMode → Prog (Faulty σ) BridgeMode
  | [], aggregateMode => return aggregateMode
  | curr :: rest, aggregateMode => do
    if curr.function = function then
      let currMode ← pciectlDeviceStatus bus ctx curr
      pciectlStatusEach function rest (if currMode < aggregateMode then currMode else aggregateMode)
    else
      pciectlStatusEach function rest aggregateMode

def pciectlStatus (function : DeviceFunction) : Prog (Faulty σ) BridgeMode :=
  pciectlStatusEach bus ctx function ctx.pdata.endpoints .disabled

def pciectlReportEach (function : DeviceFunction) : List PciectlEndpoint → Prog (Faulty σ) Unit
  | [] => return ()
  | curr :: rest => do
    if curr.function = function then
      pciectlDeviceReport bus ctx curr
    pciectlReportEach function rest

def pciectlReport (function : DeviceFunction) : Prog (Faulty σ) Unit :=
  pciectlReportEach bus ctx function ctx.pdata.endpoints

def p2actlEnforce (mode : BridgeMode) : Prog (Faulty σ) Unit := pciectlEnforce bus ctx mode .mmio

def p2actlStatus : Prog (Faulty σ) BridgeMode := pciectlStatus bus ctx .mmio

/-- What `p2actl_report` does after logging the status. -/
def p2actlDetails (mode : BridgeMode) : Prog (Faulty σ) Unit := do
  if mode ≠ .disabled then
    pciectlReport bus ctx .mmio
    let _ ← socReadl bus (ctx.scu + ctx.pdata.misc)

def xdmactlEnforce (mode : BridgeMode) : Prog (Faulty σ) Unit := do
  sdmcConfigureXdma bus ctx.sdmc (mode = .permissive)
  pciectlEnforce bus ctx mode .xdma

def xdmactlStatus : Prog (Faulty σ) BridgeMode := do
  let mode ← pciectlStatus bus ctx .xdma
  let constrained ← sdmcConstrainsXdma bus ctx.sdmc
  return if mode = .permissive ∧ constrained then .restricted else mode

/-- What `xdmactl_report` does after logging the status. -/
def xdmactlDetails (mode : BridgeMode) : Prog (Faulty σ) Unit := do
  if mode ≠ .disabled then
    pciectlReport bus ctx .xdma
    let _ ← sdmcConstrainsXdma bus ctx.sdmc

end

end Culvert
