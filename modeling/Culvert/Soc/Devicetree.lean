import Culvert.Lib.Passes
import Culvert.Rev
import Culvert.Soc.Bind

namespace Culvert

/-- The drivers under `src/soc/`. -/
inductive Driver where
  | bridges
  | clk
  | debugctl
  | ilpcctl
  | jtag
  | otp
  | pciectl
  | scu
  | sdmc
  | sfc
  | sioctl
  | strap
  | trace
  | uartMux
  | vuart
  | wdt
  deriving DecidableEq, Repr

namespace Driver

/-- What `REGISTER_SOC_DRIVER` adds for it. -/
def table : Driver → SocDriver
  | bridges => ⟨"bridge-controller", ["aspeed,ast2500-bridge-controller", "aspeed,ast2600-bridge-controller"]⟩
  | clk => ⟨"clk", ["aspeed,ast2400-clock", "aspeed,ast2500-clock", "aspeed,ast2600-clock"]⟩
  | debugctl => ⟨"debugctl", ["aspeed,ast2500-debug-ahb-bridge", "aspeed,ast2600-uart"]⟩
  | ilpcctl => ⟨"ilpcctl",
      ["aspeed,ast2400-ilpc-ahb-bridge", "aspeed,ast2500-ilpc-ahb-bridge", "aspeed,ast2600-ilpc-ahb-bridge"]⟩
  | jtag => ⟨"jtag", ["aspeed,ast2400-jtag", "aspeed,ast2500-jtag", "aspeed,ast2600-jtag"]⟩
  | otp => ⟨"otp", ["aspeed,ast2600-secure-boot-controller"]⟩
  | pciectl => ⟨"pciectl", ["aspeed,ast2400-pcie-device-controller", "aspeed,ast2500-pcie-device-controller",
      "aspeed,ast2600-pcie-device-controller"]⟩
  | scu => ⟨"scu", ["aspeed,ast2400-scu", "aspeed,ast2500-scu", "aspeed,ast2600-scu"]⟩
  | sdmc => ⟨"sdmc",
      ["aspeed,ast2400-sdram-controller", "aspeed,ast2500-sdram-controller", "aspeed,ast2600-sdram-controller"]⟩
  | sfc => ⟨"sfc", ["aspeed,ast2500-fmc", "aspeed,ast2500-spi"]⟩
  | sioctl => ⟨"sioctl", ["aspeed,ast2400-superio", "aspeed,ast2500-superio", "aspeed,ast2600-superio"]⟩
  | strap => ⟨"strap", ["aspeed,ast2400-strapping", "aspeed,ast2500-strapping", "aspeed,ast2600-strapping"]⟩
  | trace => ⟨"trace", ["aspeed,ast2500-ahb-controller", "aspeed,ast2600-ahb-controller"]⟩
  | uartMux => ⟨"uart-mux", ["aspeed,ast2500-lpc-v2"]⟩
  | vuart => ⟨"vuart", ["aspeed,ast2400-vuart", "aspeed,ast2500-vuart", "aspeed,ast2600-vuart"]⟩
  | wdt => ⟨"wdt", ["aspeed,ast2500-wdt"]⟩

def all : List Driver :=
  [bridges, clk, debugctl, ilpcctl, jtag, otp, pciectl, scu, sdmc, sfc, sioctl, strap, trace, uartMux, vuart, wdt]

end Driver

def socDrivers : List SocDriver := Driver.all.map Driver.table

/-- A node without subnodes. -/
def leaf (compatible : List String) : FdtNode := .mk compatible []

def astDevicetree : AstGeneration → FdtNode
  | .g4 => .mk ["aspeed,ast2400"] [leaf [], leaf [], .mk ["simple-bus"] [
      leaf ["mmio-sram"],
      leaf ["aspeed,ast2400-ahb-controller"],
      .mk ["simple-bus"] [
        leaf ["aspeed,ast2400-sdram-controller"],
        .mk ["aspeed,ast2400-scu", "syscon", "simple-mfd"] [
          leaf ["aspeed,ast2400-clock"],
          leaf ["aspeed,ast2400-strapping"],
          leaf ["aspeed,ast2400-superio"],
          leaf ["aspeed,ast2400-pcie-device-controller", "bridge-controller"]],
        leaf ["aspeed,ast2400-jtag"],
        leaf ["aspeed,ast2400-wdt"],
        leaf ["aspeed,ast2400-wdt"],
        leaf ["aspeed,ast2400-vuart"],
        .mk ["aspeed,ast2400-lpc-v2", "syscon", "simple-mfd"] [
          leaf ["aspeed,ast2400-ilpc-ahb-bridge", "bridge-controller"]]]]]
  | .g5 => .mk ["aspeed,ast2500"] [leaf [], leaf [], .mk ["simple-bus"] [
      leaf ["mmio-sram"],
      leaf ["aspeed,ast2500-ahb-controller"],
      .mk ["simple-bus"] [
        leaf ["aspeed,ast2500-fmc"],
        leaf ["aspeed,ast2500-spi"],
        leaf ["aspeed,ast2500-spi"],
        leaf ["aspeed,ast2500-sdram-controller"],
        .mk ["aspeed,ast2500-scu", "syscon", "simple-mfd"] [
          leaf ["aspeed,ast2500-clock"],
          leaf ["aspeed,ast2500-strapping"],
          leaf ["aspeed,ast2500-superio"],
          leaf ["aspeed,ast2500-bridge-controller"],
          leaf ["aspeed,ast2500-debug-ahb-bridge", "bridge-controller"],
          leaf ["aspeed,ast2500-pcie-device-controller", "bridge-controller"]],
        leaf ["aspeed,ast2500-jtag"],
        leaf ["aspeed,ast2500-wdt"],
        leaf ["aspeed,ast2500-wdt"],
        leaf ["aspeed,ast2500-wdt"],
        leaf ["aspeed,ast2500-vuart"],
        .mk ["aspeed,ast2500-lpc-v2", "syscon", "simple-mfd"] [
          leaf ["aspeed,ast2500-ilpc-ahb-bridge", "bridge-controller"]]]]]
  | .g6 => .mk ["aspeed,ast2600"] [leaf [], leaf [], .mk ["simple-bus"] [
      leaf ["mmio-sram"],
      leaf ["aspeed,ast2600-ahb-controller"],
      .mk ["simple-bus"] [
        leaf ["aspeed,ast2600-sdram-controller"],
        .mk ["aspeed,ast2600-scu", "syscon", "simple-mfd"] [
          leaf ["aspeed,ast2600-clock"],
          leaf ["aspeed,ast2600-strapping"],
          leaf ["aspeed,ast2600-superio"],
          leaf ["aspeed,ast2600-bridge-controller"],
          leaf ["aspeed,ast2600-pcie-device-controller", "bridge-controller"]],
        leaf ["aspeed,ast2600-secure-boot-controller"],
        leaf ["aspeed,ast2600-uart", "ns16550a", "bridge-controller"],
        leaf ["aspeed,ast2600-uart", "ns16550a", "bridge-controller"],
        leaf ["aspeed,ast2600-jtag"],
        leaf ["aspeed,ast2600-jtag"],
        leaf ["aspeed,ast2600-wdt"],
        leaf ["aspeed,ast2600-wdt"],
        leaf ["aspeed,ast2600-wdt"],
        leaf ["aspeed,ast2600-wdt"],
        leaf ["aspeed,ast2600-wdt"],
        leaf ["aspeed,ast2600-wdt"],
        leaf ["aspeed,ast2600-wdt"],
        leaf ["aspeed,ast2600-wdt"],
        leaf ["aspeed,ast2600-vuart"],
        leaf ["aspeed,ast2600-vuart"],
        .mk ["aspeed,ast2600-lpc-v2", "syscon", "simple-mfd"] [
          leaf ["aspeed,ast2600-ilpc-ahb-bridge", "bridge-controller"]]]]]

/-- A device on `soc->devices`, by its driver and its node. -/
structure SocDev where
  driver : Driver
  node : FdtPath
  deriving DecidableEq, Repr

/-- The node's entry, where the driver is one of those under `src/soc/`. -/
def socDevOf (entry : BoundDevice) : Option SocDev :=
  (Driver.all.find? (·.table = entry.driver)).map (⟨·, entry.node⟩)

/-- `soc->devices` once every driver is bound. -/
def socDevices (gen : AstGeneration) : List SocDev :=
  (SocDevices.entriesOfSubnodes socDrivers none [] 0 (astDevicetree gen).subnodes).filterMap socDevOf

example : (socDevices .g5).map SocDev.driver = [.uartMux, .ilpcctl, .vuart, .wdt, .wdt, .wdt, .jtag, .scu, .pciectl,
    .debugctl, .bridges, .sioctl, .strap, .clk, .sdmc, .sfc, .sfc, .sfc, .trace] := by decide

theorem socDevices_nodup (gen : AstGeneration) : (socDevices gen).Nodup := by
  cases gen <;> decide

theorem socDevices_scu (gen : AstGeneration) : ∀ dev ∈ socDevices gen, ∀ other ∈ socDevices gen,
    dev.driver = .scu → other.driver = .scu → dev = other := by
  cases gen <;> decide

namespace SocDevices

/-- The binding got to a part of the entries, which are bound from the last one on. -/
def Part (entries old devices : List BoundDevice) : Prop := ∃ part, part <:+ entries ∧ devices = part ++ old

section
variable {entries more old devices : List BoundDevice}

theorem Part.none : Part entries old old := ⟨[], List.nil_suffix, rfl⟩

theorem Part.all (same : devices = entries ++ old) : Part entries old devices := ⟨entries, List.suffix_rfl, same⟩

theorem Part.append_left (part : Part entries old devices) : Part (more ++ entries) old devices := by
  obtain ⟨part, suffix, same⟩ := part
  exact ⟨part, suffix.trans (List.suffix_append more entries), same⟩

theorem Part.append_right (part : Part entries (more ++ old) devices) : Part (entries ++ more) old devices := by
  obtain ⟨part, ⟨before, rfl⟩, rfl⟩ := part
  exact ⟨part ++ more, ⟨before, (List.append_assoc before part more).symm⟩, (List.append_assoc part more old).symm⟩

end

section
variable (drivers : List SocDriver)

theorem malloc_passes {entries : List BoundDevice} (devices : List BoundDevice) :
    Faulty.Passes (Part entries devices) devices malloc fun _ now => now = devices := by
  have asked : Faulty.Passes (Part entries devices) devices
      (Faulty.access fun devices => ((), devices)) fun _ now => now = devices :=
    Faulty.Passes.access Part.none rfl
  refine (asked.attempt.bind fun r now post => ?_ :
    Faulty.Passes (Part entries devices) devices malloc fun _ now => now = devices)
  cases r with
  | ok _ => exact Faulty.Passes.pure post
  | error _ => exact Faulty.Passes.fail post

theorem listAdd_passes {P : List BoundDevice → Prop} (dev : BoundDevice) (devices : List BoundDevice) :
    Faulty.Passes P devices (listAdd dev) fun _ now => now = dev :: devices := by
  rintro s rfl
  refine ⟨fun a s' run => ?_, fun e s' run => nomatch run⟩
  cases run
  rfl

theorem socBindFirst_passes {P : List BoundDevice → Prop} (parent : Option FdtPath) (node : FdtPath)
    (compatible : List String) (devices : List BoundDevice) :
    Faulty.Passes P devices (socBindFirst parent node compatible drivers) fun _ now =>
      now = ownEntry drivers parent node compatible ++ devices := by
  induction drivers with
  | nil => exact Faulty.Passes.pure rfl
  | cons driver rest ih =>
    by_cases accepted : driver.accepts compatible
    · have found : ownEntry (driver :: rest) parent node compatible = [⟨parent, node, driver⟩] := by
        simp [ownEntry, accepted]
      rw [socBindFirst, if_pos accepted, found]
      exact listAdd_passes _ devices
    · have same : ownEntry (driver :: rest) parent node compatible = ownEntry rest parent node compatible := by
        simp [ownEntry, accepted]
      rw [socBindFirst, if_neg accepted, same]
      exact ih

mutual

theorem socDeviceBindDriver_passes (parent : Option FdtPath) (path : FdtPath) (devices : List BoundDevice) :
    ∀ node : FdtNode, Faulty.Passes (Part (entriesOf drivers parent path node) devices) devices
      (socDeviceBindDriver drivers parent path node) fun _ now => now = entriesOf drivers parent path node ++ devices
  | .mk compatible subnodes => by
    rw [socDeviceBindDriver, entriesOf]
    refine (malloc_passes devices).bind fun _ now here => ?_
    subst here
    by_cases bus : isBusOrMfd compatible
    · simp only [if_pos bus, List.append_assoc]
      have inside := socBusEnumerateDevices_passes (some path) path now 0 subnodes
      refine (inside.mono fun _ part => part.append_left).bind fun _ mid done => ?_
      rw [done]
      exact socBindFirst_passes drivers parent path compatible _
    · simp only [if_neg bus, List.append_nil]
      exact socBindFirst_passes drivers parent path compatible now

theorem socBusEnumerateDevices_passes (dev : Option FdtPath) (bus : FdtPath) (devices : List BoundDevice) (i : Nat) :
    ∀ subnodes : List FdtNode, Faulty.Passes (Part (entriesOfSubnodes drivers dev bus i subnodes) devices) devices
      (socBusEnumerateDevices drivers dev bus i subnodes) fun _ now =>
        now = entriesOfSubnodes drivers dev bus i subnodes ++ devices
  | [] => by
    rw [socBusEnumerateDevices, entriesOfSubnodes]
    exact Faulty.Passes.pure rfl
  | subnode :: rest => by
    rw [socBusEnumerateDevices, entriesOfSubnodes]
    have first := socDeviceBindDriver_passes dev (bus ++ [i]) devices subnode
    refine (first.mono fun _ part => part.append_left).bind fun _ now here => ?_
    rw [here, List.append_assoc]
    have later := socBusEnumerateDevices_passes dev bus (entriesOf drivers dev (bus ++ [i]) subnode ++ devices)
      (i + 1) rest
    exact later.mono fun _ part => part.append_right

end

/-- Whatever allocations fail, a part of the entries is bound. -/
theorem socBindDrivers_part (root : FdtNode) (s : SocDevices) :
    Part (entriesOfSubnodes drivers none [] 0 root.subnodes) s.dev ((socBindDrivers drivers root).run s).state.dev := by
  rw [socBindDrivers]
  by_cases none : drivers.length = 0
  · rw [if_pos none]
    exact Part.none
  · rw [if_neg none]
    have enumerated := socBusEnumerateDevices_passes drivers Option.none [] s.dev 0 root.subnodes
    have tried : Faulty.Passes (Part (entriesOfSubnodes drivers Option.none [] 0 root.subnodes) s.dev) s.dev
        (do let _ ← Prog.attempt (socBusEnumerateDevices drivers Option.none [] 0 root.subnodes); pure ())
        fun _ => Part (entriesOfSubnodes drivers Option.none [] 0 root.subnodes) s.dev :=
      enumerated.attempt.bind fun r now post => by
        cases r with
        | ok _ => exact Faulty.Passes.pure (Part.all post)
        | error _ => exact Faulty.Passes.pure post
    exact tried.state

end

end SocDevices

/-- What `soc_probe` binds on a SoC of the generation, where some allocations may fail. -/
def socProbeDevices (gen : AstGeneration) (fails : Nat → Option Errno) : List SocDev :=
  ((SocDevices.socBindDrivers socDrivers (astDevicetree gen)).run ⟨[], fails, 0⟩).state.dev.filterMap socDevOf

theorem socProbeDevices_sublist (gen : AstGeneration) (fails : Nat → Option Errno) :
    (socProbeDevices gen fails).Sublist (socDevices gen) := by
  obtain ⟨part, suffix, same⟩ := SocDevices.socBindDrivers_part socDrivers (astDevicetree gen) ⟨[], fails, 0⟩
  rw [List.append_nil] at same
  rw [socProbeDevices, same]
  exact suffix.sublist.filterMap socDevOf

end Culvert
