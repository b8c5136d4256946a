import Culvert.Soc.Bus

namespace Culvert

/-- `struct bridge_gate_desc` -/
structure BridgeGateDesc where
  reg : Word
  mask : Word
  deriving DecidableEq, Repr

/-- `struct bridges` -/
structure Bridges where
  scu : Word
  descs : List BridgeGateDesc
  deriving DecidableEq, Repr

def ast2500DebugUartGate : Nat := 0
def ast2600DebugUart1Gate : Nat := 0
def ast2600DebugUart5Gate : Nat := 1
def ast2600P2aGate : Nat := 2
def ast2600XdmaGate : Nat := 3
def ast2600XdmaVgaGate : Nat := 4
def ast2600IlpcGate : Nat := 5

def ast2500ScuMisc : Word := 0x02c
def ast2500BridgeGates : List BridgeGateDesc := [⟨ast2500ScuMisc, 1 <<< 10⟩]

def ast2600ScuDbgctl1 : Word := 0x0c8
def ast2600ScuDbgctl2 : Word := 0x0d8

/-- In the order of the gate identifiers. -/
def ast2600BridgeGates : List BridgeGateDesc :=
  [⟨ast2600ScuDbgctl2, 1 <<< 3⟩, ⟨ast2600ScuDbgctl1, 1 <<< 1⟩, ⟨ast2600ScuDbgctl1, 1 <<< 0⟩,
    ⟨ast2600ScuDbgctl1, 1 <<< 2⟩, ⟨ast2600ScuDbgctl1, 1 <<< 8⟩, ⟨ast2600ScuDbgctl2, 1 <<< 1⟩]

/-- The properties `bridge-gate-names` and `bridge-gates` of a device node. The first cell of the
latter is the phandle of the bridge controller. -/
structure BridgeGates where
  names : Option (List String)
  cells : Option (List Word)
  deriving DecidableEq, Repr

def bridgesDeviceGetGateByIndex (gates : BridgeGates) (index : Nat) : Except Errno Int :=
  match gates.cells with
  | none => .error erange
  | some cells =>
    if cells.length < 2 then .error einval
    else match cells[1 + index]? with
      | none => .error einval
      | some cell => .ok cell.toInt

def bridgesDeviceGetGate (gates : BridgeGates) : Except Errno Int := bridgesDeviceGetGateByIndex gates 0

/-- A name that the table of endpoints leaves out is a null pointer, which no node lists. -/
def bridgesDeviceGetGateByName (gates : BridgeGates) (name : Option String) : Except Errno Int :=
  match name.bind fun name => (gates.names.getD []).findIdx? (· = name) with
  | none => .error einval
  | some idx => bridgesDeviceGetGateByIndex gates idx

def Bridges.desc (ctx : Bridges) (bridge : Int) : Except Errno BridgeGateDesc :=
  if bridge < 0 then .error einval
  else match ctx.descs[bridge.toNat]? with
    | none => .error einval
    | some desc => .ok desc

section
variable {σ : Type} (bus : Bus σ)

def bridgesConfigure (ctx : Bridges) (bridge : Int) (enable : Bool) : Prog (Faulty σ) Unit := do
  let desc ← Prog.ofExcept (ctx.desc bridge)
  let val ← socReadl bus (ctx.scu + desc.reg)
  socWritel bus (ctx.scu + desc.reg) (if enable then val &&& ~~~desc.mask else val ||| desc.mask)

def bridgesEnable (ctx : Bridges) (bridge : Int) : Prog (Faulty σ) Unit := bridgesConfigure bus ctx bridge true
def bridgesDisable (ctx : Bridges) (bridge : Int) : Prog (Faulty σ) Unit := bridgesConfigure bus ctx bridge false

def bridgesStatus (ctx : Bridges) (bridge : Int) : Prog (Faulty σ) Bool := do
  let desc ← Prog.ofExcept (ctx.desc bridge)
  let val ← socReadl bus (ctx.scu + desc.reg)
  return val &&& desc.mask = 0

end

def BridgeGateDesc.Ungated (scu : Word) (desc : BridgeGateDesc) (regs : Regs) : Prop :=
  regs (scu + desc.reg) &&& desc.mask = 0

instance (scu : Word) (desc : BridgeGateDesc) (regs : Regs) : Decidable (desc.Ungated scu regs) :=
  inferInstanceAs (Decidable (_ = _))

theorem bridgesStatus_observes {ctx : Bridges} {bridge : Int} {desc : BridgeGateDesc}
    (found : ctx.desc bridge = .ok desc) :
    Faulty.Observes (bridgesStatus regBus ctx bridge) fun regs => decide (desc.Ungated ctx.scu regs) := by
  rw [bridgesStatus, found]
  exact (socReadl_observes (ctx.scu + desc.reg)).bind fun val => .pure (decide (val &&& desc.mask = 0))

end Culvert
